import Mlrc.Pipeline.Chain

/-!
# The port allocator

The coordinator reserves the ports that pipeline chains listen on.  The reservations are shared by
all recovery sessions.  Every proxy has a band of ports; the lower half is for hops and the upper
half for hubs and sinks.

* `allocate`   the search for a port, with cursors, cooldowns and the bind probe;
* `releasePort`   the release of a port, which then cools down;
* `halfBand`   the ports of one half of a band;
* `allocate_cases`   what an allocation does to the ports in flight;
* `allocate_isSome_iff`   a port is found exactly when half a band has a free one;
* `mem_foldl_releasePort` what a release does to them.

Time is a number; whether a port can be bound is asked of the host at each allocation.
-/

namespace Mlrc

open List Option Function Nat

variable {cooldown : ℕ → Option ℕ} {slot port idx : ℕ} {dedicatedHost : Bool} {a : PortAllocator}

/-! ## The allocator -/

/-- the static members of `GlrcPipelinePortAllocator` -/
structure PortAllocator where
  inflightPorts : Endpoint → Finset ℕ
  hopSlotCursor : Endpoint → ℕ
  hubSlotCursor : Endpoint → ℕ
  portCooldownUntil : Endpoint → ℕ → Option ℕ

namespace PortAllocator

/-- the place of a proxy in the port range, `none` for the source's -1 -/
def pipelineProxyIndex (dedicatedHost : Bool) (proxyGrpcPort : ℕ) : Option ℕ :=
  if dedicatedHost then some 0
  else
    let idx := ((proxyGrpcPort : ℤ) - proxyGrpcBase).tdiv proxyGrpcStride
    if idx < 0 ∨ (proxyGrpcMaxIndex : ℤ) < idx then none else some idx.toNat

def band (dedicatedHost : Bool) : ℕ := if dedicatedHost then 10000 else proxyPipelinePerProxyBand

def half (dedicatedHost : Bool) : ℕ := band dedicatedHost / 2

def maxPort (dedicatedHost : Bool) (proxyIdx : ℕ) : ℕ :=
  proxyPipelineExchangeBase + (proxyIdx + 1) * band dedicatedHost - 1

/-- the port of a slot; the hub ports are the upper half of the band -/
def portAt (dedicatedHost hubBand : Bool) (proxyIdx slotInHalf : ℕ) : ℕ :=
  let slot := if hubBand then half dedicatedHost + slotInHalf else slotInHalf
  let port := proxyPipelineExchangeBase + proxyIdx * band dedicatedHost + slot
  if port = 55555 then port + 1 else port

/-- what the host says when a port is asked for -/
structure PortProbe where
  now : ℕ
  /-- `pipeline_port_bindable` -/
  bindable : ℕ → Bool

/-- one turn of the search: whether the port is taken, and the cooldowns without an expired one -/
def attempt (probe : PortProbe) (inflight used : Finset ℕ) (maxPort port : ℕ)
    (cooldown : ℕ → Option ℕ) : Bool × (ℕ → Option ℕ) :=
  if port = 0 ∨ 65535 < port ∨ maxPort < port then (false, cooldown)
  else if port ∈ inflight then (false, cooldown)
  else
    match cooldown port with
    | some until_ =>
      if probe.now < until_ then (false, cooldown)
      else (probe.bindable port && decide (port ∉ used), update cooldown port none)
    | none => (probe.bindable port && decide (port ∉ used), cooldown)

def search (probe : PortProbe) (inflight used : Finset ℕ) (maxPort : ℕ) (port : ℕ → ℕ) :
    List ℕ → (ℕ → Option ℕ) → Option ℕ × (ℕ → Option ℕ)
  | [], cooldown => (none, cooldown)
  | i :: is, cooldown =>
    match attempt probe inflight used maxPort (port i) cooldown with
    | (true, cooldown) => (some i, cooldown)
    | (false, cooldown) => search probe inflight used maxPort port is cooldown

end PortAllocator

open PortAllocator

/-- the arguments of `allocate` -/
structure PortRequest where
  proxyKey : Endpoint
  hubBand : Bool
  chainId : ℕ
  hopIndex : ℕ

namespace PortAllocator

def cursor (a : PortAllocator) (req : PortRequest) : ℕ :=
  if req.hubBand then a.hubSlotCursor req.proxyKey else a.hopSlotCursor req.proxyKey

/-- the slot that attempt `i` looks at -/
def slotInHalf (a : PortAllocator) (dedicatedHost : Bool) (exchangeEpoch : ℕ) (req : PortRequest)
    (i : ℕ) : ℕ :=
  (exchangeEpoch * 31 + req.chainId * 17 + req.hopIndex * 11 + a.cursor req + i) % half dedicatedHost

def setCooldown (a : PortAllocator) (key : Endpoint) (cooldown : ℕ → Option ℕ) : PortAllocator :=
  { a with portCooldownUntil := update a.portCooldownUntil key cooldown }

def setCursor (a : PortAllocator) (req : PortRequest) (cursor : ℕ) : PortAllocator :=
  if req.hubBand then { a with hubSlotCursor := update a.hubSlotCursor req.proxyKey cursor }
  else { a with hopSlotCursor := update a.hopSlotCursor req.proxyKey cursor }

def reserve (a : PortAllocator) (key : Endpoint) (port : ℕ) : PortAllocator :=
  { a with inflightPorts := update a.inflightPorts key (insert port (a.inflightPorts key)) }

/-- the port found, the session's own ports, and the shared state; `usedPorts` are the ports the
session has taken before -/
def allocate (dedicatedHost : Bool) (exchangeEpoch : ℕ) (req : PortRequest) (probe : PortProbe)
    (usedPorts : Endpoint → Finset ℕ) (a : PortAllocator) :
    Option ℕ × (Endpoint → Finset ℕ) × PortAllocator :=
  match pipelineProxyIndex dedicatedHost req.proxyKey.port with
  | none => (none, usedPorts, a)
  | some proxyIdx =>
    let port i := portAt dedicatedHost req.hubBand proxyIdx
      (a.slotInHalf dedicatedHost exchangeEpoch req i)
    match search probe (a.inflightPorts req.proxyKey) (usedPorts req.proxyKey)
        (maxPort dedicatedHost proxyIdx) port (range (half dedicatedHost))
        (a.portCooldownUntil req.proxyKey) with
    | (none, cooldown) => (none, usedPorts, a.setCooldown req.proxyKey cooldown)
    | (some i, cooldown) =>
      (some (port i),
        update usedPorts req.proxyKey (insert (port i) (usedPorts req.proxyKey)),
        ((a.setCooldown req.proxyKey cooldown).reserve req.proxyKey (port i)).setCursor req
          ((a.cursor req + i + 1) % half dedicatedHost))

/-- the release of one port; a dedicated host keeps its reservations -/
def releasePort (dedicatedHost : Bool) (cooldownUntil : ℕ) (a : PortAllocator) (p : Endpoint × ℕ) :
    PortAllocator :=
  if dedicatedHost then a
  else
    { a with
      inflightPorts := update a.inflightPorts p.1 ((a.inflightPorts p.1).erase p.2)
      portCooldownUntil := update a.portCooldownUntil p.1
        (update (a.portCooldownUntil p.1) p.2 (some cooldownUntil)) }

end PortAllocator

/-! ## The search -/

namespace PortAllocator
def Cooled (probe : PortProbe) (cooldown : ℕ → Option ℕ) (port : ℕ) : Prop :=
  ∀ t ∈ cooldown port, t ≤ probe.now

instance (probe : PortProbe) (cooldown : ℕ → Option ℕ) (port : ℕ) :
    Decidable (Cooled probe cooldown port) :=
  inferInstanceAs (Decidable (∀ t ∈ cooldown port, t ≤ probe.now))

structure Taken (probe : PortProbe) (inflight used : Finset ℕ) (top : ℕ) (cooldown : ℕ → Option ℕ)
    (port : ℕ) : Prop where
  pos : port ≠ 0
  le_max : port ≤ 65535
  le_top : port ≤ top
  inflight : port ∉ inflight
  cooled : Cooled probe cooldown port
  bindable : probe.bindable port = true
  unused : port ∉ used

section
variable (probe : PortProbe) (inflight used : Finset ℕ) (top : ℕ)

theorem cooled_update_none {q : ℕ} (hq : Cooled probe cooldown q) (port : ℕ) :
    Cooled probe (update cooldown q none) port ↔ Cooled probe cooldown port := by
  by_cases h : port = q
  · subst h
    refine iff_of_true (fun t ht => ?_) hq
    rw [update_self] at ht
    cases ht
  · unfold Cooled
    rw [update_of_ne h]

theorem attempt_cooled (port : ℕ) (cooldown : ℕ → Option ℕ) (q : ℕ) :
    Cooled probe (attempt probe inflight used top port cooldown).2 q ↔ Cooled probe cooldown q := by
  unfold attempt
  split
  · rfl
  split
  · rfl
  split
  · next until_ huntil =>
    split
    · rfl
    · next hexp =>
      refine cooled_update_none probe (fun t ht => ?_) q
      rw [huntil] at ht
      cases ht
      exact Nat.le_of_not_lt hexp
  · rfl

theorem attempt_iff (port : ℕ) (cooldown : ℕ → Option ℕ) :
    (attempt probe inflight used top port cooldown).1 = true ↔
      Taken probe inflight used top cooldown port := by
  unfold attempt
  split
  · next hout =>
    refine iff_of_false Bool.false_ne_true fun h => ?_
    rcases hout with h0 | hmax | htop
    · exact h.pos h0
    · exact not_lt.mpr h.le_max hmax
    · exact not_lt.mpr h.le_top htop
  next hin =>
  push Not at hin
  split
  · next hmem => exact iff_of_false Bool.false_ne_true fun h => h.inflight hmem
  next hmem =>
  have hrest (hcool : Cooled probe cooldown port) :
      (probe.bindable port && decide (port ∉ used)) = true ↔
        Taken probe inflight used top cooldown port := by
    rw [Bool.and_eq_true, decide_eq_true_eq]
    exact ⟨fun h => ⟨hin.1, hin.2.1, hin.2.2, hmem, hcool, h.1, h.2⟩, fun h => ⟨h.bindable, h.unused⟩⟩
  split
  · next until_ huntil =>
    split
    · next hrun =>
      exact iff_of_false Bool.false_ne_true fun h => absurd (h.cooled until_ huntil) (not_le.mpr hrun)
    · next hexp =>
      refine hrest fun t ht => ?_
      rw [huntil] at ht
      cases ht
      exact Nat.le_of_not_lt hexp
  · next hnone =>
    refine hrest fun t ht => ?_
    rw [hnone] at ht
    cases ht

variable {probe inflight used top}

theorem taken_congr {cooldown' : ℕ → Option ℕ}
    (h : ∀ q, Cooled probe cooldown' q ↔ Cooled probe cooldown q) (port : ℕ) :
    Taken probe inflight used top cooldown' port ↔ Taken probe inflight used top cooldown port :=
  ⟨fun t => { t with cooled := (h port).mp t.cooled }, fun t => { t with cooled := (h port).mpr t.cooled }⟩

theorem search_some {port : ℕ → ℕ} {is : List ℕ} {i : ℕ}
    (h : (search probe inflight used top port is cooldown).1 = some i) :
    i ∈ is ∧ Taken probe inflight used top cooldown (port i) := by
  induction is generalizing cooldown with
  | nil => cases h
  | cons j js ih =>
    have hiff := attempt_iff probe inflight used top (port j) cooldown
    have hcool := attempt_cooled probe inflight used top (port j) cooldown
    unfold search at h
    split at h
    · next c hc =>
      rw [hc] at hiff
      cases h
      exact ⟨mem_cons_self, hiff.mp rfl⟩
    · next c hc =>
      rw [hc] at hcool
      obtain ⟨hmem, htaken⟩ := ih h
      exact ⟨mem_cons_of_mem _ hmem, (taken_congr hcool _).mp htaken⟩

theorem search_none {port : ℕ → ℕ} {is : List ℕ}
    (h : (search probe inflight used top port is cooldown).1 = none) {i : ℕ} (hi : i ∈ is) :
    ¬Taken probe inflight used top cooldown (port i) := by
  induction is generalizing cooldown with
  | nil => cases hi
  | cons j js ih =>
    have hiff := attempt_iff probe inflight used top (port j) cooldown
    have hcool := attempt_cooled probe inflight used top (port j) cooldown
    unfold search at h
    split at h
    · cases h
    · next c hc =>
      rw [hc] at hiff hcool
      rcases mem_cons.mp hi with rfl | hi
      · exact fun ht => Bool.false_ne_true (hiff.mpr ht)
      · exact fun ht => ih h hi ((taken_congr hcool _).mpr ht)

end

/-! ## The slots -/

/-- half a band has a port that is not in flight, not cooling down and can be bound -/
def FreePort (dedicatedHost : Bool) (probe : PortProbe) (a : PortAllocator) (req : PortRequest) : Prop :=
  ∃ idx ∈ pipelineProxyIndex dedicatedHost req.proxyKey.port, ∃ slot < half dedicatedHost,
    portAt dedicatedHost req.hubBand idx slot ∉ a.inflightPorts req.proxyKey ∧
    Cooled probe (a.portCooldownUntil req.proxyKey) (portAt dedicatedHost req.hubBand idx slot) ∧
    probe.bindable (portAt dedicatedHost req.hubBand idx slot) = true

instance (dedicatedHost : Bool) (probe : PortProbe) (a : PortAllocator) (req : PortRequest) :
    Decidable (FreePort dedicatedHost probe a req) :=
  inferInstanceAs (Decidable (∃ idx ∈ pipelineProxyIndex dedicatedHost req.proxyKey.port,
    ∃ slot < half dedicatedHost,
      portAt dedicatedHost req.hubBand idx slot ∉ a.inflightPorts req.proxyKey ∧
      Cooled probe (a.portCooldownUntil req.proxyKey) (portAt dedicatedHost req.hubBand idx slot) ∧
      probe.bindable (portAt dedicatedHost req.hubBand idx slot) = true))

theorem exists_slotInHalf (a : PortAllocator) (dedicatedHost : Bool) (epoch : ℕ) (req : PortRequest)
    (h : slot < half dedicatedHost) :
    ∃ i < half dedicatedHost, a.slotInHalf dedicatedHost epoch req i = slot := by
  unfold slotInHalf
  generalize epoch * 31 + req.chainId * 17 + req.hopIndex * 11 + a.cursor req = c
  generalize half dedicatedHost = n at h ⊢
  have hc := mod_lt c (zero_lt_of_lt h)
  refine ⟨(slot + (n - c % n)) % n, mod_lt _ (zero_lt_of_lt h), ?_⟩
  have hsum : c + (slot + (n - c % n)) = slot + n * (c / n + 1) := by
    have hdiv := div_add_mod c n
    rw [mul_add, mul_one]
    omega
  rw [add_mod_mod, hsum, add_mul_mod_self_left, mod_eq_of_lt h]

theorem slotInHalf_lt (a : PortAllocator) (dedicatedHost : Bool) (epoch : ℕ) (req : PortRequest)
    (i : ℕ) : a.slotInHalf dedicatedHost epoch req i < half dedicatedHost :=
  mod_lt _ (by cases dedicatedHost <;> decide)

/-! ## The bands -/

def bandStart (dedicatedHost : Bool) (proxyIdx : ℕ) : ℕ :=
  proxyPipelineExchangeBase + proxyIdx * band dedicatedHost

def halfBand (dedicatedHost hubBand : Bool) (proxyIdx : ℕ) : Finset ℕ :=
  let start := bandStart dedicatedHost proxyIdx + if hubBand then half dedicatedHost else 0
  Finset.Ico start (start + half dedicatedHost)

theorem band_eq (dedicatedHost : Bool) :
    band dedicatedHost = half dedicatedHost + half dedicatedHost := by
  cases dedicatedHost <;> rfl

theorem bandStart_succ (dedicatedHost : Bool) (idx : ℕ) :
    bandStart dedicatedHost (idx + 1) = bandStart dedicatedHost idx + band dedicatedHost := by
  unfold bandStart
  rw [add_mul, one_mul, add_assoc]

theorem maxPort_eq (dedicatedHost : Bool) (idx : ℕ) :
    maxPort dedicatedHost idx = bandStart dedicatedHost (idx + 1) - 1 := rfl

theorem bandStart_lt (hidx : idx ∈ pipelineProxyIndex dedicatedHost port) :
    0 < bandStart dedicatedHost idx ∧ bandStart dedicatedHost (idx + 1) ≤ 42000 := by
  unfold pipelineProxyIndex at hidx
  cases dedicatedHost with
  | true =>
    cases hidx
    decide
  | false =>
    simp only [Bool.false_eq_true, if_false, mem_def, ite_none_left_eq_some, not_or,
      some.injEq] at hidx
    simp only [bandStart, band, Bool.false_eq_true, if_false, proxyPipelinePerProxyBand,
      proxyGrpcMaxIndex, proxyPipelineExchangeBase] at hidx ⊢
    omega

theorem portAt_eq (hubBand : Bool)
    (hidx : idx ∈ pipelineProxyIndex dedicatedHost port) (hslot : slot < half dedicatedHost) :
    portAt dedicatedHost hubBand idx slot =
      bandStart dedicatedHost idx + (if hubBand then half dedicatedHost else 0) + slot := by
  obtain ⟨-, hlt⟩ := bandStart_lt hidx
  rw [bandStart_succ, band_eq] at hlt
  have hport : (bandStart dedicatedHost idx + if hubBand then half dedicatedHost + slot else slot) =
      bandStart dedicatedHost idx + (if hubBand then half dedicatedHost else 0) + slot := by
    cases hubBand <;> simp only [Bool.false_eq_true, if_false, if_true] <;> omega
  unfold portAt
  simp only
  rw [← bandStart, hport]
  apply if_neg
  cases hubBand <;> simp only [Bool.false_eq_true, if_false, if_true] <;> omega

theorem mem_halfBand {hubBand : Bool} {grpcPort : ℕ}
    (hidx : idx ∈ pipelineProxyIndex dedicatedHost grpcPort) :
    port ∈ halfBand dedicatedHost hubBand idx ↔
      ∃ slot < half dedicatedHost, portAt dedicatedHost hubBand idx slot = port := by
  unfold halfBand
  rw [Finset.mem_Ico]
  constructor
  · rintro ⟨hlow, hhigh⟩
    have hslot : port - (bandStart dedicatedHost idx + if hubBand then half dedicatedHost else 0) <
        half dedicatedHost := by omega
    refine ⟨_, hslot, ?_⟩
    rw [portAt_eq hubBand hidx hslot]
    omega
  · rintro ⟨slot, hslot, rfl⟩
    rw [portAt_eq hubBand hidx hslot]
    omega

theorem halfBand_subset (dedicatedHost hubBand : Bool) (idx : ℕ) :
    halfBand dedicatedHost hubBand idx ⊆
      Finset.Ico (bandStart dedicatedHost idx) (bandStart dedicatedHost (idx + 1)) := by
  rw [bandStart_succ, band_eq]
  apply Finset.Ico_subset_Ico
  · omega
  · cases hubBand <;> simp only [Bool.false_eq_true, if_false, if_true] <;> omega

theorem portAt_range (hubBand : Bool)
    (hidx : idx ∈ pipelineProxyIndex dedicatedHost port) (hslot : slot < half dedicatedHost) :
    portAt dedicatedHost hubBand idx slot ≠ 0 ∧ portAt dedicatedHost hubBand idx slot ≤ 65535 ∧
      portAt dedicatedHost hubBand idx slot ≤ maxPort dedicatedHost idx := by
  have hmem := halfBand_subset dedicatedHost hubBand idx ((mem_halfBand hidx).mpr ⟨slot, hslot, rfl⟩)
  rw [Finset.mem_Ico] at hmem
  obtain ⟨hpos, hlt⟩ := bandStart_lt hidx
  rw [maxPort_eq]
  omega

/-! ## What an allocation does -/

@[simp] theorem setCursor_inflightPorts (a : PortAllocator) (req : PortRequest) (n : ℕ) :
    (a.setCursor req n).inflightPorts = a.inflightPorts := by
  unfold setCursor
  split <;> rfl

theorem allocate_cases (dedicatedHost : Bool) (epoch : ℕ) (req : PortRequest) (probe : PortProbe)
    (used : Endpoint → Finset ℕ) (a : PortAllocator) :
    (∃ a', allocate dedicatedHost epoch req probe used a = (none, used, a') ∧
      a'.inflightPorts = a.inflightPorts) ∨
    ∃ port a', allocate dedicatedHost epoch req probe used a =
        (some port, update used req.proxyKey (insert port (used req.proxyKey)), a') ∧
      port ∉ a.inflightPorts req.proxyKey ∧ a'.inflightPorts = (a.reserve req.proxyKey port).inflightPorts := by
  unfold allocate
  split
  · exact .inl ⟨a, rfl, rfl⟩
  · simp only
    split
    · exact .inl ⟨_, rfl, rfl⟩
    · next i cooldown hsearch =>
      refine .inr ⟨_, _, rfl, ?_, ?_⟩
      · have hi := search_some (congrArg Prod.fst hsearch)
        exact hi.2.inflight
      · rw [setCursor_inflightPorts]
        rfl

section
variable {dedicatedHost : Bool} {epoch : ℕ} {req : PortRequest} {probe : PortProbe}
  {used : Endpoint → Finset ℕ} {a : PortAllocator}

theorem allocate_some (h : (allocate dedicatedHost epoch req probe used a).1 = some port) :
    ∃ idx ∈ pipelineProxyIndex dedicatedHost req.proxyKey.port,
      ∃ slot < half dedicatedHost, portAt dedicatedHost req.hubBand idx slot = port ∧
        Taken probe (a.inflightPorts req.proxyKey) (used req.proxyKey) (maxPort dedicatedHost idx)
          (a.portCooldownUntil req.proxyKey) port := by
  unfold allocate at h
  split at h
  · cases h
  next idx hidx =>
  simp only at h
  split at h
  · cases h
  · next i cooldown hsearch =>
    cases h
    exact ⟨idx, hidx, _, a.slotInHalf_lt dedicatedHost epoch req i, rfl,
      (search_some (congrArg Prod.fst hsearch)).2⟩

theorem allocate_none (h : (allocate dedicatedHost epoch req probe used a).1 = none)
    (hidx : idx ∈ pipelineProxyIndex dedicatedHost req.proxyKey.port)
    (hslot : slot < half dedicatedHost) :
    ¬Taken probe (a.inflightPorts req.proxyKey) (used req.proxyKey) (maxPort dedicatedHost idx)
      (a.portCooldownUntil req.proxyKey) (portAt dedicatedHost req.hubBand idx slot) := by
  unfold allocate at h
  rw [hidx] at h
  simp only at h
  split at h
  · next cooldown hsearch =>
    obtain ⟨i, hi, rfl⟩ := a.exists_slotInHalf dedicatedHost epoch req hslot
    exact search_none (congrArg Prod.fst hsearch) (mem_range.mpr hi)
  · cases h

end

theorem allocate_isSome_iff (dedicatedHost : Bool) (epoch : ℕ) (probe : PortProbe)
    {req : PortRequest} {used : Endpoint → Finset ℕ}
    (hused : used req.proxyKey ⊆ a.inflightPorts req.proxyKey) :
    (allocate dedicatedHost epoch req probe used a).1.isSome ↔ FreePort dedicatedHost probe a req := by
  constructor
  · intro h
    obtain ⟨port, hport⟩ := isSome_iff_exists.mp h
    obtain ⟨idx, hidx, slot, hslot, rfl, htaken⟩ := allocate_some hport
    exact ⟨idx, hidx, slot, hslot, htaken.inflight, htaken.cooled, htaken.bindable⟩
  · rintro ⟨idx, hidx, slot, hslot, hfree, hcool, hbind⟩
    by_contra hnone
    rw [Bool.not_eq_true, isSome_eq_false_iff, isNone_iff_eq_none] at hnone
    have hrange := portAt_range req.hubBand hidx hslot
    exact allocate_none hnone hidx hslot
      ⟨hrange.1, hrange.2.1, hrange.2.2, hfree, hcool, hbind, fun hu => hfree (hused hu)⟩

/-! ## What a release does -/

theorem mem_releasePort {until_ : ℕ} {p q : Endpoint × ℕ} :
    q.2 ∈ (releasePort false until_ a p).inflightPorts q.1 ↔ q.2 ∈ a.inflightPorts q.1 ∧ q ≠ p := by
  show q.2 ∈ update a.inflightPorts p.1 ((a.inflightPorts p.1).erase p.2) q.1 ↔ _
  by_cases hk : q.1 = p.1
  · rw [hk, update_self, Finset.mem_erase, and_comm]
    refine and_congr_right fun _ => not_congr ?_
    exact ⟨fun h => Prod.ext hk h, fun h => congrArg Prod.snd h⟩
  · rw [update_of_ne hk]
    exact (and_iff_left fun h => hk (congrArg Prod.fst h)).symm

theorem mem_foldl_releasePort {until_ : ℕ} {ps : List (Endpoint × ℕ)} {q : Endpoint × ℕ} :
    q.2 ∈ (ps.foldl (releasePort false until_) a).inflightPorts q.1 ↔
      q.2 ∈ a.inflightPorts q.1 ∧ q ∉ ps := by
  induction ps generalizing a with
  | nil => simp
  | cons p ps ih => rw [foldl_cons, ih, mem_releasePort, mem_cons, not_or, and_assoc]

end PortAllocator

end Mlrc
