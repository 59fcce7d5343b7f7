import Mlrc.Pipeline.PortSessions

/-!
# The port allocator over whole runs

Any number of sessions allocate and release ports in any order.  The ledger keeps, beside the state of
the allocator, which session has reserved which port; the allocator itself does not know.

* `PortLedger`, `portOpStep`   the allocator under a list of calls;
* `PortLedger.Ok`   no port is reserved twice at a proxy, and what is reserved is in flight;
* `AllocationSound`   what a call of `allocate` may return;
* `port_allocation_safe`   every run keeps the ledger in order and every call is sound.

A session releases only ports that it has reserved and not yet released.
-/

namespace Mlrc

open PortAllocator List

/-! ## Calls -/

structure Reservation where
  session : ℕ
  proxyKey : Endpoint
  port : ℕ
deriving DecidableEq

structure PortLedger where
  alloc : PortAllocator
  /-- `used_ports_` of every session -/
  usedPorts : ℕ → Endpoint → Finset ℕ
  reservations : List Reservation

/-- the allocator of a coordinator that has just started -/
def PortLedger.init : PortLedger where
  alloc := ⟨fun _ => ∅, fun _ => 0, fun _ => 0, fun _ _ => none⟩
  usedPorts _ _ := ∅
  reservations := []

inductive PortOp where
  | allocate (session exchangeEpoch : ℕ) (req : PortRequest) (probe : PortProbe)
  | release (session now : ℕ) (chainPorts : ℕ → Option GlrcPipelineChainPorts) (plan : GlrcPipelinePlan)

/-- one call; a release of ports that the session does not hold is not possible -/
def portOpStep (dedicatedHost : Bool) : PortOp → PortLedger → Option PortLedger
  | .allocate session exchangeEpoch req probe, s =>
    let (port, usedPorts, alloc) :=
      s.alloc.allocate dedicatedHost exchangeEpoch req probe (s.usedPorts session)
    some {
      alloc
      usedPorts := Function.update s.usedPorts session usedPorts
      reservations := (port.map (⟨session, req.proxyKey, ·⟩)).toList ++ s.reservations }
  | .release session now chainPorts plan, s =>
    let ports := tablePorts chainPorts plan.sinkChains
    if ∀ p ∈ ports, ⟨session, p.1, p.2⟩ ∈ s.reservations then
      some { s with
        alloc := s.alloc.releaseInflightPorts dedicatedHost now chainPorts plan
        reservations := s.reservations.filter fun r =>
          ¬(r.session = session ∧ (r.proxyKey, r.port) ∈ ports) }
    else none

/-! ## The ledger -/

namespace PortLedger

structure Ok (s : PortLedger) : Prop where
  unique : (s.reservations.map fun r => (r.proxyKey, r.port)).Nodup
  inflight : ∀ r ∈ s.reservations, r.port ∈ s.alloc.inflightPorts r.proxyKey

theorem Ok.init : Ok init where
  unique := nodup_nil
  inflight _ h := by cases h

end PortLedger

theorem mem_reserve {a : PortAllocator} {key key' : Endpoint} {port port' : ℕ} :
    port' ∈ (a.reserve key port).inflightPorts key' ↔
      port' ∈ a.inflightPorts key' ∨ (key' = key ∧ port' = port) := by
  show port' ∈ Function.update a.inflightPorts key (insert port (a.inflightPorts key)) key' ↔ _
  by_cases hkey : key' = key
  · subst hkey
    rw [Function.update_self, Finset.mem_insert, or_comm]
    exact or_congr_right (and_iff_right rfl).symm
  · rw [Function.update_of_ne hkey]
    exact (or_iff_left fun h => hkey h.1).symm

theorem releaseInflightPorts_dedicated (now : ℕ) (chainPorts : ℕ → Option GlrcPipelineChainPorts)
    (plan : GlrcPipelinePlan) (a : PortAllocator) :
    a.releaseInflightPorts true now chainPorts plan = a := by
  unfold releaseInflightPorts
  induction tablePorts chainPorts plan.sinkChains with
  | nil => rfl
  | cons p ps ih => exact ih

theorem mem_releaseInflightPorts {dedicatedHost : Bool} {now : ℕ}
    {chainPorts : ℕ → Option GlrcPipelineChainPorts} {plan : GlrcPipelinePlan} {a : PortAllocator}
    {key : Endpoint} {port : ℕ} (hmem : port ∈ a.inflightPorts key)
    (hother : (key, port) ∉ tablePorts chainPorts plan.sinkChains) :
    port ∈ (a.releaseInflightPorts dedicatedHost now chainPorts plan).inflightPorts key := by
  cases dedicatedHost with
  | true =>
    rw [releaseInflightPorts_dedicated]
    exact hmem
  | false => exact mem_foldl_releasePort (q := (key, port)).mpr ⟨hmem, hother⟩

section
variable {dedicatedHost : Bool} {s s' : PortLedger}

theorem PortLedger.Ok.allocate {session epoch : ℕ} {req : PortRequest} {probe : PortProbe} (hok : s.Ok)
    (h : portOpStep dedicatedHost (.allocate session epoch req probe) s = some s') : s'.Ok := by
  rcases allocate_cases dedicatedHost epoch req probe (s.usedPorts session) s.alloc with
    ⟨a', hcall, hsame⟩ | ⟨port, a', hcall, hfree, hnew⟩
  · simp only [portOpStep, hcall] at h
    cases h
    exact ⟨hok.unique, fun r hr => by rw [hsame]; exact hok.inflight r hr⟩
  · simp only [portOpStep, hcall] at h
    cases h
    constructor
    · refine nodup_cons.mpr ⟨?_, hok.unique⟩
      intro hmem
      obtain ⟨r, hr, heq⟩ := mem_map.mp hmem
      obtain ⟨hkey, hport⟩ : r.proxyKey = req.proxyKey ∧ r.port = port := Prod.mk.inj heq
      apply hfree
      rw [← hkey, ← hport]
      exact hok.inflight r hr
    · intro r hr
      rw [hnew, mem_reserve]
      rcases mem_cons.mp hr with rfl | hr
      · exact .inr ⟨rfl, rfl⟩
      · exact .inl (hok.inflight r hr)

theorem PortLedger.Ok.release {session now : ℕ} {chainPorts : ℕ → Option GlrcPipelineChainPorts}
    {plan : GlrcPipelinePlan} (hok : s.Ok)
    (h : portOpStep dedicatedHost (.release session now chainPorts plan) s = some s') : s'.Ok := by
  simp only [portOpStep] at h
  split at h
  · next hown =>
    cases h
    constructor
    · exact hok.unique.sublist (filter_sublist.map _)
    · intro r hr
      obtain ⟨hr, hkept⟩ := mem_filter.mp hr
      rw [decide_eq_true_eq] at hkept
      apply mem_releaseInflightPorts (hok.inflight r hr)
      -- a port in the table is the session's, and no other reservation has it
      intro htable
      have hsame := inj_on_of_nodup_map hok.unique hr (hown _ htable) rfl
      exact hkept ⟨congrArg Reservation.session hsame, htable⟩
  · cases h

theorem PortLedger.Ok.step (op : PortOp) (s s' : PortLedger) (hok : s.Ok)
    (h : portOpStep dedicatedHost op s = some s') : s'.Ok := by
  cases op with
  | allocate session epoch req probe => exact hok.allocate h
  | release session now chainPorts plan => exact hok.release h

end

/-! ## A call -/

/-- what a call of `allocate` may return -/
structure AllocationSound (dedicatedHost : Bool) (s : PortLedger) (session epoch : ℕ)
    (req : PortRequest) (probe : PortProbe) : Prop where
  /-- a port of the proxy's own band, in the half that was asked for, that nobody has reserved -/
  found : ∀ port, (s.alloc.allocate dedicatedHost epoch req probe (s.usedPorts session)).1 = some port →
    ∃ idx ∈ PortAllocator.pipelineProxyIndex dedicatedHost req.proxyKey.port,
      port ∈ halfBand dedicatedHost req.hubBand idx ∧
      ∀ r ∈ s.reservations, r.proxyKey = req.proxyKey → r.port ≠ port
  /-- nothing, if no port of this half can be had -/
  exhausted : (s.alloc.allocate dedicatedHost epoch req probe (s.usedPorts session)).1 = none →
    ∀ idx ∈ PortAllocator.pipelineProxyIndex dedicatedHost req.proxyKey.port,
      ∀ port ∈ halfBand dedicatedHost req.hubBand idx,
        port ∈ s.alloc.inflightPorts req.proxyKey ∨
        ¬Cooled probe (s.alloc.portCooldownUntil req.proxyKey) port ∨
        probe.bindable port = false ∨ port ∈ s.usedPorts session req.proxyKey

theorem PortLedger.Ok.sound {s : PortLedger} (hok : s.Ok) (dedicatedHost : Bool) (session epoch : ℕ)
    (req : PortRequest) (probe : PortProbe) :
    AllocationSound dedicatedHost s session epoch req probe where
  found port h := by
    obtain ⟨idx, hidx, slot, hslot, hport, htaken⟩ := allocate_some h
    refine ⟨idx, hidx, (mem_halfBand hidx).mpr ⟨slot, hslot, hport⟩, ?_⟩
    rintro r hr hkey rfl
    apply htaken.inflight
    rw [← hkey]
    exact hok.inflight r hr
  exhausted h idx hidx port hport := by
    obtain ⟨slot, hslot, rfl⟩ := (mem_halfBand hidx).mp hport
    obtain ⟨hpos, hmax, htop⟩ := portAt_range req.hubBand hidx hslot
    by_contra hfree
    simp only [not_or, not_not, Bool.not_eq_false] at hfree
    obtain ⟨hinflight, hcooled, hbindable, hunused⟩ := hfree
    exact allocate_none h hidx hslot ⟨hpos, hmax, htop, hinflight, hcooled, hbindable, hunused⟩

/-! ## Bands of different proxies -/

theorem bandStart_mono {dedicatedHost : Bool} {i j : ℕ} (h : i ≤ j) :
    bandStart dedicatedHost i ≤ bandStart dedicatedHost j := by
  unfold bandStart
  gcongr

/-- how the ports are divided among the proxies -/
structure BandsApart (dedicatedHost : Bool) : Prop where
  halves : ∀ idx, halfBand dedicatedHost false idx ∪ halfBand dedicatedHost true idx =
    Finset.Ico (bandStart dedicatedHost idx) (bandStart dedicatedHost (idx + 1))
  lower_upper : ∀ idx, ∀ hop ∈ halfBand dedicatedHost false idx,
    ∀ hub ∈ halfBand dedicatedHost true idx, hop < hub
  apart : ∀ i j, i ≠ j →
    Disjoint (Finset.Ico (bandStart dedicatedHost i) (bandStart dedicatedHost (i + 1)))
      (Finset.Ico (bandStart dedicatedHost j) (bandStart dedicatedHost (j + 1)))

theorem bandsApart (dedicatedHost : Bool) : BandsApart dedicatedHost where
  halves idx := by
    rw [bandStart_succ, band_eq, ← add_assoc]
    exact Finset.Ico_union_Ico_eq_Ico le_self_add le_self_add
  lower_upper idx hop hhop hub hhub := by
    rw [halfBand, Finset.mem_Ico] at hhop hhub
    simp only [Bool.false_eq_true, if_false, if_true] at hhop hhub
    omega
  apart i j hij := by
    have hbelow : ∀ i j, i < j → ∀ port, port < bandStart dedicatedHost (i + 1) →
        port < bandStart dedicatedHost j :=
      fun i j hlt port hport => hport.trans_le (bandStart_mono (Nat.succ_le_of_lt hlt))
    rw [Finset.disjoint_left]
    intro port hi hj
    rw [Finset.mem_Ico] at hi hj
    rcases lt_or_gt_of_ne hij with hlt | hlt
    · exact not_lt.mpr hj.1 (hbelow i j hlt port hi.2)
    · exact not_lt.mpr hi.1 (hbelow j i hlt port hj.2)

/-- **Main result.** Whatever calls have been made, no port is in flight for two reservations at one
proxy; the next call returns a fresh port of the right half of the proxy's own band, and none only if
every port of that half is taken, cooling down, unbindable or was used by the session before. -/
theorem port_allocation_safe (dedicatedHost : Bool) {ops : List PortOp} {s : PortLedger}
    (h : run (portOpStep dedicatedHost) ops .init = some s) :
    s.Ok ∧ (∀ session epoch req probe, AllocationSound dedicatedHost s session epoch req probe) ∧
      BandsApart dedicatedHost := by
  have hok : s.Ok := run_invariant PortLedger.Ok.step PortLedger.Ok.init h
  exact ⟨hok, hok.sound dedicatedHost, bandsApart dedicatedHost⟩

/-- two sessions ask one proxy for a hop port, then the first one for a hub port -/
def twoSessions : List PortOp :=
  let key : Endpoint := ⟨"h", 50405⟩
  let probe : PortProbe := ⟨0, fun _ => true⟩
  [.allocate 0 1 ⟨key, false, 0, 0⟩ probe, .allocate 1 0 ⟨key, false, 1, 1⟩ probe,
    .allocate 0 1 ⟨key, true, 0, 0⟩ probe]

theorem port_allocation_two_sessions :
    ∃ s, run (portOpStep false) twoSessions .init = some s ∧
      s.reservations.map Reservation.port = [20106, 20029, 20031] ∧
      s.Ok ∧ (∀ session epoch req probe, AllocationSound false s session epoch req probe) ∧
      BandsApart false := by
  have hports : (run (portOpStep false) twoSessions .init).map
      (fun s => s.reservations.map Reservation.port) = some [20106, 20029, 20031] := by decide +kernel
  obtain ⟨s, hrun, hres⟩ := Option.map_eq_some_iff.mp hports
  exact ⟨s, hrun, hres, port_allocation_safe false hrun⟩

end Mlrc
