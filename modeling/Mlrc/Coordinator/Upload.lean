import Mlrc.Coordinator.Plans
import Mlrc.Data.Bytes

/-!
# Uploads at the coordinator

A set and a subset place a new stripe; an append continues the stripe of its client and places one
when it starts.  The proxies of all plans are scheduled before the reply.

* `uploadSetValue`, `uploadSubsetValue`, `uploadAppendValue`   the three requests;
* `MetadataUnchanged`   the four tables a failed request should leave alone;
* `failed_upload_keeps_metadata_iff`  when it does.
-/

namespace Mlrc

open List Option

variable {stripe : Stripe} {size : ℕ} {clientId : String} {entry : StripeOffset} {draws : List ℕ}
  {reply : UploadReply}

inductive StatusCode where
  | OK
  | UNAVAILABLE
  | INVALID_ARGUMENT
deriving DecidableEq, Repr

/-- `ReplyProxyIPsPorts`; a proxy is named by its cluster -/
structure UploadReply where
  status : StatusCode
  appendKeys : List String := []
  proxies : List ℕ := []
  clusterSliceSizes : List ℕ := []
  sumAppendSize : ℕ := 0
deriving DecidableEq, Repr

/-- `notify_proxies_ready`: the key is pending while the proxy is asked, and is dropped again when
the proxy does not accept the plan -/
def notifyProxiesReady (s : Coordinator) (plan : AppendStripeDataPlacement) (ok : Bool) :
    Coordinator :=
  let pending := Function.update s.objectUpdatingTable plan.key
    (some { objectSize := plan.appendSize, map2stripe := plan.stripeId })
  { s with objectUpdatingTable := if ok then pending else Function.update pending plan.key none }

/-- the plans are no longer committed, then every proxy is asked; `ready i` is the answer for plan
`i` -/
def schedulePlans (s : Coordinator) (plans : List AppendStripeDataPlacement) (ready : ℕ → Bool) :
    Coordinator × UploadReply :=
  let s := plans.foldl (fun s plan =>
    { s with objectCommitTable := Function.update s.objectCommitTable plan.key none }) s
  let s := plans.zipIdx.foldl (fun s p => notifyProxiesReady s p.1 (ready p.2)) s
  let reply : UploadReply := {
    status := .OK
    appendKeys := plans.map (·.key)
    proxies := plans.map (·.clusterId)
    clusterSliceSizes := plans.map (·.appendSize) }
  if (range plans.length).any (fun i => !ready i) then
    (s, { reply with status := .UNAVAILABLE })
  else (s, { reply with sumAppendSize := (plans.map (·.appendSize)).sum })

/-- the end of a set: the stripe enters the stripe table when all proxies are ready -/
def finishSet (stripe : Stripe) (scheduled : Coordinator × UploadReply) :
    Coordinator × UploadReply :=
  match scheduled.2.status with
  | .OK => ({ scheduled.1 with
      stripeTable := Function.update scheduled.1.stripeTable stripe.stripeId (some stripe) }, scheduled.2)
  | _ => scheduled

/-- what `uploadSetValue` and `uploadSubsetValue` share -/
def uploadNewStripe (cfg : SysConfig) (topo : Topology) (s : Coordinator) (clientId : String)
    (plansOf : Stripe → Option (List AppendStripeDataPlacement)) (draws : List ℕ)
    (ready : ℕ → Bool) : Option (Coordinator × UploadReply) := do
  let stripeId := s.curStripeId
  let s := { s with curStripeId := stripeId + 1 }
  let (s, stripe, _) ← initializeStripePlacement cfg topo s stripeId clientId draws
  let plans ← plansOf stripe
  some (finishSet stripe (schedulePlans s plans ready))

/-- `uploadSetValue`; `none` is a failed assertion or a loop that does not end -/
def uploadSetValue (cfg : SysConfig) (topo : Topology) (s : Coordinator) (clientId : String)
    (setSizeBytes : ℕ) (draws : List ℕ) (ready : ℕ → Bool) : Option (Coordinator × UploadReply) :=
  if setSizeBytes = cfg.blockSize * cfg.k then
    uploadNewStripe cfg topo s clientId (generateAddPlans cfg) draws ready
  else none

def uploadSubsetValue (cfg : SysConfig) (topo : Topology) (s : Coordinator) (clientId : String)
    (setSizeBytes : ℕ) (draws : List ℕ) (ready : ℕ → Bool) : Option (Coordinator × UploadReply) :=
  if setSizeBytes ≤ cfg.blockSize * cfg.k then
    uploadNewStripe cfg topo s clientId (fun stripe => generateSubAddPlans cfg stripe setSizeBytes)
      draws ready
  else none

/-- the offset entry of a client, created by its first append -/
def offsetEntry (s : Coordinator) (clientId : String) : Coordinator × StripeOffset :=
  match s.curOffsetTable clientId with
  | some entry => (s, entry)
  | none =>
    let entry : StripeOffset := { stripeId := s.curStripeId, offset := 0 }
    ({ s with
        curStripeId := s.curStripeId + 1
        curOffsetTable := Function.update s.curOffsetTable clientId (some entry) }, entry)

/-- the stripe of an append: placed when nothing has been appended yet -/
def appendStripe (cfg : SysConfig) (topo : Topology) (s : Coordinator) (clientId : String)
    (entry : StripeOffset) (draws : List ℕ) : Option (Coordinator × Stripe) :=
  if entry.offset = 0 then do
    let (s, stripe, _) ←
      initializeUnilrcAndAzurelrcStripePlacement cfg topo s entry.stripeId clientId draws
    some ({ s with stripeTable := Function.update s.stripeTable entry.stripeId (some stripe) }, stripe)
  else (s.stripeTable entry.stripeId).map fun stripe => (s, stripe)

/-- the end of an append: the offset moves on, a full stripe is closed; the sum in the reply has been
added up in an `int`, and the size of a stripe is an `unsigned int` -/
def finishAppend (cfg : SysConfig) (clientId : String) (entry : StripeOffset) (appendSizeBytes : ℕ)
    (scheduled : Coordinator × UploadReply) : Coordinator × UploadReply :=
  match scheduled.2.status with
  | .OK =>
    let offset := entry.offset + appendSizeBytes
    let next := if offset = cfg.blockSize * cfg.k % 2 ^ 32 then none
      else some { entry with offset := offset }
    ({ scheduled.1 with curOffsetTable := Function.update scheduled.1.curOffsetTable clientId next },
      { scheduled.2 with sumAppendSize := narrowed scheduled.2.sumAppendSize })
  | _ => scheduled

/-- `uploadAppendValue`; `appendSizeBytes` is the `int` made from the size in the request -/
def uploadAppendValue (cfg : SysConfig) (topo : Topology) (s : Coordinator) (clientId : String)
    (appendSizeBytes : ℕ) (draws : List ℕ) (ready : ℕ → Bool) :
    Option (Coordinator × UploadReply) :=
  let (s, entry) := offsetEntry s clientId
  if cfg.blockSize * cfg.k % 2 ^ 32 < entry.offset + appendSizeBytes then none
  else do
    let (s, stripe) ← appendStripe cfg topo s clientId entry draws
    let plans ← generateAppendPlan cfg stripe entry.offset appendSizeBytes
    if plans = [] then some (s, { status := .INVALID_ARGUMENT })
    else some (finishAppend cfg clientId entry appendSizeBytes (schedulePlans s plans ready))

inductive Upload where
  | set (clientId : String) (sizeBytes : ℕ)
  | subset (clientId : String) (sizeBytes : ℕ)
  | append (clientId : String) (sizeBytes : ℕ)
deriving DecidableEq, Repr

def upload (cfg : SysConfig) (topo : Topology) (s : Coordinator) (request : Upload)
    (draws : List ℕ) (ready : ℕ → Bool) : Option (Coordinator × UploadReply) :=
  match request with
  | .set clientId sizeBytes => uploadSetValue cfg topo s clientId sizeBytes draws ready
  | .subset clientId sizeBytes => uploadSubsetValue cfg topo s clientId sizeBytes draws ready
  | .append clientId sizeBytes => uploadAppendValue cfg topo s clientId sizeBytes draws ready

/-! ## What a failed request leaves behind -/

/-- the tables that a request which failed should not have changed -/
structure MetadataUnchanged (s s' : Coordinator) : Prop where
  stripe : s'.stripeTable = s.stripeTable
  offset : s'.curOffsetTable = s.curOffsetTable
  cluster : s'.clusterTable = s.clusterTable
  node : s'.nodeTable = s.nodeTable

theorem foldl_rest {α : Type*} {f : Coordinator → α → Coordinator}
    (hf : ∀ t a, ∃ commit updating, f t a =
      { t with objectCommitTable := commit, objectUpdatingTable := updating })
    (l : List α) (t : Coordinator) : ∃ commit updating, l.foldl f t =
      { t with objectCommitTable := commit, objectUpdatingTable := updating } := by
  induction l generalizing t with
  | nil => exact ⟨_, _, rfl⟩
  | cons a l ih =>
    obtain ⟨c, u, h⟩ := hf t a
    obtain ⟨c', u', h'⟩ := ih (f t a)
    exact ⟨c', u', by rw [foldl_cons, h', h]⟩

section
variable {cfg : SysConfig} {topo : Topology} {s s' : Coordinator}
  {plans : List AppendStripeDataPlacement} {ready : ℕ → Bool}

theorem schedulePlans_rest (s : Coordinator) (plans : List AppendStripeDataPlacement)
    (ready : ℕ → Bool) : ∃ commit updating, (schedulePlans s plans ready).1 =
      { s with objectCommitTable := commit, objectUpdatingTable := updating } := by
  obtain ⟨c, u, h⟩ := foldl_rest (fun t plan => ⟨_, _, rfl⟩) plans s (f := fun s plan =>
    { s with objectCommitTable := Function.update s.objectCommitTable plan.key none })
  obtain ⟨c', u', h'⟩ := foldl_rest (fun t p => ⟨_, _, rfl⟩) plans.zipIdx (plans.foldl (fun s plan =>
    { s with objectCommitTable := Function.update s.objectCommitTable plan.key none }) s)
    (f := fun s p => notifyProxiesReady s p.1 (ready p.2))
  refine ⟨c', u', ?_⟩
  unfold schedulePlans
  simp only
  split <;> rw [h', h]

theorem schedulePlans_metadata (s : Coordinator) (plans : List AppendStripeDataPlacement)
    (ready : ℕ → Bool) : MetadataUnchanged s (schedulePlans s plans ready).1 := by
  obtain ⟨commit, updating, h⟩ := schedulePlans_rest s plans ready
  rw [h]
  exact ⟨rfl, rfl, rfl, rfl⟩

theorem schedulePlans_status (s : Coordinator) : (schedulePlans s plans ready).2.status =
      if (range plans.length).any (fun i => !ready i) then .UNAVAILABLE else .OK := by
  unfold schedulePlans
  simp only
  split <;> rfl

theorem plans_ne_nil_of_unavailable (h : (schedulePlans s plans ready).2.status = .UNAVAILABLE) :
    plans ≠ [] := by
  rintro rfl
  rw [schedulePlans_status] at h
  cases h

theorem Stripe.blocks_ne_nil_of_firstBlock {i : ℕ} {b : Block}
    (h : stripe.firstBlock i = some b) : stripe.blocks ≠ [] := by
  obtain ⟨j, -, hj⟩ := bind_eq_some_iff.mp h
  exact ne_nil_of_mem (mem_of_getElem? hj)

theorem blocks_ne_nil_of_blockPlan {i appendSize : ℕ} {ids : List ℕ}
    {plan : AppendStripeDataPlacement} (h : blockPlan size appendSize stripe i ids = some plan) :
    stripe.blocks ≠ [] := by
  obtain ⟨first, hfirst, -⟩ := bind_eq_some_iff.mp h
  exact Stripe.blocks_ne_nil_of_firstBlock hfirst

theorem blocks_ne_nil_of_mapM {f : ℕ → Option AppendStripeDataPlacement}
    {groups : List ℕ} (hf : ∀ i plan, f i = some plan → stripe.blocks ≠ [])
    (h : groups.mapM f = some plans) (hne : plans ≠ []) : stripe.blocks ≠ [] := by
  obtain ⟨plan, hplan⟩ := exists_mem_of_ne_nil _ hne
  obtain ⟨i, -, hi⟩ := forall₂_mem_right (mapM_option_some h) hplan
  exact hf i plan hi

theorem blocks_ne_nil_of_addPlans (h : generateAddPlans cfg stripe = some plans)
    (hne : plans ≠ []) : stripe.blocks ≠ [] :=
  blocks_ne_nil_of_mapM (fun _ _ => blocks_ne_nil_of_blockPlan) h hne

theorem blocks_ne_nil_of_subAddPlans
    (h : generateSubAddPlans cfg stripe size = some plans) (hne : plans ≠ []) :
    stripe.blocks ≠ [] := by
  unfold generateSubAddPlans at h
  simp only [ite_none_left_eq_some] at h
  exact blocks_ne_nil_of_mapM (fun _ _ => blocks_ne_nil_of_blockPlan) h.2 hne

theorem blocks_ne_nil_of_appendPlan {offset : ℕ}
    (h : generateAppendPlan cfg stripe offset size = some plans) (hne : plans ≠ []) :
    stripe.blocks ≠ [] := by
  unfold generateAppendPlan at h
  rw [ite_none_left_eq_some] at h
  cases hp : paritySlice cfg.appendMode cfg.unitSize cfg.k offset size with
  | none =>
    rw [hp] at h
    exact absurd (some.inj h.2).symm hne
  | some parity =>
    rw [hp] at h
    refine blocks_ne_nil_of_mapM (fun i plan hi => ?_) h.2 hne
    obtain ⟨first, hfirst, -⟩ := bind_eq_some_iff.mp hi
    exact Stripe.blocks_ne_nil_of_firstBlock hfirst

theorem Placed.clusterTable_ne {group : ℕ → ℤ} {stripeId : ℕ} {key : String} {bs : List Block}
    (h : Placed cfg topo group s stripeId key bs s' stripe) (hne : stripe.blocks ≠ []) :
    s'.clusterTable ≠ s.clusterTable := by
  obtain ⟨b, hb⟩ := exists_mem_of_ne_nil _ hne
  rw [h.blocks_perm.mem_iff] at hb
  intro heq
  have hblocks := Coordinator.recordAll_blocks s bs b.map2cluster
  rw [← h.state, heq, self_eq_append_right, filter_eq_nil_iff] at hblocks
  exact hblocks b hb (decide_eq_true rfl)

theorem finishSet_unavailable {scheduled : Coordinator × UploadReply}
    (h : (finishSet stripe scheduled).2.status = .UNAVAILABLE) :
    scheduled.2.status = .UNAVAILABLE ∧ finishSet stripe scheduled = scheduled := by
  unfold finishSet at h ⊢
  cases hs : scheduled.2.status with
  | OK =>
    simp only [hs] at h
    cases h
  | UNAVAILABLE => exact ⟨rfl, rfl⟩
  | INVALID_ARGUMENT =>
    simp only [hs] at h
    cases h

theorem finishAppend_unavailable {scheduled : Coordinator × UploadReply}
    (h : (finishAppend cfg clientId entry size scheduled).2.status = .UNAVAILABLE) :
    scheduled.2.status = .UNAVAILABLE ∧
      finishAppend cfg clientId entry size scheduled = scheduled := by
  unfold finishAppend at h ⊢
  cases hs : scheduled.2.status with
  | OK =>
    simp only [hs] at h
    cases h
  | UNAVAILABLE => exact ⟨rfl, rfl⟩
  | INVALID_ARGUMENT =>
    simp only [hs] at h
    cases h

theorem uploadNewStripe_changes {plansOf : Stripe → Option (List AppendStripeDataPlacement)}
    (hplans : ∀ stripe plans, plansOf stripe = some plans → plans ≠ [] → stripe.blocks ≠ [])
    (h : uploadNewStripe cfg topo s clientId plansOf draws ready = some (s', reply))
    (hstatus : reply.status = .UNAVAILABLE) : s'.clusterTable ≠ s.clusterTable := by
  obtain ⟨⟨t, stripe, rest⟩, hplaced, h⟩ := bind_eq_some_iff.mp h
  obtain ⟨plans, hgen, h⟩ := bind_eq_some_iff.mp h
  rw [some.injEq] at h
  have hun : (finishSet stripe (schedulePlans t plans ready)).2.status = .UNAVAILABLE := by
    rw [h]
    exact hstatus
  obtain ⟨hsched, heq⟩ := finishSet_unavailable hun
  have hs' : s' = (schedulePlans t plans ready).1 := by rw [← heq, h]
  rw [hs', (schedulePlans_metadata t plans ready).cluster]
  obtain ⟨group, bs, -, hp⟩ := initializeStripePlacement_placed hplaced
  exact hp.clusterTable_ne (hplans stripe plans hgen (plans_ne_nil_of_unavailable hsched))

theorem uploadAppendValue_unavailable
    (h : uploadAppendValue cfg topo s clientId size draws ready = some (s', reply))
    (hstatus : reply.status = .UNAVAILABLE) :
    ∃ t stripe, appendStripe cfg topo (offsetEntry s clientId).1 clientId
        (offsetEntry s clientId).2 draws = some (t, stripe) ∧
      stripe.blocks ≠ [] ∧ MetadataUnchanged t s' := by
  unfold uploadAppendValue at h
  simp only [ite_none_left_eq_some] at h
  obtain ⟨⟨t, stripe⟩, hstripe, h⟩ := bind_eq_some_iff.mp h.2
  obtain ⟨plans, hgen, h⟩ := bind_eq_some_iff.mp h
  by_cases hnil : plans = []
  · rw [if_pos hnil, some.injEq, Prod.mk.injEq] at h
    rw [← h.2] at hstatus
    cases hstatus
  · rw [if_neg hnil, some.injEq] at h
    have hun : (finishAppend cfg clientId (offsetEntry s clientId).2 size
        (schedulePlans t plans ready)).2.status = .UNAVAILABLE := by
      rw [h]
      exact hstatus
    have hs' : s' = (schedulePlans t plans ready).1 := by
      rw [← (finishAppend_unavailable hun).2, h]
    refine ⟨t, stripe, hstripe, blocks_ne_nil_of_appendPlan hgen hnil, ?_⟩
    rw [hs']
    exact schedulePlans_metadata t plans ready

theorem appendStripe_offset {t : Coordinator}
    (h : appendStripe cfg topo s clientId entry draws = some (t, stripe)) :
    t.curOffsetTable = s.curOffsetTable := by
  unfold appendStripe at h
  split at h
  · obtain ⟨⟨u, stripe', rest⟩, hplaced, h⟩ := bind_eq_some_iff.mp h
    simp only [some.injEq, Prod.mk.injEq] at h
    obtain ⟨group, bs, -, hp⟩ := initializeUnilrcAndAzurelrcStripePlacement_placed hplaced
    rw [← h.1]
    show u.curOffsetTable = _
    rw [hp.state, Coordinator.recordAll_rest]
  · obtain ⟨stripe', -, h⟩ := map_eq_some_iff.mp h
    rw [Prod.mk.injEq] at h
    rw [h.1]

theorem appendStripe_changes {t : Coordinator} (hoff : entry.offset = 0)
    (h : appendStripe cfg topo s clientId entry draws = some (t, stripe))
    (hne : stripe.blocks ≠ []) : t.clusterTable ≠ s.clusterTable := by
  unfold appendStripe at h
  rw [if_pos hoff] at h
  obtain ⟨⟨u, stripe', rest⟩, hplaced, h⟩ := bind_eq_some_iff.mp h
  simp only [some.injEq, Prod.mk.injEq] at h
  obtain ⟨group, bs, -, hp⟩ := initializeUnilrcAndAzurelrcStripePlacement_placed hplaced
  rw [← h.1]
  refine hp.clusterTable_ne ?_
  rw [h.2]
  exact hne

end

/-! ## What a set that succeeds has done -/

def readyReply (plans : List AppendStripeDataPlacement) : UploadReply where
  status := .OK
  appendKeys := plans.map (·.key)
  proxies := plans.map (·.clusterId)
  clusterSliceSizes := plans.map (·.appendSize)
  sumAppendSize := (plans.map (·.appendSize)).sum

/-- a new stripe is placed, planned by `plansOf` and entered into the stripe table -/
structure StripeDone (cfg : SysConfig) (topo : Topology) (clientId : String)
    (plansOf : Stripe → Option (List AppendStripeDataPlacement)) (s s' : Coordinator)
    (reply : UploadReply) (group : ℕ → ℤ) (bs : List Block) (t : Coordinator) (stripe : Stripe)
    (plans : List AppendStripeDataPlacement) : Prop where
  group_eq : map2group cfg = some group
  placed : Placed cfg topo group { s with curStripeId := s.curStripeId + 1 } s.curStripeId clientId
    bs t stripe
  plans_eq : plansOf stripe = some plans
  reply_eq : reply = readyReply plans
  node : s'.nodeTable = t.nodeTable
  next : s'.curStripeId = s.curStripeId + 1
  table : s'.stripeTable = Function.update s.stripeTable s.curStripeId (some stripe)

section
variable {cfg : SysConfig} {topo : Topology} {s s' : Coordinator} {stripeId : ℕ} {ready : ℕ → Bool}

theorem Placed.placeable {group : ℕ → ℤ} {key : String} {bs : List Block}
    {plans : List AppendStripeDataPlacement} (h : Placed cfg topo group s stripeId key bs s' stripe)
    (hplans : generateAddPlans cfg stripe = some plans) : Placeable cfg group := by
  intro g hg hnil
  have hstripe := h.stripe_eq
  have hnum : stripe.numGroups = numGroups cfg group := by rw [hstripe]; rfl
  obtain ⟨plan, -, hplan⟩ := forall₂_mem_left (mapM_option_some hplans)
    (mem_range.mpr (by rwa [hnum]))
  obtain ⟨first, hfirst, -⟩ := bind_eq_some_iff.mp hplan
  unfold Stripe.firstBlock Stripe.group at hfirst
  have hgroups : stripe.groupToBlocks = groupToBlocks cfg.n group := by rw [hstripe]; rfl
  rw [hgroups, hnil] at hfirst
  cases hfirst

theorem schedulePlans_ok {plans : List AppendStripeDataPlacement}
    (h : (schedulePlans s plans ready).2.status = .OK) :
    (schedulePlans s plans ready).2 = readyReply plans := by
  rw [schedulePlans_status] at h
  unfold schedulePlans
  simp only
  split
  · rename_i hany
    rw [if_pos hany] at h
    cases h
  · rfl

theorem finishSet_ok (stripe : Stripe) (scheduled : Coordinator × UploadReply)
    (h : (finishSet stripe scheduled).2.status = .OK) :
    scheduled.2.status = .OK ∧ finishSet stripe scheduled = ({ scheduled.1 with
      stripeTable := Function.update scheduled.1.stripeTable stripe.stripeId (some stripe) },
      scheduled.2) := by
  unfold finishSet at h ⊢
  cases hs : scheduled.2.status with
  | OK => exact ⟨rfl, rfl⟩
  | UNAVAILABLE =>
    simp only [hs] at h
    cases h
  | INVALID_ARGUMENT =>
    simp only [hs] at h
    cases h

theorem uploadNewStripe_ok {plansOf : Stripe → Option (List AppendStripeDataPlacement)}
    (h : uploadNewStripe cfg topo s clientId plansOf draws ready = some (s', reply))
    (hok : reply.status = .OK) : ∃ group bs t stripe plans,
      StripeDone cfg topo clientId plansOf s s' reply group bs t stripe plans := by
  obtain ⟨⟨t, stripe, rest⟩, hplaced, h⟩ := bind_eq_some_iff.mp h
  obtain ⟨plans, hplans, h⟩ := bind_eq_some_iff.mp h
  rw [some.injEq] at h
  obtain ⟨group, bs, hg, hp⟩ := initializeStripePlacement_placed hplaced
  obtain ⟨commit, updating, hsched⟩ := schedulePlans_rest t plans ready
  have hrest := Coordinator.recordAll_rest { s with curStripeId := s.curStripeId + 1 } bs
  rw [← hp.state] at hrest
  have hid : stripe.stripeId = s.curStripeId := by rw [hp.stripe_eq]; rfl
  obtain ⟨hstatus, hfinish⟩ := finishSet_ok stripe (schedulePlans t plans ready)
    (by rw [h]; exact hok)
  rw [h, hsched, hid, schedulePlans_ok hstatus, Prod.mk.injEq] at hfinish
  obtain ⟨hs', hreply⟩ := hfinish
  refine ⟨group, bs, t, stripe, plans, hg, hp, hplans, hreply, ?_, ?_, ?_⟩
  · rw [hs']
  · rw [hs', hrest]
  · rw [hs', hrest]

theorem uploadSetValue_ok {sizeBytes : ℕ}
    (h : uploadSetValue cfg topo s clientId sizeBytes draws ready = some (s', reply))
    (hok : reply.status = .OK) : ∃ group bs t stripe plans,
      StripeDone cfg topo clientId (generateAddPlans cfg) s s' reply group bs t stripe plans := by
  unfold uploadSetValue at h
  rw [ite_none_right_eq_some] at h
  exact uploadNewStripe_ok h.2 hok

end

/-! ## Requests that keep the tables -/

/-- only an append to a stripe that already holds data changes no table before it schedules -/
def KeepsMetadata (s : Coordinator) : Upload → Prop
  | .set _ _ => False
  | .subset _ _ => False
  | .append clientId _ => ∃ entry, s.curOffsetTable clientId = some entry ∧ entry.offset ≠ 0

/-- **Main result.** A request that fails because a proxy could not be scheduled leaves the metadata
alone exactly when it appends to a stripe that already holds data. -/
theorem failed_upload_keeps_metadata_iff (cfg : SysConfig) (topo : Topology) (s s' : Coordinator)
    (request : Upload) (draws : List ℕ) (ready : ℕ → Bool) (reply : UploadReply)
    (h : upload cfg topo s request draws ready = some (s', reply))
    (hstatus : reply.status = .UNAVAILABLE) :
    MetadataUnchanged s s' ↔ KeepsMetadata s request := by
  cases request with
  | set clientId size =>
    unfold upload uploadSetValue at h
    simp only [ite_none_right_eq_some] at h
    refine iff_of_false (fun hm => ?_) id
    exact uploadNewStripe_changes (fun _ _ => blocks_ne_nil_of_addPlans) h.2 hstatus hm.cluster
  | subset clientId size =>
    unfold upload uploadSubsetValue at h
    simp only [ite_none_right_eq_some] at h
    refine iff_of_false (fun hm => ?_) id
    exact uploadNewStripe_changes (fun _ _ => blocks_ne_nil_of_subAddPlans) h.2 hstatus hm.cluster
  | append clientId size =>
    obtain ⟨t, stripe, hstripe, hne, hm⟩ := uploadAppendValue_unavailable h hstatus
    unfold offsetEntry at hstripe
    show _ ↔ ∃ entry, s.curOffsetTable clientId = some entry ∧ entry.offset ≠ 0
    cases hentry : s.curOffsetTable clientId with
    | none =>
      simp only [hentry] at hstripe
      refine iff_of_false (fun hun => ?_) (fun ⟨entry, h, _⟩ => by cases h)
      have hoff : s'.curOffsetTable clientId = some ⟨s.curStripeId, 0⟩ := by
        rw [hm.offset, appendStripe_offset hstripe]
        exact Function.update_self ..
      rw [hun.offset, hentry] at hoff
      cases hoff
    | some entry =>
      simp only [hentry] at hstripe
      by_cases hzero : entry.offset = 0
      · refine iff_of_false (fun hun => ?_) (fun ⟨e, h, hne⟩ => ?_)
        · refine appendStripe_changes hzero hstripe hne ?_
          rw [← hm.cluster, hun.cluster]
        · rw [some.injEq] at h
          exact hne (h ▸ hzero)
      · refine iff_of_true ?_ ⟨entry, rfl, hzero⟩
        unfold appendStripe at hstripe
        rw [if_neg hzero] at hstripe
        obtain ⟨stripe', -, h'⟩ := map_eq_some_iff.mp hstripe
        rw [Prod.mk.injEq] at h'
        rw [h'.1]
        exact hm

/-- UniLRC with `alpha = 1` and two groups, on three clusters of four nodes -/
def unilrcConfig : SysConfig where
  codeType := .UniLRC
  appendMode := .UNILRC_MODE
  k := 2
  r := 2
  z := 2
  unitSize := 1
  blockSize := 2
  clusterNum := 3
  datanodeNumPerCluster := 4

/-- the same stripe with blocks of 1.5 GiB -/
def wideConfig : SysConfig := { unilrcConfig with blockSize := 3 * 2 ^ 29 }

def clustersOfFour : Topology where
  nodeNum := 12
  nodeCluster := fun node => node / 4

/-- the tables after one byte of client `c` has been appended -/
def afterAppend : Coordinator :=
  ((uploadAppendValue unilrcConfig clustersOfFour {} "c" 1 [0, 0, 1, 1, 2, 2] fun _ => true).map
    Prod.fst).getD {}

theorem failed_append_keeps_metadata :
    ((upload unilrcConfig clustersOfFour afterAppend (.append "c" 1) [] fun _ => false).map
        fun p => p.2.status) = some .UNAVAILABLE ∧
      ∀ s' reply, upload unilrcConfig clustersOfFour afterAppend (.append "c" 1) []
        (fun _ => false) = some (s', reply) → MetadataUnchanged afterAppend s' := by
  refine (and_iff_left_of_imp fun hstatus s' reply h => ?_).mpr (by decide +kernel)
  rw [h] at hstatus
  exact (failed_upload_keeps_metadata_iff _ _ _ _ _ _ _ _ h (some.inj hstatus)).mpr
    ⟨⟨0, 1⟩, by decide +kernel, by decide⟩

/-- a set whose first proxy refuses: six blocks stay in the cluster lists and the node maps -/
theorem failed_set_changes_metadata :
    validateConfig unilrcConfig = true ∧
    ((upload unilrcConfig clustersOfFour {} (.set "c" 4) [0, 0, 1, 1, 2, 2] fun i => i ≠ 0).map
      fun p => (p.2.status, (p.1.clusterTable 0).blocks.map (·.blockId), (p.1.clusterTable 0).stripes,
        (p.1.nodeTable 0).stripes 0)) = some (.UNAVAILABLE, [0, 2, 4], {0}, some 0) ∧
    ∀ s' reply, upload unilrcConfig clustersOfFour {} (.set "c" 4) [0, 0, 1, 1, 2, 2]
      (fun i => i ≠ 0) = some (s', reply) → ¬ MetadataUnchanged {} s' := by
  refine ⟨by decide, (and_iff_left_of_imp fun hrun s' reply h hm => ?_).mpr (by decide +kernel)⟩
  rw [h, map_some, hm.node] at hrun
  simp at hrun

end Mlrc
