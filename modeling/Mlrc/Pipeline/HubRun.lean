import Mlrc.Data.Run
import Mlrc.Pipeline.HubDecode
import Mlrc.Pipeline.Window

/-!
# The threads of the hub

A listener for every chain, a reader of the hub's own block, decode workers and a writer for every
failed block share the buffers of the hub.  A shard is decoded when all chains have delivered it, in
whatever order, and every writer sends the shards of its block in order.

* `HubRun`   a call of `glrcIlpPipelineHubRecovery` and what reaches it;
* `hubRunStep`   all threads, in any interleaving;
* `HubInv`   whatever is kept for a shard is the right thing for that shard;
* `hub_sends_shards`   a call that returns true has sent every block, shard by shard.

A step is a lock section, a receive, a read, a decode or a write.  A thread may have looked at the
failure flag just before it was set, so no step but the last asks for it; and a thread may fail at any
time.
-/

namespace Mlrc

open List Option Function

/-- the right-hand side that a listener stores for a shard, from what its chain has delivered and the
hub's own shard -/
def HubListenCtx.fold (ctx : HubListenCtx) (payload hubShard : List UInt8) : List UInt8 :=
  if ctx.localOnly then glrcPipelineInitPartialRange hubShard ctx.hubCoef ctx.eqCodec
  else if ctx.needsTailLocal then
    glrcPipelineAccumulateRange payload hubShard ctx.hubCoef ctx.eqCodec
  else payload

/-- a call of `glrcIlpPipelineHubRecovery` that has found its inverse: chain `ci` delivers the shards
`arrivals ci`, in that order, and `payload ci t` is what it sends for shard `t` -/
structure HubRun where
  cfg : Config
  disk : Datanodes
  req : HubRequest
  hubDecodeInverse : Mat UInt8
  start : hubStart cfg req = .ok hubDecodeInverse
  arrivals : ℕ → List ℕ
  payload : ℕ → ℕ → List UInt8
  decodeWorkerCount : ℕ
  glrcPipelineWindow : ℤ

namespace HubRun
variable (r : HubRun)

def shardCount : ℕ := (r.req.view r.cfg).localCount
def stripeLen : ℕ := (r.req.view r.cfg).stripeLen
def hubChainN : ℕ := r.req.hubChainEqSlots.length
def f : ℕ := r.req.failedBlockIds.length

def hubShard (t : ℕ) : Option (List UInt8) :=
  (hubStream r.cfg r.disk r.req).bind fun stream => readDatanodeStreamShard stream t r.stripeLen

/-- the frames a listener may hold: one, or those of its queue, the one its reader wants to push and the
one its worker has popped and not stored yet -/
def capacity (ci : ℕ) : ℕ :=
  let hubPipeWindow := resolvePipelineWindow r.glrcPipelineWindow r.shardCount
  if hubPipeWindow ≤ 1 ∨ !(r.req.ctx ci).needsTailLocal then 1 else hubPipeWindow + 2

/-- the right-hand side of chain `ci` for shard `t` -/
def rhs (ci t : ℕ) : List UInt8 :=
  (r.req.ctx ci).fold (r.payload ci t) ((r.hubShard t).getD [])

def shardRhs (t : ℕ) : List (List UInt8) := (range r.hubChainN).map fun ci => r.rhs ci t

/-- row `i` of the inverse applied to the right-hand sides of shard `t` -/
def recovered (t i : ℕ) : List UInt8 :=
  decodedRow r.hubDecodeInverse (r.shardRhs t) r.f r.stripeLen i

theorem decode_shardRhs {t : ℕ} {out : List (List UInt8)}
    (h : decodeGlrcIlpRhsCompact (r.shardRhs t) r.hubDecodeInverse r.f r.stripeLen = some out) :
    out = (range r.f).map (r.recovered t) := by
  rw [decodeGlrcIlpRhsCompact] at h
  split at h
  · cases h
  · cases h
    rfl

end HubRun

/-! ## The threads -/

inductive HubWorkerPc where
  | waiting
  | decoding (shard : ℕ) (shardRhs : List (List UInt8))
  | emplacing (shard : ℕ) (shardRecovered : List (List UInt8)) (i : ℕ)
  | ended
deriving DecidableEq

structure HubWriteStream where
  pending : ℕ → Option (List UInt8) := fun _ => none
  nextShard : ℕ := 0
  decodeDone : Bool := false
  failed : Bool := false
  /-- the payload in the hands of the thread -/
  payload : Option (List UInt8) := none
  ended : Bool := false
  sent : List (List UInt8) := []

structure HubState where
  sharedHubShards : ℕ → Option (List UInt8) := fun _ => none
  hubShardsRead : ℕ := 0
  /-- the frames that each listener has received, or the shards it has made itself -/
  received : ℕ → ℕ := fun _ => 0
  inbound : ℕ → List (ℕ × List UInt8) := fun _ => []
  rhsBufs : ℕ × ℕ → List UInt8 := fun _ => []
  rhsReady : ℕ × ℕ → Bool := fun _ => false
  shardScheduled : ℕ → Bool := fun _ => false
  shardsFinished : ℕ := 0
  worker : ℕ → HubWorkerPc := fun _ => .waiting
  writer : ℕ → HubWriteStream := fun _ => {}
  hubFailed : Bool := false
  returned : Option Bool := none

namespace HubState

def setWorker (s : HubState) (w : ℕ) (pc : HubWorkerPc) : HubState :=
  { s with worker := update s.worker w pc }

def setWriter (s : HubState) (i : ℕ) (ws : HubWriteStream) : HubState :=
  { s with writer := update s.writer i ws }

/-- a listener stores the right-hand side of a shard -/
def store (s : HubState) (ci shard : ℕ) (partialRhs : List UInt8) : HubState :=
  { s with
    rhsBufs := update s.rhsBufs (ci, shard) partialRhs
    rhsReady := update s.rhsReady (ci, shard) true }

/-- `find_ready_shard_locked` -/
def findReadyShard (s : HubState) (shardCount hubChainN : ℕ) : Option ℕ :=
  (range shardCount).find? fun shard =>
    !s.shardScheduled shard && (range hubChainN).all fun ci => s.rhsReady (ci, shard)

end HubState

inductive HubMove where
  | fail
  | readHubShard
  | receive (ci : ℕ)
  | finalize (ci : ℕ)
  | initPartial (ci : ℕ)
  | take (w : ℕ)
  | decode (w : ℕ)
  | emplace (w : ℕ)
  | leave (w : ℕ)
  | decodeDone (i : ℕ)
  | pick (i : ℕ)
  | write (i : ℕ) (ok : Bool)
  | finish (i : ℕ)
  /-- the writers are joined; all datanodes have answered well or not -/
  | complete (answered : Bool)

def hubThreadStep (r : HubRun) (s : HubState) : HubMove → Option HubState
  | .fail => some { s with hubFailed := true }
  | .readHubShard =>
    if s.hubShardsRead < r.shardCount then
      match r.hubShard s.hubShardsRead with
      | none => some { s with hubFailed := true }
      | some bytes => some { s with
          sharedHubShards := update s.sharedHubShards s.hubShardsRead (some bytes)
          hubShardsRead := s.hubShardsRead + 1 }
    else none
  | .receive ci =>
    if ci < r.hubChainN ∧ (r.req.ctx ci).localOnly = false ∧ (s.inbound ci).length < r.capacity ci then
      (r.arrivals ci)[s.received ci]?.map fun shard => { s with
        received := update s.received ci (s.received ci + 1)
        inbound := update s.inbound ci (s.inbound ci ++ [(shard, r.payload ci shard)]) }
    else none
  -- `finalize_hub_shard`, which waits for the hub's own shard
  | .finalize ci =>
    let ctx := r.req.ctx ci
    match s.inbound ci with
    | [] => none
    | (shard, payload) :: rest =>
      let popped := { s with inbound := update s.inbound ci rest }
      if shard < r.shardCount ∧ payload.length = r.stripeLen then
        if ctx.needsTailLocal then (s.sharedHubShards shard).map fun bytes =>
          popped.store ci shard (glrcPipelineAccumulateRange payload bytes ctx.hubCoef ctx.eqCodec)
        else some (popped.store ci shard payload)
      else some { popped with hubFailed := true }
  | .initPartial ci =>
    let ctx := r.req.ctx ci
    let shard := s.received ci
    if ci < r.hubChainN ∧ ctx.localOnly ∧ shard < r.shardCount then
      (s.sharedHubShards shard).map fun bytes =>
        { s with received := update s.received ci (shard + 1) }.store ci shard
          (glrcPipelineInitPartialRange bytes ctx.hubCoef ctx.eqCodec)
    else none
  | .take w =>
    match s.worker w, s.findReadyShard r.shardCount r.hubChainN with
    | .waiting, some shard =>
      if w < r.decodeWorkerCount ∧ s.shardsFinished < r.shardCount then
        let shardRhs := (range r.hubChainN).map fun ci => s.rhsBufs (ci, shard)
        -- the buffers are moved out
        some { s with
          shardScheduled := update s.shardScheduled shard true
          rhsBufs := fun p => if p.2 = shard then [] else s.rhsBufs p
          worker := update s.worker w (.decoding shard shardRhs) }
      else none
    | _, _ => none
  | .decode w =>
    match s.worker w with
    | .decoding shard shardRhs =>
      match decodeGlrcIlpRhsCompact shardRhs r.hubDecodeInverse r.f r.stripeLen with
      | none => some { s.setWorker w .ended with hubFailed := true }
      | some shardRecovered => some (s.setWorker w (.emplacing shard shardRecovered 0))
    | _ => none
  | .emplace w =>
    match s.worker w with
    | .emplacing shard shardRecovered i =>
      if i < r.f then
        let ws := s.writer i
        -- `emplace` keeps an entry that is there
        let entry := (ws.pending shard).getD (shardRecovered.getD i [])
        let ws := { ws with pending := update ws.pending shard (some entry) }
        some ((s.setWriter i ws).setWorker w (.emplacing shard shardRecovered (i + 1)))
      else some { s.setWorker w .waiting with shardsFinished := s.shardsFinished + 1 }
    | _ => none
  | .leave w =>
    if s.worker w = .waiting ∧ (s.hubFailed ∨ r.shardCount ≤ s.shardsFinished) then
      some (s.setWorker w .ended)
    else none
  | .decodeDone i =>
    if ∀ w < r.decodeWorkerCount, s.worker w = .ended then
      some (s.setWriter i { s.writer i with decodeDone := true })
    else none
  | .pick i =>
    let ws := s.writer i
    if ws.ended = false ∧ ws.payload = none then (ws.pending ws.nextShard).map fun payload =>
      s.setWriter i { ws with
        pending := update ws.pending ws.nextShard none
        payload := some payload }
    else none
  | .write i ok =>
    let ws := s.writer i
    ws.payload.map fun payload =>
      if ok then s.setWriter i { ws with
        payload := none
        nextShard := ws.nextShard + 1
        sent := ws.sent ++ [payload] }
      else { s.setWriter i { ws with payload := none, failed := true, ended := true } with
        hubFailed := true }
  | .finish i =>
    let ws := s.writer i
    if ws.payload = none then
      if s.hubFailed ∨ ws.failed then some (s.setWriter i { ws with ended := true })
      else if ws.pending ws.nextShard = none ∧ ws.decodeDone then
        let failed := decide (ws.nextShard ≠ r.shardCount)
        some { s.setWriter i { ws with failed, ended := true } with hubFailed := failed }
      else none
    else none
  | .complete answered =>
    if ∀ i < r.f, (s.writer i).ended then
      let written := ∀ i < r.f, (s.writer i).failed = false ∧ (s.writer i).nextShard = r.shardCount
      some { s with returned := some (!s.hubFailed && answered && decide written) }
    else none

def hubRunStep (r : HubRun) (e : HubMove) (s : HubState) : Option HubState :=
  if s.returned = none then hubThreadStep r s e else none

/-! ## What the threads hold -/

/-- what a worker holds is made of the right-hand sides of its shard -/
def HubWorkerPc.Sound (r : HubRun) : HubWorkerPc → Prop
  | .decoding shard shardRhs => shardRhs = r.shardRhs shard
  | .emplacing shard shardRecovered _ => shardRecovered = (range r.f).map (r.recovered shard)
  | _ => True

structure HubWriteStream.Sound (r : HubRun) (i : ℕ) (ws : HubWriteStream) : Prop where
  pending : ∀ t v, ws.pending t = some v → v = r.recovered t i
  payload : ∀ v, ws.payload = some v → v = r.recovered ws.nextShard i
  sent : ws.sent = (range ws.nextShard).map fun t => r.recovered t i

structure HubInv (r : HubRun) (s : HubState) : Prop where
  hub : ∀ t v, s.sharedHubShards t = some v → r.hubShard t = some v
  inbound : ∀ ci, ∀ frame ∈ s.inbound ci,
    (r.req.ctx ci).localOnly = false ∧ frame.2 = r.payload ci frame.1
  -- a shard's buffers are moved out when it is scheduled
  rhs : ∀ ci t, s.rhsReady (ci, t) → s.shardScheduled t = false → s.rhsBufs (ci, t) = r.rhs ci t
  worker : ∀ w, (s.worker w).Sound r
  writer : ∀ i < r.f, (s.writer i).Sound r i
  returned : s.returned = some true → ∀ i < r.f, (s.writer i).nextShard = r.shardCount

namespace HubInv
variable {r : HubRun} {s s' : HubState} {i w ci shard : ℕ}

theorem init (r : HubRun) : HubInv r {} where
  hub := by simp
  inbound := by simp
  rhs := by simp
  worker _ := trivial
  writer _ _ := ⟨by simp, by simp, rfl⟩
  returned := by simp

section
variable (h : HubInv r s)
include h

theorem failed (b : Bool) : HubInv r { s with hubFailed := b } :=
  ⟨h.hub, h.inbound, h.rhs, h.worker, h.writer, h.returned⟩

theorem setInbound {queue : List (ℕ × List UInt8)}
    (hq : ∀ frame ∈ queue, (r.req.ctx ci).localOnly = false ∧ frame.2 = r.payload ci frame.1) :
    HubInv r { s with inbound := update s.inbound ci queue } :=
  { h with
    inbound := (forall_update_iff s.inbound fun ci q => ∀ frame ∈ q,
      (r.req.ctx ci).localOnly = false ∧ frame.2 = r.payload ci frame.1).mpr
        ⟨hq, fun ci _ => h.inbound ci⟩ }

theorem setWorker {pc : HubWorkerPc} (hpc : pc.Sound r) : HubInv r (s.setWorker w pc) :=
  { h with worker := (forall_update_iff s.worker fun _ pc => pc.Sound r).mpr ⟨hpc, fun w _ => h.worker w⟩ }

theorem setWriter (hnone : s.returned = none) {ws : HubWriteStream}
    (hws : i < r.f → ws.Sound r i) : HubInv r (s.setWriter i ws) :=
  { h with
    writer := (forall_update_iff s.writer fun i ws => i < r.f → ws.Sound r i).mpr
      ⟨hws, fun i _ => h.writer i⟩
    returned := fun hret => absurd (hnone.symm.trans hret) (by simp) }

theorem store {partialRhs : List UInt8} (hrhs : partialRhs = r.rhs ci shard) :
    HubInv r (s.store ci shard partialRhs) := by
  refine { h with rhs := fun ci' t hready hsched => ?_ }
  by_cases heq : (ci', t) = (ci, shard)
  · cases heq
    exact (update_self _ _ _).trans hrhs
  · have hready : s.rhsReady (ci', t) := (update_of_ne heq _ s.rhsReady).symm.trans hready
    exact (update_of_ne heq _ _).trans (h.rhs ci' t hready hsched)

theorem hubShard_getD {bytes : List UInt8} (hb : s.sharedHubShards shard = some bytes) :
    (r.hubShard shard).getD [] = bytes := by
  rw [h.hub _ _ hb, getD_some]

theorem readHubShard (hs : hubThreadStep r s .readHubShard = some s') : HubInv r s' := by
  simp only [hubThreadStep, ite_none_right_eq_some] at hs
  obtain ⟨-, hs⟩ := hs
  split at hs
  · cases hs
    exact h.failed true
  · next bytes hb =>
    cases hs
    refine ⟨?_, h.inbound, h.rhs, h.worker, h.writer, h.returned⟩
    refine (forall_update_iff s.sharedHubShards fun t o => ∀ v, o = some v → r.hubShard t = some v).mpr
      ⟨fun v hv => ?_, fun t _ => h.hub t⟩
    cases hv
    exact hb

theorem receive (hs : hubThreadStep r s (.receive ci) = some s') : HubInv r s' := by
  simp only [hubThreadStep, ite_none_right_eq_some] at hs
  obtain ⟨⟨-, hlocal, -⟩, hs⟩ := hs
  obtain ⟨t, -, rfl⟩ := map_eq_some_iff.mp hs
  have hq : ∀ frame ∈ s.inbound ci ++ [(t, r.payload ci t)],
      (r.req.ctx ci).localOnly = false ∧ frame.2 = r.payload ci frame.1 := by
    intro frame hf
    rcases mem_append.mp hf with hf | hf
    · exact h.inbound ci frame hf
    · rw [mem_singleton.mp hf]
      exact ⟨hlocal, rfl⟩
  exact ⟨h.hub, (h.setInbound hq).inbound, h.rhs, h.worker, h.writer, h.returned⟩

theorem finalize (hs : hubThreadStep r s (.finalize ci) = some s') : HubInv r s' := by
  simp only [hubThreadStep] at hs
  split at hs
  · cases hs
  · next shard payload rest hq =>
    have hmem : ∀ frame ∈ (shard, payload) :: rest, frame ∈ s.inbound ci := fun frame hf => hq ▸ hf
    obtain ⟨hlocal, hpay⟩ := h.inbound ci _ (hmem _ mem_cons_self)
    have hpop : HubInv r { s with inbound := update s.inbound ci rest } :=
      h.setInbound fun frame hf => h.inbound ci frame (hmem _ (mem_cons_of_mem _ hf))
    split at hs
    · split at hs
      · next htail =>
        obtain ⟨bytes, hb, rfl⟩ := map_eq_some_iff.mp hs
        apply hpop.store
        rw [HubRun.rhs, HubListenCtx.fold, hlocal, if_neg Bool.false_ne_true, if_pos htail,
          h.hubShard_getD hb, ← hpay]
      · next htail =>
        cases hs
        apply hpop.store
        rw [HubRun.rhs, HubListenCtx.fold, hlocal, if_neg Bool.false_ne_true, if_neg htail, ← hpay]
    · cases hs
      exact hpop.failed true

theorem initPartial (hs : hubThreadStep r s (.initPartial ci) = some s') : HubInv r s' := by
  simp only [hubThreadStep, ite_none_right_eq_some] at hs
  obtain ⟨⟨-, hlocal, -⟩, hs⟩ := hs
  obtain ⟨bytes, hb, rfl⟩ := map_eq_some_iff.mp hs
  have hnext : HubInv r { s with received := update s.received ci (s.received ci + 1) } :=
    ⟨h.hub, h.inbound, h.rhs, h.worker, h.writer, h.returned⟩
  apply hnext.store
  rw [HubRun.rhs, HubListenCtx.fold, if_pos hlocal, h.hubShard_getD hb]

theorem take (hs : hubThreadStep r s (.take w) = some s') : HubInv r s' := by
  simp only [hubThreadStep] at hs
  split at hs
  · next shard _ hfind =>
    rw [ite_none_right_eq_some] at hs
    obtain ⟨-, hs⟩ := hs
    cases hs
    have hready := find?_some hfind
    simp only [Bool.and_eq_true, Bool.not_eq_true', List.all_eq_true, mem_range] at hready
    have hrhs : (range r.hubChainN).map (fun ci => s.rhsBufs (ci, shard)) = r.shardRhs shard :=
      map_congr_left fun ci hci => h.rhs ci shard (hready.2 ci (mem_range.mp hci)) hready.1
    have hother : ∀ ci t, s.rhsReady (ci, t) → update s.shardScheduled shard true t = false →
        (if t = shard then [] else s.rhsBufs (ci, t)) = r.rhs ci t := by
      intro ci t hr hsched
      by_cases ht : t = shard
      · rw [ht, update_self] at hsched
        cases hsched
      · rw [if_neg ht]
        rw [update_of_ne ht] at hsched
        exact h.rhs ci t hr hsched
    have hw : HubInv r (s.setWorker w (.decoding shard _)) := h.setWorker hrhs
    exact ⟨h.hub, h.inbound, hother, hw.worker, h.writer, h.returned⟩
  · cases hs

theorem decode (hs : hubThreadStep r s (.decode w) = some s') : HubInv r s' := by
  simp only [hubThreadStep] at hs
  split at hs
  · next shard shardRhs hpc =>
    have hsound := h.worker w
    rw [hpc] at hsound
    split at hs
    · cases hs
      apply failed
      exact h.setWorker trivial
    · next out hout =>
      cases hs
      exact h.setWorker (r.decode_shardRhs (hsound ▸ hout))
  · cases hs

theorem emplace (hnone : s.returned = none)
    (hs : hubThreadStep r s (.emplace w) = some s') : HubInv r s' := by
  simp only [hubThreadStep] at hs
  split at hs
  · next shard shardRecovered i hpc =>
    have hsound := h.worker w
    rw [hpc] at hsound
    split at hs
    · next hi =>
      cases hs
      refine (h.setWriter hnone fun _ => ?_).setWorker hsound
      have hws := h.writer i hi
      refine ⟨?_, hws.payload, hws.sent⟩
      refine (forall_update_iff (s.writer i).pending fun t o => ∀ v, o = some v → v = r.recovered t i).mpr
        ⟨fun v hv => ?_, fun t _ => hws.pending t⟩
      cases hv
      cases hp : (s.writer i).pending shard with
      | none => rw [getD_none, hsound, getD_map_range _ hi]
      | some old => exact hws.pending shard old hp
    · cases hs
      have hw : HubInv r (s.setWorker w .waiting) := h.setWorker trivial
      exact ⟨hw.hub, hw.inbound, hw.rhs, hw.worker, hw.writer, hw.returned⟩
  · cases hs

theorem pick (hnone : s.returned = none)
    (hs : hubThreadStep r s (.pick i) = some s') : HubInv r s' := by
  simp only [hubThreadStep, ite_none_right_eq_some] at hs
  obtain ⟨v, hv, rfl⟩ := map_eq_some_iff.mp hs.2
  refine h.setWriter hnone fun hi => ?_
  have hws := h.writer i hi
  refine ⟨?_, fun u hu => ?_, hws.sent⟩
  · exact (forall_update_iff (s.writer i).pending fun t o => ∀ v, o = some v → v = r.recovered t i).mpr
      ⟨by simp, fun t _ => hws.pending t⟩
  · cases hu
    exact hws.pending _ v hv

theorem write (hnone : s.returned = none) {ok : Bool}
    (hs : hubThreadStep r s (.write i ok) = some s') : HubInv r s' := by
  simp only [hubThreadStep] at hs
  obtain ⟨v, hv, rfl⟩ := map_eq_some_iff.mp hs
  split
  · refine h.setWriter hnone fun hi => ?_
    have hws := h.writer i hi
    refine ⟨hws.pending, by simp, ?_⟩
    rw [hws.sent, hws.payload v hv, range_succ, map_append]
    rfl
  · apply failed
    refine h.setWriter hnone fun hi => ?_
    have hws := h.writer i hi
    exact ⟨hws.pending, by simp, hws.sent⟩

theorem finish (hnone : s.returned = none)
    (hs : hubThreadStep r s (.finish i) = some s') : HubInv r s' := by
  simp only [hubThreadStep, ite_none_right_eq_some] at hs
  obtain ⟨-, hs⟩ := hs
  have hws := h.writer i
  split at hs
  · cases hs
    exact h.setWriter hnone fun hi => ⟨(hws hi).pending, (hws hi).payload, (hws hi).sent⟩
  · rw [ite_none_right_eq_some] at hs
    obtain ⟨-, hs⟩ := hs
    cases hs
    apply failed
    exact h.setWriter hnone fun hi => ⟨(hws hi).pending, (hws hi).payload, (hws hi).sent⟩

theorem complete {answered : Bool}
    (hs : hubThreadStep r s (.complete answered) = some s') : HubInv r s' := by
  simp only [hubThreadStep, ite_none_right_eq_some] at hs
  obtain ⟨-, hs⟩ := hs
  cases hs
  refine ⟨h.hub, h.inbound, h.rhs, h.worker, h.writer, fun hret i hi => ?_⟩
  simp only [some.injEq, Bool.and_eq_true, decide_eq_true_eq] at hret
  exact (hret.2 i hi).2

theorem step {e : HubMove} (hs : hubRunStep r e s = some s') : HubInv r s' := by
  rw [hubRunStep, ite_none_right_eq_some] at hs
  obtain ⟨hnone, hs⟩ := hs
  cases e with
  | fail =>
    cases hs
    exact h.failed true
  | readHubShard => exact h.readHubShard hs
  | receive ci => exact h.receive hs
  | finalize ci => exact h.finalize hs
  | initPartial ci => exact h.initPartial hs
  | take w => exact h.take hs
  | decode w => exact h.decode hs
  | emplace w => exact h.emplace hnone hs
  | leave w =>
    simp only [hubThreadStep, ite_none_right_eq_some] at hs
    cases hs.2
    exact h.setWorker trivial
  | decodeDone i =>
    simp only [hubThreadStep, ite_none_right_eq_some] at hs
    cases hs.2
    have hws := h.writer i
    exact h.setWriter hnone fun hi => ⟨(hws hi).pending, (hws hi).payload, (hws hi).sent⟩
  | pick i => exact h.pick hnone hs
  | write i ok => exact h.write hnone hs
  | finish i => exact h.finish hnone hs
  | complete answered => exact h.complete hs

end

end HubInv

/-- **The hub.**  When the call returns true, the writer of failed block `i` has sent the shards in
order, and each is row `i` of the inverse applied to the right-hand sides of that shard. -/
theorem hub_sends_shards {r : HubRun} {es : List HubMove} {s : HubState}
    (hrun : run (hubRunStep r) es {} = some s) (hret : s.returned = some true) {i : ℕ}
    (hi : i < r.f) :
    (s.writer i).sent = (range r.shardCount).map fun t => r.recovered t i := by
  have h : HubInv r s := run_invariant (fun _ _ _ h => h.step) (HubInv.init r) hrun
  rw [(h.writer i hi).sent, h.returned hret i hi]

/-! ## Two chains and two shards -/

def twoShardConfig : Config := { smallConfig with glrcShardCount := 2 }

def twoShardRequest : HubRequest :=
  hubRequest { localShardCount := 2, globalShardBegin := 0, globalShardCount := 2 } 2 twoPlan [0, 1]
    (stripeNodes 8) fun _ => ⟨[20000, 20150, 20300], 20075⟩

def twoShardInverse : Mat UInt8 := (hubStart twoShardConfig twoShardRequest).toOption.getD fun _ _ => 0

theorem hubStart_twoShard : hubStart twoShardConfig twoShardRequest = .ok twoShardInverse := by
  obtain ⟨aInv, h⟩ := exists_of_isOk
    (show (hubStart twoShardConfig twoShardRequest).isOk = true by decide +kernel)
  rw [twoShardInverse, h]
  rfl

/-- one chain delivers shard 1 first, the other shard 0 -/
def twoShardRun : HubRun where
  cfg := twoShardConfig
  disk := stripeDisks smallBlocks
  req := twoShardRequest
  hubDecodeInverse := twoShardInverse
  start := hubStart_twoShard
  arrivals ci := if ci = 0 then [1, 0] else [0, 1]
  payload ci t := equationBytes 4 2 2 [0, 1, 2] smallBlocks (2 * ci) t 1
  decodeWorkerCount := 2
  glrcPipelineWindow := 4

def twoShardEvents : List HubMove :=
  [.receive 0, .receive 0, .receive 1, .readHubShard, .finalize 1, .receive 1, .readHubShard,
    .finalize 0, .finalize 1, .take 1, .finalize 0, .take 0, .decode 1, .emplace 1, .emplace 1,
    .emplace 1, .decode 0, .emplace 0, .pick 0, .write 0 true, .pick 0, .emplace 0, .emplace 0, .leave 0,
    .leave 1, .decodeDone 0, .decodeDone 1, .pick 1, .write 1 true, .pick 1, .write 0 true,
    .write 1 true, .finish 1, .finish 0, .complete true]

/-- shard 1 is decoded first, and the blocks are sent in order -/
theorem hub_sends_two_shards : ∃ s, run (hubRunStep twoShardRun) twoShardEvents {} = some s ∧
    s.returned = some true ∧ (s.writer 1).sent = [[3], [4]] := by
  have hrun : (run (hubRunStep twoShardRun) twoShardEvents {}).map (·.returned) = some (some true) := by
    decide +kernel
  obtain ⟨s, hrun, hret⟩ := map_eq_some_iff.mp hrun
  exact ⟨s, hrun, hret, (hub_sends_shards hrun hret (by decide)).trans (by decide +kernel)⟩

end Mlrc
