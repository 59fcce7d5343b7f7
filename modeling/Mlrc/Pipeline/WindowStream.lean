import Mlrc.Pipeline.Truncated
import Mlrc.Pipeline.WindowFlow

/-!
# Windows do not change a stream

The processes of a chain, with any windows and in any interleaving.  A run without errors sends on
every connection what is sent there when shards are handled one after the other.

* `WindowChain.serialFrames`   the frames of the serial mode;
* `Clean.run`   a run keeps all processes in the middle of their streams;
* `Clean.stuck`   the threads do not wait for each other in a circle;
* `windowed_eq_serial`  the frames of a run;
* `windowed_completes`  every run can be brought to its end.

A connection holds any number of frames, so a send does not wait for the receiver, and each connection
has one sender.
-/

namespace Mlrc

open List Option Function Nat

/-! ## What leaves a process -/

theorem resolvePipelineWindow_pos (glrcPipelineWindow : ℤ) (shardCount : ℕ) :
    0 < resolvePipelineWindow glrcPipelineWindow shardCount := by
  unfold resolvePipelineWindow
  split_ifs <;> omega

namespace WindowChain

/-- shard `i` as it leaves process `j` -/
def payload (c : WindowChain) : ℕ → ℕ → List UInt8
  | 0, i =>
    match c.stages[0]? with
    | none => []
    | some st => glrcPipelineInitPartialRange ((st.stream.drop (i * c.stripeLen)).take c.stripeLen)
        st.me.coef (pipelineCodecFromRequest st.req)
  | j + 1, i =>
    match c.stages[j + 1]? with
    | none => []
    | some st => glrcPipelineAccumulateRange (c.payload j i)
        ((st.stream.drop (i * c.stripeLen)).take c.stripeLen) st.me.coef (pipelineCodecFromRequest st.req)

/-- the frames that leave process `j` when every process handles one shard after the other -/
def serialFrames (c : WindowChain) : ℕ → Except PipelineError (List PipelineFrame)
  | 0 =>
    match c.stages[0]? with
    | none => .error .badIndex
    | some st => do
      let frames ← (range c.shardCount).mapM (runChainHeadShard st.req st.me st.stream c.stripeLen)
      return frames ++ [.END st.req.eqSlot c.shardCount]
  | j + 1 =>
    match c.stages[j + 1]? with
    | none => .error .badIndex
    | some st => do
      let frames ← c.serialFrames j
      hopLoop st.req st.me st.stream c.shardCount c.stripeLen 0 frames

/-- every process finds all shards of its block -/
def Readable (c : WindowChain) : Prop :=
  ∀ st ∈ c.stages, c.shardCount * c.stripeLen ≤ st.stream.length

variable {c : WindowChain} {st : Stage} {i j : ℕ}

theorem payload_zero (hst : c.stages[0]? = some st) (i : ℕ) :
    c.payload 0 i = glrcPipelineInitPartialRange ((st.stream.drop (i * c.stripeLen)).take c.stripeLen)
      st.me.coef (pipelineCodecFromRequest st.req) := by
  rw [payload, hst]

theorem payload_succ (hst : c.stages[j + 1]? = some st) (i : ℕ) :
    c.payload (j + 1) i = glrcPipelineAccumulateRange (c.payload j i)
      ((st.stream.drop (i * c.stripeLen)).take c.stripeLen) st.me.coef (pipelineCodecFromRequest st.req) := by
  rw [payload, hst]

theorem Readable.length_slice (hc : c.Readable) (hst : st ∈ c.stages) (hi : i < c.shardCount) :
    ((st.stream.drop (i * c.stripeLen)).take c.stripeLen).length = c.stripeLen := by
  have hroom : (i + 1) * c.stripeLen ≤ st.stream.length :=
    (mul_le_mul_right _ hi).trans (hc st hst)
  rw [succ_mul] at hroom
  rw [length_take, length_drop]
  omega

theorem Readable.read (hc : c.Readable) (hst : st ∈ c.stages) (hi : i < c.shardCount) :
    readDatanodeStreamShard st.stream i c.stripeLen =
      some ((st.stream.drop (i * c.stripeLen)).take c.stripeLen) :=
  if_pos (hc.length_slice hst hi)

theorem Readable.length_payload (hc : c.Readable) (hj : j < c.stages.length) (hi : i < c.shardCount) :
    (c.payload j i).length = c.stripeLen := by
  induction j with
  | zero =>
    rw [payload_zero (getElem?_eq_getElem hj), length_initPartialRange, hc.length_slice (getElem_mem hj) hi]
  | succ j ih =>
    have hprev := ih (by omega)
    rw [payload_succ (getElem?_eq_getElem hj), length_accumulateRange, hprev]
    rw [hprev, hc.length_slice (getElem_mem hj) hi]

theorem Readable.headShard (hc : c.Readable) (hst : c.stages[0]? = some st) (hi : i < c.shardCount) :
    st.headShard c.stripeLen i = some (i, c.payload 0 i) := by
  unfold Stage.headShard
  rw [hc.read (mem_of_getElem? hst) hi, payload_zero hst]
  rfl

theorem Readable.hopShard (hc : c.Readable) (hst : c.stages[j + 1]? = some st) (hi : i < c.shardCount) :
    st.hopShard c.shardCount c.stripeLen i (i, c.payload j i) = some (i, c.payload (j + 1) i) := by
  have hlt : j + 1 < c.stages.length := (List.getElem?_eq_some_iff.mp hst).1
  have hlen : (c.payload j i).length = c.stripeLen := hc.length_payload (by omega) hi
  unfold Stage.hopShard
  rw [if_pos ⟨hi, hlen⟩, hc.read (mem_of_getElem? hst) hi, payload_succ hst]
  rfl

theorem Readable.serialFrames_eq (hc : c.Readable) (hst : c.stages[j]? = some st) :
    c.serialFrames j = .ok (fullStream st.req.eqSlot c.shardCount (c.payload j)) := by
  induction j generalizing st with
  | zero =>
    have hmap : (range c.shardCount).mapM (runChainHeadShard st.req st.me st.stream c.stripeLen) =
        .ok ((range c.shardCount).map fun i => .SHARD st.req.eqSlot i (c.payload 0 i)) := by
      refine mapM_eq_ok_map fun i hi => ?_
      unfold runChainHeadShard
      rw [hc.read (mem_of_getElem? hst) (mem_range.mp hi), payload_zero hst]
    unfold serialFrames
    rw [hst]
    simp only [hmap]
    rfl
  | succ j ih =>
    have hlt := (List.getElem?_eq_some_iff.mp hst).1
    have hprev : c.stages[j]? = some (c.stages[j]) := getElem?_eq_getElem (by omega)
    unfold serialFrames
    rw [hst]
    simp only [ih hprev]
    show hopLoop st.req st.me st.stream c.shardCount c.stripeLen 0 _ = _
    rw [hopLoop_stream (fun i hi => hc.length_payload (by omega) hi)
      fun i hi => hc.read (mem_of_getElem? hst) hi]
    rw [show c.payload (j + 1) = _ from funext (payload_succ hst)]

end WindowChain

/-! ## Whole chains -/

namespace Proc

def Clean (n : ℕ) (inp payload : ℕ → List UInt8) : Proc → Prop
  | .serialHead s => s.Clean n payload
  | .head s => s.main.Clean n payload s.out
  | .serialHop s => s.Clean n inp payload
  | .hop s => s.Clean n inp payload

def work (n : ℕ) : Proc → ℕ
  | .serialHead s => s.main.work n
  | .head s => s.main.work n + s.out.work
  | .serialHop s => s.work
  | .hop s => s.work

def isHead : Proc → Bool
  | .serialHead _ | .head _ => true
  | _ => false

/-- the shards a hop server took from its connection -/
def received : Proc → ℕ
  | .serialHop s => s.received
  | .hop s => s.received
  | _ => 0

/-- the number of the next read of the local stream and the shard it is added to -/
def combining : Proc → Option (ℕ × Shard)
  | .serialHop s =>
    match s.main with
    | .computing x => some (s.reads, x)
    | _ => none
  | .hop s =>
    match s.main with
    | .computing x => some (s.reads, x)
    | _ => none
  | _ => none

variable {n len : ℕ} {st : Stage} {inp payload : ℕ → List UInt8} {input : Wire} {p p' : Proc}

theorem Clean.work_le (h : p.Clean n inp payload) : p.work n ≤ 8 * n + 14 := by
  cases p with
  | serialHead s => exact (SerialHeadState.Clean.work_le h).trans (by omega)
  | head s => exact (HeadPc.Clean.work_le h).trans (by omega)
  | serialHop s => exact (SerialHopState.Clean.work_le h).trans (by omega)
  | hop s => exact HopState.Clean.work_le h

theorem Clean.carries (h : p.Clean n inp payload) : (p.wire n).Carries n payload := by
  cases p with
  | serialHead s => exact SerialHeadState.Clean.carries h
  | head s =>
    obtain ⟨k, hk, full, hfull, hout⟩ := HeadPc.Clean.outlet h
    exact hout.carries (shardList_initial hk) fun hc => by rw [hfull hc]
  | serialHop s => exact SerialHopState.Clean.carries h
  | hop s => exact HopState.Clean.carries h

theorem Clean.combining (h : p.Clean n inp payload) {k : ℕ} {x : Shard} (hx : p.combining = some (k, x)) :
    x.1 = k := by
  cases p with
  | serialHead s | head s => cases hx
  | serialHop s =>
    obtain ⟨main, received, reads, forwarded, endSent⟩ := s
    cases main with
    | computing y =>
      cases hx
      obtain ⟨-, -, hy, -⟩ := h
      rw [hy]
    | _ => cases hx
  | hop s =>
    unfold Proc.combining at hx
    simp only at hx
    split at hx
    · next y hpc =>
      cases hx
      rw [(HopState.Clean.computing h hpc).2]
    · cases hx

end Proc

namespace WindowChain

/-- process `j` is in the middle of its stream -/
def CleanAt (c : WindowChain) : ℕ → Proc → Prop
  | 0, p => p.isHead = true ∧ p.Clean c.shardCount (c.payload 0) (c.payload 0)
  | j + 1, p => p.isHead = false ∧ p.Clean c.shardCount (c.payload j) (c.payload (j + 1))

def Clean (c : WindowChain) (procs : ℕ → Proc) : Prop := ∀ j, c.CleanAt j (procs j)

section
variable {c : WindowChain} {procs procs' : ℕ → Proc} {p p' : Proc} {st : Stage} {e : ChainEvent} {j : ℕ}

theorem CleanAt.clean (h : c.CleanAt j p) : ∃ inp, p.Clean c.shardCount inp (c.payload j) := by
  cases j with
  | zero => exact ⟨_, h.2⟩
  | succ j => exact ⟨_, h.2⟩

theorem start_clean (c : WindowChain) : c.Clean c.start := by
  have hout : Outlet.Clean [] false {} := ⟨rfl, by simp, rfl, by simp, nofun⟩
  intro j
  cases j with
  | zero =>
    show c.CleanAt 0 (if c.windowed 0 then .head {} else .serialHead {})
    split
    · exact ⟨rfl, zero_le _, hout⟩
    · exact ⟨rfl, zero_le _, rfl, rfl⟩
  | succ j =>
    show c.CleanAt (j + 1) (if c.windowed (j + 1) then .hop {} else .serialHop {})
    split
    · exact ⟨rfl, rfl, by simp, by simp, zero_le _, rfl, nofun, nofun, ⟨[], rfl, hout⟩, nofun⟩
    · exact ⟨rfl, zero_le _, rfl, rfl, rfl⟩

theorem Clean.input (h : c.Clean procs) (j : ℕ) :
    (c.input procs (j + 1)).Carries c.shardCount (c.payload j) := by
  obtain ⟨inp, hp⟩ := (h j).clean
  exact hp.carries

theorem CleanAt.step (hc : c.Readable) (h : c.CleanAt j p) (hst : c.stages[j]? = some st) {input : Wire}
    (hinput : ∀ i, j = i + 1 → input.Carries c.shardCount (c.payload i)) {t : Thread}
    (hstep : procStep c.shardCount c.stripeLen st input t true p = some p') :
    c.CleanAt j p' ∧ p'.work c.shardCount = p.work c.shardCount + 1 := by
  cases j with
  | zero =>
    obtain ⟨hhead, h⟩ := h
    have hread := fun i (hi : i < c.shardCount) => hc.headShard hst hi
    cases p with
    | serialHead s =>
      obtain ⟨s', hs', rfl⟩ := map_eq_some_iff.mp hstep
      obtain ⟨hclean, hwork⟩ := serialHeadStep_clean hread h hs'
      exact ⟨⟨rfl, hclean⟩, hwork⟩
    | head s =>
      obtain ⟨s', hs', rfl⟩ := map_eq_some_iff.mp hstep
      obtain ⟨hclean, hwork⟩ := headStep_clean hread h hs'
      exact ⟨⟨rfl, hclean⟩, hwork⟩
    | serialHop s | hop s => cases hhead
  | succ j =>
    obtain ⟨hhead, h⟩ := h
    have hread := fun i (hi : i < c.shardCount) => hc.hopShard hst hi
    cases p with
    | serialHead s | head s => cases hhead
    | serialHop s =>
      obtain ⟨s', hs', rfl⟩ := map_eq_some_iff.mp hstep
      obtain ⟨hclean, hwork⟩ := serialHopStep_clean (hinput j rfl) hread h hs'
      exact ⟨⟨rfl, hclean⟩, hwork⟩
    | hop s =>
      obtain ⟨s', hs', rfl⟩ := map_eq_some_iff.mp hstep
      obtain ⟨hclean, hwork⟩ := hopStep_clean (hinput j rfl) hread h hs'
      exact ⟨⟨rfl, hclean⟩, hwork⟩

def work (c : WindowChain) (procs : ℕ → Proc) : ℕ :=
  ∑ j ∈ Finset.range c.stages.length, (procs j).work c.shardCount

theorem Clean.step (hc : c.Readable) (h : c.Clean procs) (hok : e.ok = true)
    (hstep : chainStep c e procs = some procs') : c.Clean procs' ∧ c.work procs' = c.work procs + 1 := by
  obtain ⟨st, p', hst, hp', rfl⟩ := chainStep_cases hstep
  rw [hok] at hp'
  obtain ⟨hclean, hwork⟩ := (h e.proc).step hc hst (fun i hi => hi ▸ h.input i) hp'
  refine ⟨fun j => ?_, ?_⟩
  · by_cases hj : j = e.proc
    · subst hj
      rwa [update_self]
    · rw [update_of_ne hj]
      exact h j
  · have hmem : e.proc ∈ Finset.range c.stages.length :=
      Finset.mem_range.mpr (List.getElem?_eq_some_iff.mp hst).1
    have hrest : ∀ j ∈ (Finset.range c.stages.length).erase e.proc,
        (update procs e.proc p' j).work c.shardCount = (procs j).work c.shardCount := by
      intro j hj
      rw [update_of_ne (Finset.ne_of_mem_erase hj)]
    unfold work
    rw [← Finset.add_sum_erase _ _ hmem, ← Finset.add_sum_erase _ _ hmem, Finset.sum_congr rfl hrest,
      update_self, hwork]
    omega

theorem Clean.run (hc : c.Readable) {es : List ChainEvent} (hok : ∀ e ∈ es, e.ok = true)
    (h : c.Clean procs) (hrun : Mlrc.run (chainStep c) es procs = some procs') :
    c.Clean procs' ∧ c.work procs' = c.work procs + es.length := by
  induction es generalizing procs with
  | nil =>
    cases hrun
    exact ⟨h, rfl⟩
  | cons e es ih =>
    obtain ⟨mid, hmid, hrest⟩ := bind_eq_some_iff.mp hrun
    obtain ⟨hclean, hwork⟩ := h.step hc (hok e mem_cons_self) hmid
    obtain ⟨hclean', hwork'⟩ := ih (fun e he => hok e (mem_cons_of_mem _ he)) hclean hrest
    refine ⟨hclean', ?_⟩
    rw [hwork', hwork, length_cons]
    omega

theorem Clean.work_le (h : c.Clean procs) : c.work procs ≤ c.stages.length * (8 * c.shardCount + 14) := by
  have hsum := Finset.sum_le_card_nsmul (Finset.range c.stages.length)
    (fun j => (procs j).work c.shardCount) (8 * c.shardCount + 14) fun j _ => by
      obtain ⟨inp, hp⟩ := (h j).clean
      exact hp.work_le
  rwa [Finset.card_range, smul_eq_mul] at hsum

def Stuck (c : WindowChain) (procs : ℕ → Proc) : Prop :=
  ∀ e : ChainEvent, e.ok = true → chainStep c e procs = none

theorem Clean.stuck (h : c.Clean procs) (hstuck : c.Stuck procs) (hj : j < c.stages.length) :
    (procs j).finished = true ∧ (procs j).forwarded = shardList (c.payload j) c.shardCount ∧
      (procs j).endSent = true ∧ (0 < j → (procs j).received = c.shardCount) := by
  have hprocs : ∀ j (hj : j < c.stages.length) t, procStep c.shardCount c.stripeLen c.stages[j]
      (c.input procs j) t true (procs j) = none := by
    intro j hj t
    have hnone := hstuck ⟨j, t, true⟩ rfl
    unfold chainStep at hnone
    rw [getElem?_eq_getElem hj] at hnone
    exact map_eq_none_iff.mp hnone
  induction j with
  | zero =>
    have hnone := hprocs 0 hj
    obtain ⟨hhead, hclean⟩ := h 0
    cases hp : procs 0 with
    | serialHead s =>
      rw [hp] at hnone hclean
      obtain ⟨hpc, hsent, hend⟩ := serialHead_stuck hclean (map_eq_none_iff.mp (hnone .main))
      exact ⟨by simp [Proc.finished, hpc], hsent, hend, nofun⟩
    | head s =>
      rw [hp] at hnone hclean
      obtain ⟨hpc, hsent, hend⟩ := head_stuck (resolvePipelineWindow_pos _ _) hclean
        fun t => map_eq_none_iff.mp (hnone t)
      exact ⟨by simp [Proc.finished, hpc], hsent, hend, nofun⟩
    | serialHop s | hop s =>
      rw [hp] at hhead
      cases hhead
  | succ j ih =>
    have hnone := hprocs (j + 1) hj
    obtain ⟨-, -, hprev, -⟩ := ih (by omega)
    have hend : (c.input procs (j + 1)).endCount = some c.shardCount := if_pos hprev
    obtain ⟨hhead, hclean⟩ := h (j + 1)
    cases hp : procs (j + 1) with
    | serialHead s | head s =>
      rw [hp] at hhead
      cases hhead
    | serialHop s =>
      rw [hp] at hnone hclean
      obtain ⟨hpc, hreceived, hsent, hlast⟩ := serialHop_stuck hend hclean
        (map_eq_none_iff.mp (hnone .main))
      exact ⟨by simp [Proc.finished, hpc], hsent, hlast, fun _ => hreceived⟩
    | hop s =>
      rw [hp] at hnone hclean
      obtain ⟨hpc, hreceived, hsent, hlast⟩ := hop_stuck (resolvePipelineWindow_pos _ _) hend hclean
        fun t => map_eq_none_iff.mp (hnone t)
      exact ⟨by simp [Proc.finished, hpc], hsent, hlast, fun _ => hreceived⟩

end

end WindowChain

/-! ## The window does not matter -/

theorem Wire.Carries.frames {n : ℕ} {payload : ℕ → List UInt8} {w : Wire} (h : w.Carries n payload)
    (slot : ℕ) : w.frames slot <+: fullStream slot n payload := by
  have hmap : (shardList payload n).map (fun x => PipelineFrame.SHARD slot x.1 x.2) =
      (range n).map fun i => .SHARD slot i (payload i) := by
    rw [shardList, List.map_map]
    rfl
  unfold Wire.frames fullStream
  rw [← hmap]
  cases hend : w.endCount with
  | none =>
    simp only [map_none, toList_none, append_nil]
    exact (h.shards.map _).trans (prefix_append _ _)
  | some count =>
    obtain ⟨rfl, hall⟩ := h.ended count hend
    rw [hall]
    exact prefix_rfl

theorem Wire.frames_full {n : ℕ} {payload : ℕ → List UInt8} {w : Wire} (hall : w.shards = shardList payload n)
    (hend : w.endCount = some n) (slot : ℕ) : w.frames slot = fullStream slot n payload := by
  unfold Wire.frames fullStream
  rw [hall, hend, shardList, List.map_map]
  rfl

theorem Wire.Carries.ids {n : ℕ} {payload : ℕ → List UInt8} {w : Wire} (h : w.Carries n payload) {k : ℕ}
    (hk : k ≤ w.shards.length) : (w.shards.take k).map (·.1) = range k := by
  rw [(eq_shardList_of_initial h.shards).1, shardList, ← map_take, take_range, min_eq_left hk,
    List.map_map]
  exact List.map_id _

theorem Proc.Safe.received_le {input : Wire} {p : Proc} (h : p.Safe input) :
    p.received ≤ input.shards.length := by
  cases p with
  | serialHead s | head s => exact absurd h id
  | serialHop s => exact h.got
  | hop s => exact h.got

/-- **Main result.**  In a run without errors, for any windows and any interleaving, a process gets the
shards in the order of their ids, it adds its `k`-th read to shard `k`, and it sends a beginning of the
frames it sends in the serial mode.  A run has an end, and then every process has sent all of them. -/
theorem windowed_eq_serial {c : WindowChain} (hc : c.Readable) {es : List ChainEvent}
    (hok : ∀ e ∈ es, e.ok = true) {procs : ℕ → Proc} (hrun : run (chainStep c) es c.start = some procs) :
    es.length ≤ c.stages.length * (8 * c.shardCount + 14) ∧
    ∀ j st, c.stages[j]? = some st → ∃ frames, c.serialFrames j = .ok frames ∧
      ((c.input procs j).shards.take (procs j).received).map (·.1) = range (procs j).received ∧
      (∀ k x, (procs j).combining = some (k, x) → x.1 = k) ∧
      ((procs j).wire c.shardCount).frames st.req.eqSlot <+: frames ∧
      (c.Stuck procs → (procs j).finished = true ∧
        ((procs j).wire c.shardCount).frames st.req.eqSlot = frames ∧
        (0 < j → (procs j).received = c.shardCount)) := by
  obtain ⟨hclean, hwork⟩ := c.start_clean.run hc hok hrun
  have hsafe := run_invariant (fun _ _ _ => chainStep_safe) (start_safe c) hrun
  refine ⟨?_, fun j st hst => ⟨_, hc.serialFrames_eq hst, ?_, ?_, ?_, fun hstuck => ?_⟩⟩
  · have hle := hclean.work_le
    omega
  · cases j with
    | zero =>
      have hhead := (hclean 0).1
      have hnone : (procs 0).received = 0 := by
        unfold Proc.isHead at hhead
        split at hhead
        · next s hp => rw [hp]; rfl
        · next s hp => rw [hp]; rfl
        · cases hhead
      rw [hnone]
      rfl
    | succ j => exact (hclean.input j).ids (hsafe j).received_le
  · intro k x hx
    obtain ⟨inp, hp⟩ := (hclean j).clean
    exact hp.combining hx
  · obtain ⟨inp, hp⟩ := (hclean j).clean
    exact hp.carries.frames st.req.eqSlot
  · obtain ⟨hfin, hsent, hend, hreceived⟩ := hclean.stuck hstuck (List.getElem?_eq_some_iff.mp hst).1
    exact ⟨hfin, Wire.frames_full hsent (if_pos hend) _, hreceived⟩

/-- **No deadlock.**  From every state of a run without errors the chain can be brought to its end, whatever
windows its processes have: then every process has finished and has sent the frames of the serial mode. -/
theorem windowed_completes {c : WindowChain} (hc : c.Readable) {es : List ChainEvent}
    (hok : ∀ e ∈ es, e.ok = true) {procs : ℕ → Proc} (hrun : run (chainStep c) es c.start = some procs) :
    ∃ es' procs', (∀ e ∈ es', e.ok = true) ∧ run (chainStep c) es' procs = some procs' ∧
      ∀ j st, c.stages[j]? = some st → (procs' j).finished = true ∧
        c.serialFrames j = .ok (((procs' j).wire c.shardCount).frames st.req.eqSlot) := by
  have hclean := (c.start_clean.run hc hok hrun).1
  obtain ⟨es', procs', hok', hrun', hstuck⟩ := exists_run_to_end
    (P := fun e : ChainEvent => e.ok = true) (I := c.Clean) c.work (fun e s s' hs he hstep => by
      obtain ⟨hclean, hwork⟩ := hs.step hc he hstep
      exact ⟨hclean, by omega⟩) (fun s hs => hs.work_le) hclean
  refine ⟨es', procs', hok', hrun', fun j st hst => ?_⟩
  obtain ⟨hfin, hsent, hend, -⟩ := (hclean.run hc hok' hrun').1.stuck hstuck
    (List.getElem?_eq_some_iff.mp hst).1
  refine ⟨hfin, ?_⟩
  rw [hc.serialFrames_eq hst, Wire.frames_full hsent (if_pos hend)]

/-! ## A complete run -/

def workSteps (proc : ℕ) (thread : Thread) (k : ℕ) : List ChainEvent := replicate k ⟨proc, thread, true⟩

/-- both queues of the hop are full on the way -/
def windowRun : List ChainEvent :=
  workSteps 0 .main 7 ++ workSteps 0 .sender 4 ++ workSteps 0 .main 2 ++ workSteps 0 .sender 3 ++
    workSteps 0 .main 1 ++ workSteps 1 .reader 6 ++ workSteps 1 .main 6 ++ workSteps 1 .reader 4 ++
    workSteps 1 .main 1 ++ workSteps 1 .sender 4 ++ workSteps 1 .main 3 ++ workSteps 1 .sender 3 ++
    workSteps 1 .main 1

theorem windowed_completes_race : ∃ es procs, (∀ e ∈ es, e.ok = true) ∧
    run (chainStep raceChain) es raceChain.start = some procs ∧ ∀ j st, raceChain.stages[j]? = some st →
      (procs j).finished = true ∧
        raceChain.serialFrames j = .ok (((procs j).wire raceChain.shardCount).frames st.req.eqSlot) :=
  @windowed_completes raceChain (by unfold WindowChain.Readable; decide +kernel) [] (by simp) _ rfl

/-- the hop has sent what it sends in the serial mode -/
theorem windowRun_delivers : raceChain.windowed 1 = true ∧ ∃ procs frames,
    run (chainStep raceChain) windowRun raceChain.start = some procs ∧
      raceChain.serialFrames 1 = .ok frames ∧ (procs 1).finished = true ∧
      ((procs 1).wire raceChain.shardCount).frames 0 = frames := by
  refine ⟨by decide +kernel, ?_⟩
  have hend : ((run (chainStep raceChain) windowRun raceChain.start).map fun procs =>
      (range 2).all fun j => [Thread.reader, .main, .sender].all fun t =>
        (chainStep raceChain ⟨j, t, true⟩ procs).isNone) = some true := by decide +kernel
  obtain ⟨procs, hrun, hnone⟩ := map_eq_some_iff.mp hend
  have hstuck : raceChain.Stuck procs := by
    rintro ⟨j, t, ok⟩ (rfl : ok = true)
    by_cases hj : j < 2
    · have hall := all_eq_true.mp hnone j (mem_range.mpr hj)
      exact isNone_iff_eq_none.mp (all_eq_true.mp hall t (by cases t <;> simp))
    · have hout : raceChain.stages[j]? = none :=
        getElem?_eq_none (by rw [show raceChain.stages.length = 2 by decide +kernel]; omega)
      unfold chainStep
      simp only [hout]
  have hslot : (raceChain.stages[1]?.map fun st => st.req.eqSlot) = some 0 := by decide +kernel
  obtain ⟨st, hst, hslot⟩ := map_eq_some_iff.mp hslot
  obtain ⟨frames, hserial, -, -, -, hfull⟩ := (windowed_eq_serial (c := raceChain)
    (by unfold WindowChain.Readable; decide +kernel) (by decide +kernel) hrun).2 1 st hst
  obtain ⟨hfin, hframes, -⟩ := hfull hstuck
  rw [hslot] at hframes
  exact ⟨procs, frames, hrun, hserial, hfin, hframes⟩

end Mlrc
