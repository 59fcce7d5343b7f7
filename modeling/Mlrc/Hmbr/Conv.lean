import Mlrc.Data.Slots
import Mlrc.Hmbr.Writes
import Mlrc.Phase2.ExchangeInv
import Mlrc.Repair.Decoders

/-!
# The threads of the conventional center

A reader for every helper, the decode loop and a writer for every failed block share the buffers of
`hmbrConvShardRecovery`.  Readers count the shards they have stored; a shard that all have counted is
decoded, copied to the buffers of the failed blocks and marked ready, and the writers send it from
there.

* `ConvRun`   a call that has prepared its decoder;
* `convStep`   all threads, in any interleaving;
* `ConvInv`   a counted shard of a helper and a ready shard of a block are final;
* `conv_sends_range`   a call that returns true has sent its range of every failed block.

A step is a lock section, a read, a decode, a copy or a write; a thread may fail at any time, and no
step but the last has to see that another has failed.
-/

namespace Mlrc

open List Option Function

/-- a call of `hmbrConvShardRecovery` that has prepared its decoder; `block i` is the block of helper
`i` as its datanode has it -/
structure ConvRun where
  cfg : Config
  req : Phase1Request
  decodeInverse : Mat UInt8
  terms : List (List (ℕ × UInt8))
  prepared : glrcIlpPrepareHelperDecode cfg.k cfg.r cfg.z req.blockIds req.failedBlockIds
    req.selectedEquationIndices = some (decodeInverse, terms)
  block : ℕ → List UInt8

namespace ConvRun
variable (r : ConvRun)

def stripeByteLen : ℕ := r.cfg.blockSize / r.cfg.glrcShardCount
def localShardCount : ℕ := r.req.rangeSize / r.stripeByteLen
def helperN : ℕ := r.req.blockIds.length
def failedN : ℕ := r.req.failedBlockIds.length
def stripeOff (shardK : ℕ) : ℕ := r.req.rangeOffset + shardK * r.stripeByteLen

/-- what the stream of helper `i` has for a shard -/
def piece (i shardK : ℕ) : List UInt8 :=
  readAt (r.block i) (r.stripeOff shardK) r.stripeByteLen

/-- the decoder at one shard, with the buffers it reuses -/
def decodeInto (helperBufs : ℕ → List UInt8) (shardK : ℕ) (decodeRhs shardRecovered : List (List UInt8)) :
    Option (List (List UInt8) × List (List UInt8)) :=
  helperCompactPreparedInto ((range r.helperN).map helperBufs) (r.terms.map fun t => t.map Prod.fst)
    (helperTables r.terms) (inverseTable r.failedN r.decodeInverse) r.failedN r.req.rangeOffset
    (r.stripeOff shardK) r.stripeByteLen decodeRhs shardRecovered

end ConvRun

/-! ## The threads -/

inductive ConvPc where
  | waiting (shardK : ℕ)
  | copying (shardK target : ℕ)
  | marking (shardK target : ℕ)
  /-- the readers are joined -/
  | joined (decodeOk : Bool)
deriving DecidableEq

structure ConvWriteStream where
  ready : ℕ → Bool := fun _ => false
  nextShard : ℕ := 0
  producerDone : Bool := false
  failed : Bool := false
  /-- the shard between its choice and its write -/
  sending : Option ℕ := none
  ended : Bool := false
  sent : List (List UInt8) := []

structure ConvSystem where
  helperBufs : ℕ → List UInt8
  recovered : ℕ → List UInt8
  /-- the shards that each reader has stored, and those it has counted -/
  stored : ℕ → ℕ := fun _ => 0
  counted : ℕ → ℕ := fun _ => 0
  shardArrived : ℕ → ℕ := fun _ => 0
  decodeRhs : List (List UInt8) := []
  shardRecovered : List (List UInt8) := []
  main : ConvPc := .waiting 0
  writer : ℕ → ConvWriteStream := fun _ => {}
  failed : Bool := false
  returned : Option Bool := none

def ConvSystem.setWriter (s : ConvSystem) (target : ℕ) (ws : ConvWriteStream) : ConvSystem :=
  { s with writer := update s.writer target ws }

inductive ConvEvent where
  | fail
  | read (i : ℕ)
  | count (i : ℕ)
  | decode
  | copy
  | mark
  | join
  | producerDone (target : ℕ)
  | pick (target : ℕ)
  | write (target : ℕ) (ok : Bool)
  | close (target : ℕ)
  /-- the writers are joined; all datanodes have answered well or not -/
  | complete (answered : Bool)

def convThreadStep (r : ConvRun) (s : ConvSystem) : ConvEvent → Option ConvSystem
  | .fail => some { s with failed := true }
  | .read i =>
    let shardK := s.stored i
    if s.counted i = shardK ∧ shardK < r.localShardCount then
      if (r.piece i shardK).length = r.stripeByteLen then some { s with
        helperBufs := update s.helperBufs i
          (writeAt (s.helperBufs i) (shardK * r.stripeByteLen) (r.piece i shardK))
        stored := update s.stored i (shardK + 1) }
      else some { s with failed := true }
    else none
  | .count i =>
    if i < r.helperN ∧ s.counted i < s.stored i then some { s with
      shardArrived := update s.shardArrived (s.counted i) (s.shardArrived (s.counted i) + 1)
      counted := update s.counted i (s.counted i + 1) }
    else none
  | .decode =>
    match s.main with
    | .waiting shardK =>
      if shardK < r.localShardCount ∧ r.helperN ≤ s.shardArrived shardK then
        match r.decodeInto s.helperBufs shardK s.decodeRhs s.shardRecovered with
        | none => some { s with failed := true, main := .joined false }
        | some (decodeRhs, shardRecovered) => some { s with
          decodeRhs, shardRecovered, main := .copying shardK 0 }
      else none
    | _ => none
  | .copy =>
    match s.main with
    | .copying shardK target => some { s with
        recovered := update s.recovered target (writeAt (s.recovered target)
          (shardK * r.stripeByteLen) (s.shardRecovered.getD target []))
        main := .marking shardK target }
    | _ => none
  | .mark =>
    match s.main with
    | .marking shardK target =>
      let ws := s.writer target
      some { s.setWriter target { ws with ready := update ws.ready shardK true } with
        main := if target + 1 < r.failedN then .copying shardK (target + 1) else .waiting (shardK + 1) }
    | _ => none
  | .join =>
    match s.main with
    | .waiting shardK =>
      if shardK = r.localShardCount ∨ s.failed then
        some { s with main := .joined (decide (shardK = r.localShardCount) && !s.failed) }
      else none
    | _ => none
  | .producerDone target =>
    match s.main with
    | .joined decodeOk =>
      let ws := s.writer target
      some (s.setWriter target { ws with producerDone := true, failed := ws.failed || !decodeOk })
    | _ => none
  | .pick target =>
    let ws := s.writer target
    if ws.ended = false ∧ ws.failed = false ∧ ws.sending = none ∧ ws.nextShard < r.localShardCount ∧
        ws.ready ws.nextShard then
      some (s.setWriter target { ws with sending := some ws.nextShard, nextShard := ws.nextShard + 1 })
    else none
  | .write target ok =>
    let ws := s.writer target
    ws.sending.map fun shard =>
      if ok then s.setWriter target { ws with
        sending := none
        sent := ws.sent ++ [readAt (s.recovered target) (shard * r.stripeByteLen) r.stripeByteLen] }
      else { s.setWriter target { ws with sending := none, failed := true, ended := true } with
        failed := true }
  | .close target =>
    let ws := s.writer target
    if ws.sending = none ∧ (s.failed ∨ ws.failed ∨
        ws.producerDone ∧ ¬(ws.nextShard < r.localShardCount ∧ ws.ready ws.nextShard)) then
      some (s.setWriter target { ws with ended := true })
    else none
  | .complete answered =>
    match s.main with
    | .joined decodeOk =>
      if ∀ target < r.failedN, (s.writer target).ended then
        let written := ∀ target < r.failedN,
          (s.writer target).failed = false ∧ (s.writer target).nextShard = r.localShardCount
        some { s with returned := some (decodeOk && answered && decide written) }
      else none
    | _ => none

def convStep (r : ConvRun) (e : ConvEvent) (s : ConvSystem) : Option ConvSystem :=
  if s.returned = none then convThreadStep r s e else none

def convInit (r : ConvRun) : ConvSystem where
  helperBufs _ := replicate r.req.rangeSize 0
  recovered _ := replicate r.req.rangeSize 0

/-! ## What the threads hold -/

/-- from right pieces the decoder computes the shards `want` of the failed blocks -/
def ConvRun.Decodes (r : ConvRun) (want : ℕ → ℕ → List UInt8) : Prop :=
  ∀ bufs shardK rhs out, shardK < r.localShardCount →
    (∀ i < r.helperN, Holds r.stripeByteLen r.piece bufs i shardK) →
    ((r.decodeInto bufs shardK rhs out).map Prod.snd =
      some ((range r.failedN).map fun t => want t shardK)) ∧
    ∀ t < r.failedN, (want t shardK).length = r.stripeByteLen

/-- a writer: `H k` says that shard `k` is in the buffer of its block -/
structure ConvWriteStream.Sound (H : ℕ → Prop) (want : ℕ → List UInt8) (ws : ConvWriteStream) : Prop where
  ready : ∀ k, ws.ready k → H k
  sending : ∀ k, ws.sending = some k → H k ∧ k = ws.sent.length ∧ ws.nextShard = k + 1
  resting : ws.sending = none → ws.failed = false → ws.nextShard = ws.sent.length
  sent : ws.sent = (range ws.sent.length).map want
  ended : ws.ended → ws.sending = none

theorem ConvWriteStream.Sound.mono {H H' : ℕ → Prop} {want : ℕ → List UInt8} {ws : ConvWriteStream}
    (h : ws.Sound H want) (hH : ∀ k, H k → H' k) : ws.Sound H' want :=
  { h with
    ready := fun k hk => hH k (h.ready k hk)
    sending := fun k hk => ⟨hH k (h.sending k hk).1, (h.sending k hk).2⟩ }

/-- the decoder has left shard `k` of all failed blocks -/
structure ConvRun.Decoded (r : ConvRun) (want : ℕ → ℕ → List UInt8) (out : List (List UInt8)) (k : ℕ) :
    Prop where
  lt : k < r.localShardCount
  out_eq : out = (range r.failedN).map fun t => want t k
  length : ∀ t < r.failedN, (want t k).length = r.stripeByteLen

def ConvPc.Sound (r : ConvRun) (want : ℕ → ℕ → List UInt8) (out : List (List UInt8))
    (recovered : ℕ → List UInt8) : ConvPc → Prop
  | .copying k t => r.Decoded want out k ∧ t < r.failedN
  | .marking k t => r.Decoded want out k ∧ t < r.failedN ∧ Holds r.stripeByteLen want recovered t k
  | _ => True

structure ConvInv (r : ConvRun) (want : ℕ → ℕ → List UInt8) (s : ConvSystem) : Prop where
  helperSize : ∀ i, (s.helperBufs i).length = r.req.rangeSize
  size : ∀ t, (s.recovered t).length = r.req.rangeSize
  read : ∀ i k, k < s.stored i → Holds r.stripeByteLen r.piece s.helperBufs i k
  counted : ∀ i, s.counted i ≤ s.stored i
  arrived : ∀ k, s.shardArrived k ≤ ((Finset.range r.helperN).filter (k < s.counted ·)).card
  main : s.main.Sound r want s.shardRecovered s.recovered
  writer : ∀ t < r.failedN, (s.writer t).Sound (Holds r.stripeByteLen want s.recovered t) (want t)
  returned : s.returned = some true → ∀ t < r.failedN, (s.writer t).ended ∧
    (s.writer t).failed = false ∧ (s.writer t).nextShard = r.localShardCount

theorem card_update {n i : ℕ} {pos arrived : ℕ → ℕ} (hi : i < n)
    (h : ∀ k, arrived k ≤ ((Finset.range n).filter (k < pos ·)).card) (k : ℕ) :
    update arrived (pos i) (arrived (pos i) + 1) k ≤
      ((Finset.range n).filter (k < update pos i (pos i + 1) ·)).card := by
  have hle : ∀ j, pos j ≤ update pos i (pos i + 1) j :=
    (forall_update_iff pos fun j m => pos j ≤ m).mpr ⟨Nat.le_succ _, fun _ _ => le_rfl⟩
  have hsub : (Finset.range n).filter (k < pos ·) ⊆
      (Finset.range n).filter (k < update pos i (pos i + 1) ·) :=
    Finset.monotone_filter_right _ fun j _ hj => hj.trans_le (hle j)
  by_cases hk : k = pos i
  · rw [hk, update_self, Nat.succ_le_iff]
    refine (h _).trans_lt (Finset.card_lt_card ⟨hk ▸ hsub, fun hsup => ?_⟩)
    have hmem : i ∈ (Finset.range n).filter (pos i < pos ·) := hsup (by simp [hi])
    exact lt_irrefl _ (Finset.mem_filter.mp hmem).2
  · rw [update_of_ne hk]
    exact (h k).trans (Finset.card_le_card hsub)

theorem ConvRun.shard_end {r : ConvRun} {k : ℕ} (hk : k < r.localShardCount) :
    (k + 1) * r.stripeByteLen ≤ r.req.rangeSize :=
  (Nat.mul_le_mul_right _ hk).trans (Nat.div_mul_le_self _ _)

namespace ConvInv
variable {r : ConvRun} {want : ℕ → ℕ → List UInt8} {s s' : ConvSystem} {i target : ℕ}

theorem init (r : ConvRun) (want : ℕ → ℕ → List UInt8) : ConvInv r want (convInit r) where
  helperSize _ := length_replicate
  size _ := length_replicate
  read := by simp [convInit]
  counted _ := le_rfl
  arrived _ := Nat.zero_le _
  main := trivial
  writer _ _ := ⟨by simp [convInit], by simp [convInit], fun _ _ => rfl, rfl, by simp [convInit]⟩
  returned := by simp [convInit]

section
variable (h : ConvInv r want s)
include h

theorem failed : ConvInv r want { s with failed := true } :=
  ⟨h.helperSize, h.size, h.read, h.counted, h.arrived, h.main, h.writer, h.returned⟩

theorem setMain {main : ConvPc} (hmain : main.Sound r want s.shardRecovered s.recovered) :
    ConvInv r want { s with main } :=
  { h with main := hmain }

theorem setWriter (hnone : s.returned = none) {ws : ConvWriteStream}
    (hws : target < r.failedN → ws.Sound (Holds r.stripeByteLen want s.recovered target) (want target)) :
    ConvInv r want (s.setWriter target ws) :=
  { h with
    writer := (forall_update_iff s.writer fun t ws => t < r.failedN →
      ws.Sound (Holds r.stripeByteLen want s.recovered t) (want t)).mpr ⟨hws, fun t _ => h.writer t⟩
    returned := fun hret => absurd (hnone.symm.trans hret) (by simp) }

theorem readShard (hs : convThreadStep r s (.read i) = some s') : ConvInv r want s' := by
  simp only [convThreadStep, ite_none_right_eq_some] at hs
  obtain ⟨⟨-, hk⟩, hs⟩ := hs
  split at hs
  · next hlen =>
    cases hs
    have hend := r.shard_end hk
    obtain ⟨hself, hmono⟩ := holds_write (h.helperSize i) hend hlen
    refine ⟨length_update_writeAt h.helperSize hend hlen, h.size, ?_, ?_, h.arrived, h.main, h.writer,
      h.returned⟩
    · refine (forall_update_iff s.stored fun j n => ∀ k < n, Holds r.stripeByteLen r.piece _ j k).mpr
        ⟨fun k hk => ?_, fun j _ k hk => hmono j k (h.read j k hk)⟩
      rcases Nat.lt_succ_iff_lt_or_eq.mp hk with hlt | rfl
      · exact hmono i k (h.read i k hlt)
      · exact hself
    · exact (forall_update_iff s.stored fun j n => s.counted j ≤ n).mpr
        ⟨(h.counted i).trans (Nat.le_succ _), fun j _ => h.counted j⟩
  · cases hs
    exact h.failed

theorem count (hs : convThreadStep r s (.count i) = some s') : ConvInv r want s' := by
  simp only [convThreadStep, ite_none_right_eq_some] at hs
  obtain ⟨⟨hi, hlt⟩, hs⟩ := hs
  cases hs
  have hcounted := (forall_update_iff s.counted fun j n => n ≤ s.stored j).mpr
    ⟨hlt, fun j _ => h.counted j⟩
  exact ⟨h.helperSize, h.size, h.read, hcounted, card_update hi h.arrived, h.main, h.writer, h.returned⟩

theorem pieces {k : ℕ} (hk : r.helperN ≤ s.shardArrived k) (hi : i < r.helperN) :
    Holds r.stripeByteLen r.piece s.helperBufs i k := by
  have hcard : (Finset.range r.helperN).card ≤ ((Finset.range r.helperN).filter (k < s.counted ·)).card := by
    rw [Finset.card_range]
    exact hk.trans (h.arrived k)
  have hall := Finset.eq_of_subset_of_card_le (Finset.filter_subset _ _) hcard
  have hmem : i ∈ (Finset.range r.helperN).filter (k < s.counted ·) := by
    rw [hall]
    exact Finset.mem_range.mpr hi
  exact h.read i k ((Finset.mem_filter.mp hmem).2.trans_le (h.counted i))

theorem decode (hdec : r.Decodes want) (hs : convThreadStep r s .decode = some s') :
    ConvInv r want s' := by
  simp only [convThreadStep] at hs
  split at hs
  · next k _ =>
    rw [ite_none_right_eq_some] at hs
    obtain ⟨⟨hk, hall⟩, hs⟩ := hs
    obtain ⟨hout, hlen⟩ := hdec s.helperBufs k s.decodeRhs s.shardRecovered hk fun i hi => h.pieces hall hi
    obtain ⟨⟨rhs, out⟩, hinto, hsnd⟩ := map_eq_some_iff.mp hout
    rw [hinto] at hs
    cases hs
    refine ⟨h.helperSize, h.size, h.read, h.counted, h.arrived, ?_, h.writer, h.returned⟩
    exact ⟨⟨hk, hsnd, hlen⟩, pos_of_ne_zero (Prepared.of_prepare r.prepared).1.ne⟩
  · cases hs

theorem copy (hs : convThreadStep r s .copy = some s') : ConvInv r want s' := by
  simp only [convThreadStep] at hs
  split at hs
  · next k t hpc =>
    cases hs
    obtain ⟨hdec, ht⟩ : r.Decoded want s.shardRecovered k ∧ t < r.failedN := by
      have hmain := h.main
      rwa [hpc] at hmain
    have hend := r.shard_end hdec.lt
    have hlen := hdec.length t ht
    obtain ⟨hself, hmono⟩ := holds_write (h.size t) hend hlen
    have hcells : s.shardRecovered.getD t [] = want t k := by rw [hdec.out_eq, getD_map_range _ ht]
    rw [hcells]
    exact ⟨h.helperSize, length_update_writeAt h.size hend hlen, h.read, h.counted, h.arrived,
      ⟨hdec, ht, hself⟩, fun t' ht' => (h.writer t' ht').mono (hmono t'), h.returned⟩
  · cases hs

theorem mark (hnone : s.returned = none) (hs : convThreadStep r s .mark = some s') :
    ConvInv r want s' := by
  simp only [convThreadStep] at hs
  split at hs
  · next k t hpc =>
    cases hs
    obtain ⟨hdec, ht, hheld⟩ : r.Decoded want s.shardRecovered k ∧ t < r.failedN ∧
        Holds r.stripeByteLen want s.recovered t k := by
      have hmain := h.main
      rwa [hpc] at hmain
    have hws := h.writer t ht
    apply setMain
    · exact h.setWriter hnone fun _ => { hws with
        ready := (forall_update_iff (s.writer t).ready fun k b => b = true →
          Holds r.stripeByteLen want s.recovered t k).mpr ⟨fun _ => hheld, fun k _ => hws.ready k⟩ }
    · split
      · next hnext => exact ⟨hdec, hnext⟩
      · trivial
  · cases hs

theorem producerDone (hnone : s.returned = none)
    (hs : convThreadStep r s (.producerDone target) = some s') : ConvInv r want s' := by
  simp only [convThreadStep] at hs
  split at hs
  · cases hs
    refine h.setWriter hnone fun ht => ?_
    have hws := h.writer target ht
    exact { hws with resting := fun hsend hok => hws.resting hsend (Bool.or_eq_false_iff.mp hok).1 }
  · cases hs

theorem pick (hnone : s.returned = none) (hs : convThreadStep r s (.pick target) = some s') :
    ConvInv r want s' := by
  simp only [convThreadStep, ite_none_right_eq_some] at hs
  obtain ⟨⟨hopen, hok, hrest, -, hready⟩, hs⟩ := hs
  cases hs
  refine h.setWriter hnone fun ht => ?_
  have hws := h.writer target ht
  refine ⟨hws.ready, fun k hk => ?_, by simp, hws.sent, by simp [hopen]⟩
  cases hk
  exact ⟨hws.ready _ hready, hws.resting hrest hok, rfl⟩

theorem write (hnone : s.returned = none) {ok : Bool}
    (hs : convThreadStep r s (.write target ok) = some s') : ConvInv r want s' := by
  simp only [convThreadStep] at hs
  obtain ⟨k, hk, rfl⟩ := map_eq_some_iff.mp hs
  split
  · refine h.setWriter hnone fun ht => ?_
    have hws := h.writer target ht
    obtain ⟨hheld, hsent, hnext⟩ := hws.sending k hk
    have hbytes : readAt (s.recovered target) (k * r.stripeByteLen) r.stripeByteLen = want target k := hheld
    rw [hbytes]
    refine ⟨hws.ready, by simp, fun _ _ => ?_, ?_, fun _ => rfl⟩
    · simp [hnext, hsent]
    · show (s.writer target).sent ++ [want target k] = (range (_ ++ [_]).length).map _
      rw [length_append, length_singleton, range_succ, map_append, ← hws.sent, hsent]
      rfl
  · apply failed
    refine h.setWriter hnone fun ht => ?_
    have hws := h.writer target ht
    exact ⟨hws.ready, by simp, by simp, hws.sent, fun _ => rfl⟩

theorem complete {answered : Bool} (hs : convThreadStep r s (.complete answered) = some s') :
    ConvInv r want s' := by
  simp only [convThreadStep] at hs
  split at hs
  · rw [ite_none_right_eq_some] at hs
    obtain ⟨hended, hs⟩ := hs
    cases hs
    refine ⟨h.helperSize, h.size, h.read, h.counted, h.arrived, h.main, h.writer, fun hret t ht => ?_⟩
    simp only [some.injEq, Bool.and_eq_true, decide_eq_true_eq] at hret
    exact ⟨hended t ht, hret.2 t ht⟩
  · cases hs

theorem step (hdec : r.Decodes want) {e : ConvEvent} (hs : convStep r e s = some s') :
    ConvInv r want s' := by
  rw [convStep, ite_none_right_eq_some] at hs
  obtain ⟨hnone, hs⟩ := hs
  cases e with
  | fail =>
    cases hs
    exact h.failed
  | read i => exact h.readShard hs
  | count i => exact h.count hs
  | decode => exact h.decode hdec hs
  | copy => exact h.copy hs
  | mark => exact h.mark hnone hs
  | join =>
    simp only [convThreadStep] at hs
    split at hs
    · rw [ite_none_right_eq_some] at hs
      cases hs.2
      exact h.setMain trivial
    · cases hs
  | producerDone target => exact h.producerDone hnone hs
  | pick target => exact h.pick hnone hs
  | write target ok => exact h.write hnone hs
  | close target =>
    simp only [convThreadStep, ite_none_right_eq_some] at hs
    cases hs.2
    exact h.setWriter hnone fun ht => { h.writer target ht with ended := fun _ => hs.1.1 }
  | complete answered => exact h.complete hs

end

end ConvInv

/-! ## The range of the failed blocks -/

/-- block `b` of the stripe of `data` -/
def ConvRun.stripe (r : ConvRun) (data : List (List UInt8)) (b : ℕ) : List UInt8 :=
  blockOf (codeword genGlrcMatrix r.cfg.k r.cfg.r r.cfg.z data r.cfg.blockSize) b

/-- shard `k` of failed block `t`, in the range of the call -/
def ConvRun.shardOf (r : ConvRun) (data : List (List UInt8)) (t k : ℕ) : List UInt8 :=
  readAt (r.stripe data (r.req.failedBlockIds.getD t 0)) (r.stripeOff k) r.stripeByteLen

section
variable {r : ConvRun} {data : List (List UInt8)} (hd : DataBlocks r.cfg.k r.cfg.blockSize data)
  (hnd : r.req.failedBlockIds.Nodup)
  (hlt : ∀ b ∈ r.req.failedBlockIds, b < r.cfg.k + r.cfg.r + r.cfg.z)
  (hsel : ∀ e ∈ r.req.selectedEquationIndices, e < r.cfg.z + r.cfg.r)
  (hend : r.req.rangeOffset + r.req.rangeSize ≤ r.cfg.blockSize)
  (hblock : ∀ i < r.helperN, r.block i = r.stripe data (r.req.blockIds.getD i 0))
include hd hnd hlt hsel hend hblock

theorem ConvRun.decodes : r.Decodes (r.shardOf data) := by
  intro bufs k rhs out hk hheld
  obtain ⟨hprep, hterms⟩ := Prepared.of_prepare r.prepared
  have hlast := r.shard_end hk
  rw [Nat.succ_mul] at hlast
  have hfit : r.stripeOff k + r.stripeByteLen ≤ r.cfg.blockSize := by
    unfold stripeOff
    omega
  refine ⟨?_, fun t ht => ?_⟩
  · rw [decodeInto, preparedInto_recovered, hterms]
    refine (decodeHelperCompact_eq hd hnd hlt ⟨hsel, hprep.decodable.1⟩ hprep.inverse hprep.cover
      le_self_add hfit fun j (hj : j < r.helperN) i hi => ?_).trans ?_
    · have hpiece := hheld j hj
      rw [Holds, piece, hblock j hj] at hpiece
      rw [byteAt, getD_map_range _ hj, Nat.add_sub_cancel_left, ← getD_readAt _ _ hi, hpiece,
        getD_readAt _ _ hi]
      rfl
    · exact congrArg some (map_range_eq_map 0 fun t _ => rfl).symm
  · exact length_readAt (by rwa [stripe, length_blockOf_codeword hd (hlt _ (getD_mem ht))])

/-- **The conventional center.**  When the call returns true, the stream of every failed block is its
range, in order and once. -/
theorem conv_sends_range (hdvd : r.stripeByteLen ∣ r.req.rangeSize) {es : List ConvEvent}
    {s : ConvSystem} (hrun : run (convStep r) es (convInit r) = some s) (hret : s.returned = some true)
    {t : ℕ} (ht : t < r.failedN) :
    (s.writer t).sent.flatten =
      readAt (r.stripe data (r.req.failedBlockIds.getD t 0)) r.req.rangeOffset r.req.rangeSize := by
  have hdec := r.decodes hd hnd hlt hsel hend hblock
  have h : ConvInv r (r.shardOf data) s :=
    run_invariant (fun _ _ _ hs => hs.step hdec) (ConvInv.init r _) hrun
  obtain ⟨hended, hok, hnext⟩ := h.returned hret t ht
  have hws := h.writer t ht
  have hcount := hws.resting (hws.ended hended) hok
  have hpiece : ∀ k, r.shardOf data t k =
      readAt ((r.stripe data (r.req.failedBlockIds.getD t 0)).drop r.req.rangeOffset)
        (k * r.stripeByteLen) r.stripeByteLen := by
    intro k
    rw [ConvRun.shardOf, ConvRun.stripeOff, readAt, readAt, drop_drop]
  rw [hws.sent, ← hcount, hnext, ← flatMap_def, flatMap_congr fun k _ => hpiece k, flatMap_readAt,
    ConvRun.localShardCount, Nat.div_mul_cancel hdvd]
  rfl

end

/-- the last two of three shards of block 0, by its local equation -/
def suffixRequest : Phase1Request where
  rangeOffset := 1
  rangeSize := 2
  hybridCommitToken := hmbrCommitToken 0 1
  rangeCommitParts := 2
  failedBlockIds := [0]
  failedBlockKeys := ["s0-b0"]
  replacedNodeIps := ["10.0.0.1"]
  replacedNodePorts := [9000]
  selectedEquationIndices := [0]
  blockIds := [1, 2, 6]

def suffixData : List (List UInt8) := [[1, 2, 3], [4, 5, 6], [7, 8, 9], [10, 11, 12]]

theorem suffix_prepared : (glrcIlpPrepareHelperDecode 4 2 2 [1, 2, 6] [0] [0]).isSome := by decide +kernel

def suffixRun : ConvRun where
  cfg := { k := 4, r := 2, z := 2, blockSize := 3, glrcShardCount := 3 }
  req := suffixRequest
  decodeInverse := ((glrcIlpPrepareHelperDecode 4 2 2 [1, 2, 6] [0] [0]).get suffix_prepared).1
  terms := ((glrcIlpPrepareHelperDecode 4 2 2 [1, 2, 6] [0] [0]).get suffix_prepared).2
  prepared := (some_get suffix_prepared).symm
  block i := blockOf (codeword genGlrcMatrix 4 2 2 suffixData 3) ([1, 2, 6].getD i 0)

def suffixEvents : List ConvEvent :=
  [.read 0, .count 0, .read 1, .read 0, .count 1, .read 2, .count 2, .count 0, .decode, .copy, .mark,
    .pick 0, .read 2, .count 2, .read 1, .write 0 true, .count 1, .decode, .copy, .mark, .join,
    .producerDone 0, .pick 0, .write 0 true, .close 0, .complete true]

/-- one helper is a shard ahead of the others -/
theorem conv_sends_suffix : ∃ s, run (convStep suffixRun) suffixEvents (convInit suffixRun) = some s ∧
    s.returned = some true ∧ (s.writer 0).sent.flatten = [2, 3] := by
  have hrun : (run (convStep suffixRun) suffixEvents (convInit suffixRun)).map (·.returned) =
      some (some true) := by decide +kernel
  obtain ⟨s, hrun, hret⟩ := map_eq_some_iff.mp hrun
  have hd : DataBlocks suffixRun.cfg.k suffixRun.cfg.blockSize suffixData := ⟨by decide, by decide⟩
  exact ⟨s, hrun, hret, (conv_sends_range hd (by decide) (by decide) (by decide) (by decide)
    (fun _ _ => rfl) (by decide) hrun hret (by decide)).trans (by decide +kernel)⟩

end Mlrc
