import Mlrc.Repair.Decode
import Mlrc.Data.Buffer

/-!
# Decoding a byte range from helper buffers

Phase2 prepares the inverse and the helper terms of the equations once and then decodes shard by
shard, from buffers that hold the helpers from a base offset on.

* `glrcIlpPrepareHelperDecode`   the inverse and the terms of every equation;
* `decodeGlrcIlpHelperCompactPrepared`   the sums of the equations, then the inverse;
* `prepareHelperDecode_ok`   a planned repair can be prepared;
* `prepared_buffers`   the bytes of a decoded range;
* `decodeHelperCompact_eq`   a decoded range is that range of the failed blocks.
-/

namespace Mlrc

open Finset Option

/-- `glrc_ilp_prepare_helper_decode`: the inverse, and for every equation the helper indices with
their coefficients; `none` for false -/
def glrcIlpPrepareHelperDecode (k r z : ℕ) (helperBlockIds failed selected : List ℕ) :
    Option (Mat UInt8 × List (List (ℕ × UInt8))) :=
  if failed.length = 0 ∨ selected.length ≠ failed.length ∨ helperBlockIds = [] then none
  else
    match glrcIlpBuildInverse k r z failed selected with
    | none => none
    | some aInv => (selected.mapM (eqHelperTerms k r z helperBlockIds failed)).map fun terms =>
      (aInv, terms)

/-- the right-hand side of one equation, from the helpers behind `helperOff` -/
def helperRhs (helpers : List (List UInt8)) (helperOff rangeLen : ℕ) (indices : List ℕ)
    (gTbls : List UInt8) : Option (List UInt8) :=
  if indices = [] then some (List.replicate rangeLen 0)
  else if gTbls.length ≠ indices.length * 32 then none
  else some ((ecEncodeDataAvx2 rangeLen indices.length 1 gTbls
    (indices.map fun h => (helpers.getD h []).drop helperOff)).getD 0 [])

/-- `decode_glrc_ilp_helper_compact_prepared`; `none` for false -/
def decodeGlrcIlpHelperCompactPrepared (helpers : List (List UInt8)) (eqHelperIndices : List (List ℕ))
    (eqHelperGTbls : List (List UInt8)) (invGTbls : List UInt8)
    (failedCount helperBaseOff rangeOff rangeLen : ℕ) : Option (List (List UInt8)) :=
  if failedCount = 0 ∨ rangeOff < helperBaseOff ∨ eqHelperIndices.length ≠ failedCount ∨
      eqHelperGTbls.length ≠ failedCount ∨ invGTbls.length ≠ failedCount * failedCount * 32 then none
  else if rangeLen = 0 then some (List.replicate failedCount [])
  else
    ((eqHelperIndices.zip eqHelperGTbls).mapM fun p =>
      helperRhs helpers (rangeOff - helperBaseOff) rangeLen p.1 p.2).map fun rhs =>
        ecEncodeDataAvx2 rangeLen failedCount failedCount invGTbls rhs

/-- the tables a partition keeps: one for each equation, and that of the inverse -/
def helperTables (terms : List (List (ℕ × UInt8))) : List (List UInt8) :=
  terms.map fun t => ecInitTables t.length 1 (t.map Prod.snd)

def inverseTable (f : ℕ) (aInv : Mat UInt8) : List UInt8 := ecInitTables f f (rowsFrom 0 f f aInv)

/-! ## Preparation -/

section
variable {k r z : ℕ} {failed selected ids : List ℕ}

theorem prepareHelperDecode_ok (h : Solves k r z failed selected) (hids : ids ≠ [])
    (hcover : ∀ e ∈ selected, ∀ b ∈ eqSurvivors k r z failed e, b ∈ ids) :
    ∃ aInv, glrcIlpBuildInverse k r z failed selected = some aInv ∧
      glrcIlpPrepareHelperDecode k r z ids failed selected =
        some (aInv, selected.map (helperTerms k r z ids failed)) := by
  obtain ⟨aInv, hprep⟩ := h.prepared hcover
  refine ⟨aInv, hprep.inverse, ?_⟩
  unfold glrcIlpPrepareHelperDecode
  rw [if_neg (by simp [hprep.ne, hprep.length_eq, hids]), hprep.inverse, hprep.terms]
  rfl

theorem PlanOk.cover {plan : GlrcIlpRepairPlan} (h : PlanOk k r z failed plan) :
    ∀ e ∈ plan.selectedEquationIndices, ∀ b ∈ eqSurvivors k r z failed e,
      b ∈ plan.helperBlockIds := by
  intro e he b hb
  obtain ⟨hbn, hcoef, hbf⟩ := mem_eqSurvivors.mp hb
  rw [h.helpers]
  exact mem_unionHelpers.mpr
    ⟨⟨e, he, mem_involved_of_coef_ne_zero (h.solves.1 e he) hbn hcoef⟩, hbf⟩

end

/-! ## Decoding -/

theorem length_ecInitTables (k rows : ℕ) (a : List UInt8) :
    (ecInitTables k rows a).length = rows * k * 32 := by
  have hrow : ∀ i, ((List.range k).flatMap fun j => gfVectMulInit (a.getD (i * k + j) 0)).length =
      k * 32 := fun i => length_flatMap_range (fun j => gfVectMulInit_length _) k
  rw [ecInitTables, length_flatMap_range hrow, mul_assoc]

theorem helperRhs_terms (helpers : List (List UInt8)) (helperOff len : ℕ) (terms : List (ℕ × UInt8)) :
    ∃ rhs, helperRhs helpers helperOff len (terms.map Prod.fst)
        (ecInitTables terms.length 1 (terms.map Prod.snd)) = some rhs ∧
      ∀ i < len, Gf.mk (rhs.getD i 0) = (terms.map fun term =>
        Gf.mk term.2 * Gf.mk (byteAt helpers term.1 (helperOff + i))).sum := by
  unfold helperRhs
  by_cases hnil : terms = []
  · subst hnil
    refine ⟨List.replicate len 0, rfl, fun i hi => ?_⟩
    rw [List.getD_eq_getElem _ _ (by simpa using hi), List.getElem_replicate]
    rfl
  · have hlen : (ecInitTables terms.length 1 (terms.map Prod.snd)).length =
        (terms.map Prod.fst).length * 32 := by
      rw [length_ecInitTables, one_mul, List.length_map]
    rw [if_neg (by simpa using hnil), if_neg (not_not.mpr hlen), List.length_map]
    refine ⟨_, rfl, fun i hi => ?_⟩
    have hbyte := byteAt_encodeData (k := terms.length) (terms.map Prod.snd)
      ((terms.map Prod.fst).map fun h => (helpers.getD h []).drop helperOff) one_pos hi
    refine hbyte.trans ?_
    rw [sum_map_eq_sum_range terms (0, 0)]
    refine sum_congr rfl fun j hj => ?_
    have hj := mem_range.mp hj
    rw [zero_mul, zero_add, getD_map_of_lt Prod.snd _ hj (0, 0), byteAt, List.map_map,
      getD_map_of_lt _ _ hj (0, 0)]
    show _ * Gf.mk (((helpers.getD (terms.getD j (0, 0)).1 []).drop helperOff).getD i 0) = _
    rw [getD_drop]
    rfl

section
variable {k r z : ℕ} {failed selected ids : List ℕ} {helpers hb : List (List UInt8)}
  {aInv : Mat UInt8} {blockSize off len base : ℕ}

theorem Buffers.range {f : ℕ} {val : ℕ → ℕ → Gf} {bufs : List (List UInt8)}
    (h : Buffers f blockSize val bufs) (hend : off + len ≤ blockSize) :
    Buffers f len (fun t i => val t (off + i)) (bufs.map fun buf => readAt buf off len) := by
  refine ⟨(List.length_map _).trans h.count, fun buf hbuf => ?_, fun t ht i hi => ?_⟩
  · obtain ⟨b, hb, rfl⟩ := List.mem_map.mp hbuf
    exact length_readAt (by rw [h.size b hb]; exact hend)
  · rw [← h.bytes t ht (off + i) (by omega), byteAt, getD_map_of_lt _ _ (h.count ▸ ht) [],
      getD_readAt _ _ hi]
    rfl

/-- the values of the bytes behind `off` -/
def rangeVal (k r z : ℕ) (ids failed selected : List ℕ) (aInv : Mat UInt8)
    (helpers : List (List UInt8)) (off : ℕ) : ℕ → ℕ → Gf := fun t i =>
  decodedVal k r z ids failed selected aInv helpers t (off + i)

/-- right-hand sides of the equations, on the range -/
def RhsOf (k r z : ℕ) (ids failed selected : List ℕ) (helpers : List (List UInt8)) (off len : ℕ)
    (rhs : List (List UInt8)) : Prop :=
  ∀ j < failed.length, ∀ i < len, Gf.mk (byteAt rhs j i) =
    equationVal k r z ids failed helpers (selected.getD j 0) (off + i)

theorem RhsOf.kernel {rhs : List (List UInt8)} (aInv : Mat UInt8)
    (h : RhsOf k r z ids failed selected helpers off len rhs) :
    Buffers failed.length len (rangeVal k r z ids failed selected aInv helpers off)
      (encodeData len failed.length failed.length
        (rowsFrom 0 failed.length failed.length aInv) rhs) := by
  refine ⟨by simp, fun buf hbuf => length_of_mem_encodeData hbuf, fun t ht i hi => ?_⟩
  rw [byteAt_encodeData _ _ ht hi, rangeVal, decodedVal]
  refine sum_congr rfl fun j hj => ?_
  rw [getD_rowsFrom 0 _ ht (mem_range.mp hj), zero_add, h j (mem_range.mp hj) i hi]

/-- buffers that hold the range of the helpers from a base offset on -/
def HoldsRange (hb helpers : List (List UInt8)) (count base off len : ℕ) : Prop :=
  ∀ j < count, ∀ i < len, byteAt hb j (off - base + i) = byteAt helpers j (off + i)

theorem helperRhs_rhs (hhold : HoldsRange hb helpers ids.length base off len) {e : ℕ}
    (hcover : ∀ b ∈ eqSurvivors k r z failed e, b ∈ ids) :
    ∃ rhs, helperRhs hb (off - base) len ((helperTerms k r z ids failed e).map Prod.fst)
        (ecInitTables (helperTerms k r z ids failed e).length 1
          ((helperTerms k r z ids failed e).map Prod.snd)) = some rhs ∧
      ∀ i < len, Gf.mk (rhs.getD i 0) = equationVal k r z ids failed helpers e (off + i) := by
  obtain ⟨rhs, hrhs, hbytes⟩ := helperRhs_terms hb (off - base) len (helperTerms k r z ids failed e)
  refine ⟨rhs, hrhs, fun i hi => (hbytes i hi).trans ?_⟩
  refine congrArg List.sum (List.map_congr_left fun term hterm => ?_)
  rw [hhold term.1 (helperTerms_lt hcover hterm) i hi]

/-- a zero range, or the equations one by one and then the inverse -/
theorem Prepared.compact_buffers (h : Prepared k r z ids failed selected aInv)
    {f : ℕ → Option (List UInt8)} (hf : ∀ e ∈ selected, ∃ rhs, f e = some rhs ∧
      ∀ i < len, Gf.mk (rhs.getD i 0) = equationVal k r z ids failed helpers e (off + i)) :
    ∃ out, (if len = 0 then some (List.replicate failed.length []) else (selected.mapM f).map fun rhs =>
        encodeData len failed.length failed.length
          (rowsFrom 0 failed.length failed.length aInv) rhs) = some out ∧
      Buffers failed.length len (rangeVal k r z ids failed selected aInv helpers off) out := by
  by_cases hzero : len = 0
  · subst hzero
    rw [if_pos rfl]
    refine ⟨_, rfl, by simp, fun buf hbuf => ?_, fun t _ i hi => absurd hi (Nat.not_lt_zero i)⟩
    rw [List.eq_of_mem_replicate hbuf]
    rfl
  · obtain ⟨rhs, hmap, hall⟩ := exists_mapM hf
    rw [if_neg hzero, hmap]
    refine ⟨_, rfl, RhsOf.kernel aInv fun j hj i hi => ?_⟩
    exact forall₂_getD hall (h.length_eq ▸ hj) 0 [] i hi

theorem prepared_buffers (h : Prepared k r z ids failed selected aInv) (hbase : base ≤ off)
    (hhold : HoldsRange hb helpers ids.length base off len) :
    ∃ out, decodeGlrcIlpHelperCompactPrepared hb
        ((selected.map (helperTerms k r z ids failed)).map fun t => t.map Prod.fst)
        (helperTables (selected.map (helperTerms k r z ids failed)))
        (inverseTable failed.length aInv) failed.length base off len = some out ∧
      Buffers failed.length len (rangeVal k r z ids failed selected aInv helpers off) out := by
  unfold decodeGlrcIlpHelperCompactPrepared
  rw [if_neg (by
    simp only [List.length_map, helperTables, inverseTable, length_ecInitTables, not_or, not_not]
    exact ⟨h.ne, by omega, h.length_eq, h.length_eq, trivial⟩), helperTables, List.map_map,
    List.map_map, List.zip_map', List.mapM_map]
  exact h.compact_buffers fun e he => helperRhs_rhs hhold (h.cover e he)

/-- **A decoded range.**  From helper buffers that hold the range of their blocks, the prepared decoder
computes the range of every failed block. -/
theorem decodeHelperCompact_eq {data : List (List UInt8)} (hd : DataBlocks k blockSize data)
    (hnd : failed.Nodup) (hlt : ∀ b ∈ failed, b < k + r + z) (h : Solves k r z failed selected)
    (hinv : glrcIlpBuildInverse k r z failed selected = some aInv)
    (hcover : ∀ e ∈ selected, ∀ b ∈ eqSurvivors k r z failed e, b ∈ ids)
    {helpers : List (List UInt8)} (hbase : base ≤ off) (hend : off + len ≤ blockSize)
    (hhelp : ∀ j < ids.length, ∀ i < len, byteAt helpers j (off - base + i) =
      byteAt (codeword genGlrcMatrix k r z data blockSize) (ids.getD j 0) (off + i)) :
    decodeGlrcIlpHelperCompactPrepared helpers
        ((selected.map (helperTerms k r z ids failed)).map fun t => t.map Prod.fst)
        (helperTables (selected.map (helperTerms k r z ids failed))) (inverseTable failed.length aInv)
        failed.length base off len = some (failed.map fun b =>
        readAt (blockOf (codeword genGlrcMatrix k r z data blockSize) b) off len) := by
  obtain ⟨aInv', hprep⟩ := h.prepared hcover
  obtain rfl : aInv = aInv' := some.inj (hinv.symm.trans hprep.inverse)
  have hhold : HoldsRange helpers (ids.map (blockOf (codeword genGlrcMatrix k r z data blockSize)))
      ids.length base off len := by
    intro j hj i hi
    rw [hhelp j hj i hi, byteAt_map_blockOf _ _ hj]
  obtain ⟨out, hout, hbuf⟩ := prepared_buffers hprep hbase hhold
  rw [hout, hbuf.unique ((hprep.failed_buffers hd hnd hlt h.1).range hend), List.map_map]
  rfl

end

end Mlrc
