import Mlrc.Repair.Solve

/-!
# Decoding a repair plan

`decodeGlrcIlp` folds the inverse of the failed blocks' matrix and the helper coefficients into one
matrix and applies the encode kernel to the helpers.

* `helperTerms_sum`   the terms of an equation sum to its survivors;
* `directRow_mul`, `decodeGlrcIlp_buffers`   the recovered bytes, as the two products the source folds
  into one;
* `unionHelpers_ne_nil`   a planned repair always has a helper;
* `Prepared.failed_buffers`   these are the bytes of the failed blocks;
* `repair_sound`   a planned repair decodes to the failed blocks.
-/

namespace Mlrc

open Finset Option

variable {ids : List ℕ} {b e : ℕ}

/-- the map `helper_pos`: a later entry overwrites an earlier one -/
def helperPos (helperBlockIds : List ℕ) (b : ℕ) : Option ℕ :=
  (List.range helperBlockIds.length).foldl
    (fun pos i => if helperBlockIds.getD i 0 = b then some i else pos) none

/-- the helper terms of an equation: index of the helper and coefficient; `none` if a surviving
block with a coefficient is not among the helpers -/
def eqHelperTerms (k r z : ℕ) (helperBlockIds failed : List ℕ) (e : ℕ) : Option (List (ℕ × UInt8)) :=
  ((List.range (k + r + z)).filter fun b => coef k r z e b ≠ 0 ∧ b ∉ failed).mapM fun b =>
    (helperPos helperBlockIds b).map fun i => (i, coef k r z e b)

/-- row `target` of the direct decode matrix: `^= inverse_coef * coef` over the terms of every
equation, skipping zero inverse coefficients -/
def directRow (f : ℕ) (aInv : Mat UInt8) (terms : List (List (ℕ × UInt8))) (target : ℕ) : ℕ → UInt8 :=
  (List.range f).foldl (fun row equation =>
    if aInv target equation = 0 then row
    else (terms.getD equation []).foldl (fun row term => fun h =>
      if h = term.1 then row h ^^^ gfMul (aInv target equation) term.2 else row h) row)
    fun _ => 0

/-- `decode_glrc_ilp`; `none` for false -/
def decodeGlrcIlp (k r z blockSize : ℕ) (helperBlockIds : List ℕ) (helpers : List (List UInt8))
    (failed selected : List ℕ) : Option (List (List UInt8)) :=
  let f := failed.length
  if f = 0 ∨ selected.length ≠ f then none
  else
    match glrcIlpBuildInverse k r z failed selected with
    | none => none
    | some aInv =>
      match selected.mapM (eqHelperTerms k r z helperBlockIds failed) with
      | none => none
      | some terms =>
        let helperCount := helperBlockIds.length
        if helperCount = 0 then none
        else some (encodeData blockSize helperCount f
          (rowsFrom 0 f helperCount (directRow f aInv terms)) helpers)

/-! ## Helper positions -/

theorem helperPos_some {i : ℕ} (h : helperPos ids b = some i) :
    i < ids.length ∧ ids.getD i 0 = b := by
  have := foldl_range_induct (fun pos i => if ids.getD i 0 = b then some i else pos)
    (fun _ (pos : Option ℕ) => ∀ i, pos = some i → i < ids.length ∧ ids.getD i 0 = b) ids.length
    (s := none) (fun i h => by cases h) (fun j pos hj hpos i hi => by
      split at hi
      · next hb =>
        cases hi
        exact ⟨hj, hb⟩
      · exact hpos i hi)
  exact this i h

theorem helperPos_isSome (hb : b ∈ ids) : (helperPos ids b).isSome := by
  obtain ⟨t, ht, hval⟩ := exists_getD_of_mem hb
  have := foldl_range_induct (fun pos i => if ids.getD i 0 = b then some i else pos)
    (fun j (pos : Option ℕ) => t < j → pos.isSome) ids.length (s := none)
    (fun h => absurd h (Nat.not_lt_zero _)) (fun j pos _ hpos htj => by
      split
      · rfl
      · next hne =>
        refine hpos (lt_of_le_of_ne (Nat.le_of_lt_succ htj) fun h => hne ?_)
        rw [← h]
        exact hval)
  exact this ht

/-! ## The terms of an equation -/

/-- the survivors with a coefficient in equation `e` -/
def eqSurvivors (k r z : ℕ) (failed : List ℕ) (e : ℕ) : List ℕ :=
  (List.range (k + r + z)).filter fun b => coef k r z e b ≠ 0 ∧ b ∉ failed

/-- the terms, once every survivor is known to be a helper -/
def helperTerms (k r z : ℕ) (ids failed : List ℕ) (e : ℕ) : List (ℕ × UInt8) :=
  (eqSurvivors k r z failed e).map fun b => ((helperPos ids b).getD 0, coef k r z e b)

section
variable {k r z : ℕ} {ids failed : List ℕ}

section
variable (h : ∀ b ∈ eqSurvivors k r z failed e, b ∈ ids)
include h

theorem eqHelperTerms_eq :
    eqHelperTerms k r z ids failed e = some (helperTerms k r z ids failed e) := by
  refine mapM_eq_some_map fun b hb => ?_
  obtain ⟨i, hi⟩ := isSome_iff_exists.mp (helperPos_isSome (h b hb))
  rw [hi]
  rfl

theorem helperTerms_lt {term : ℕ × UInt8}
    (ht : term ∈ helperTerms k r z ids failed e) : term.1 < ids.length := by
  obtain ⟨b, hb, rfl⟩ := List.mem_map.mp ht
  obtain ⟨i, hi⟩ := isSome_iff_exists.mp (helperPos_isSome (h b hb))
  rw [hi]
  exact (helperPos_some hi).1

theorem helperTerms_sum (c : ℕ → Gf) :
    ((helperTerms k r z ids failed e).map fun term => Gf.mk term.2 * c (ids.getD term.1 0)).sum =
      survivorSum k r z failed e c := by
  have hterm : (helperTerms k r z ids failed e).map
      (fun term => Gf.mk term.2 * c (ids.getD term.1 0)) =
      (eqSurvivors k r z failed e).map fun b => Gf.mk (coef k r z e b) * c b := by
    rw [helperTerms, List.map_map]
    refine List.map_congr_left fun b hb => ?_
    obtain ⟨i, hi⟩ := isSome_iff_exists.mp (helperPos_isSome (h b hb))
    show Gf.mk (coef k r z e b) * c (ids.getD ((helperPos ids b).getD 0) 0) = _
    rw [hi, getD_some, (helperPos_some hi).2]
  have hnd : (eqSurvivors k r z failed e).Nodup := List.nodup_range.filter _
  rw [hterm, ← List.sum_toFinset _ hnd, survivorSum]
  -- blocks without a coefficient do not count
  refine sum_subset (fun b hb => ?_) fun b hb hb' => ?_
  · simp only [eqSurvivors, List.mem_toFinset, List.mem_filter, List.mem_range, decide_eq_true_eq,
      mem_filter, mem_range] at hb ⊢
    exact ⟨hb.1, hb.2.2⟩
  · simp only [eqSurvivors, List.mem_toFinset, List.mem_filter, List.mem_range, decide_eq_true_eq,
      mem_filter, mem_range, not_and, not_not] at hb hb'
    have h0 : coef k r z e b = 0 := by
      by_contra hne
      exact hb.2 (hb' hb.1 hne)
    rw [h0, Gf.mk_zero, zero_mul]

end

end

/-! ## The direct matrix -/

theorem foldl_terms (a : UInt8) (terms : List (ℕ × UInt8)) (row : ℕ → UInt8) (h : ℕ) :
    Gf.mk (terms.foldl (fun row term => fun h =>
      if h = term.1 then row h ^^^ gfMul a term.2 else row h) row h) =
    Gf.mk (row h) + (terms.map fun term => if h = term.1 then Gf.mk a * Gf.mk term.2 else 0).sum := by
  induction terms generalizing row with
  | nil => simp
  | cons term terms ih =>
    rw [List.foldl_cons, ih, List.map_cons, List.sum_cons, ← add_assoc]
    congr 1
    split
    · rw [Gf.mk_xor, Gf.mk_gfMul]
    · rw [add_zero]

theorem mk_directRow (f : ℕ) (aInv : Mat UInt8) (terms : List (List (ℕ × UInt8))) (target h : ℕ) :
    Gf.mk (directRow f aInv terms target h) = ∑ e ∈ range f, ((terms.getD e []).map fun term =>
      if h = term.1 then Gf.mk (aInv target e) * Gf.mk term.2 else 0).sum := by
  unfold directRow
  induction f with
  | zero => rfl
  | succ f ih =>
    rw [foldl_range_succ, sum_range_succ, ← ih]
    split
    · next h0 =>
      rw [h0, Gf.mk_zero]
      simp
    · exact foldl_terms _ _ _ _

theorem sum_terms_mul {helperCount : ℕ} (a : Gf) (l : List (ℕ × UInt8))
    (hlt : ∀ term ∈ l, term.1 < helperCount) (y : ℕ → Gf) : ∑ h ∈ range helperCount,
      (l.map fun term => if h = term.1 then a * Gf.mk term.2 else 0).sum * y h =
    a * (l.map fun term => Gf.mk term.2 * y term.1).sum := by
  induction l with
  | nil => simp
  | cons term l ih =>
    have hterm := hlt term List.mem_cons_self
    have hhead : ∑ h ∈ range helperCount, (if h = term.1 then a * Gf.mk term.2 else 0) * y h =
        a * (Gf.mk term.2 * y term.1) := by
      simp only [ite_mul, zero_mul, sum_ite_eq', mem_range, hterm, if_true, mul_assoc]
    simp only [List.map_cons, List.sum_cons, add_mul, sum_add_distrib, mul_add]
    rw [hhead, ih fun t ht => hlt t (List.mem_cons_of_mem _ ht)]

theorem directRow_mul {f helperCount : ℕ} (aInv : Mat UInt8) {terms : List (List (ℕ × UInt8))}
    (hlt : ∀ e < f, ∀ term ∈ terms.getD e [], term.1 < helperCount) (target : ℕ) (y : ℕ → Gf) :
    ∑ h ∈ range helperCount, Gf.mk (directRow f aInv terms target h) * y h =
      ∑ e ∈ range f, Gf.mk (aInv target e) *
        ((terms.getD e []).map fun term => Gf.mk term.2 * y term.1).sum := by
  simp only [mk_directRow, sum_mul]
  rw [sum_comm]
  exact sum_congr rfl fun e he => sum_terms_mul _ _ (hlt e (mem_range.mp he)) y

/-! ## A planned repair -/

section
variable {k r z : ℕ} {failed selected : List ℕ}

def parityOf (k r z e : ℕ) : ℕ := if e < z then k + r + e else k + (e - z)

theorem parityOf_mem_involved (he : e < z + r) :
    parityOf k r z e ∈ involvedBlocks (allEquations k r z) e := by
  unfold parityOf
  split
  · next hez =>
    rw [involvedBlocks_local hez]
    exact (mem_placementGroup_parity hez).mpr rfl
  · obtain ⟨j, rfl⟩ := Nat.exists_eq_add_of_le (Nat.le_of_not_lt ‹_›)
    rw [involvedBlocks_global (by omega), Nat.add_sub_cancel_left]
    exact List.mem_append_right _ List.mem_cons_self

theorem parityOf_injOn {e' : ℕ} (he : e < z + r) (he' : e' < z + r)
    (h : parityOf k r z e = parityOf k r z e') : e = e' := by
  unfold parityOf at h
  split_ifs at h <;> omega

theorem exists_payload_mem {g : ℕ} (hzle : z ≤ k + r) (hg : g < z) :
    ∃ b < k + r, b ∈ (glrcBuildPlacementGroups k r z).getD g [] := by
  have hz : 0 < z := by omega
  have hsize : 0 < glrcPayloadBlocksInGroup g k r z := by
    rw [glrcPayloadBlocksInGroup_eq hg]
    exact lt_of_lt_of_le (Nat.div_pos hzle hz) le_self_add
  have hend := payloadEnd_le k r hg
  refine ⟨payloadStart g k r z, by omega, ?_⟩
  rw [getD_glrcBuildPlacementGroups hg]
  exact List.mem_append_left _ (List.mem_range'_1.mpr ⟨le_rfl, by omega⟩)

theorem exists_nonparity (hk : 1 ≤ k) (hzle : z ≤ k + r) (hsel : ∀ e ∈ selected, e < z + r)
    (hne : selected ≠ []) : ∃ e ∈ selected, ∃ b ∈ involvedBlocks (allEquations k r z) e,
      ∀ e' ∈ selected, parityOf k r z e' ≠ b := by
  by_cases hglobal : ∃ e ∈ selected, z ≤ e
  · -- a global equation involves data block 0
    obtain ⟨e, he, hze⟩ := hglobal
    obtain ⟨j, rfl⟩ := exists_add_of_le hze
    refine ⟨_, he, 0, ?_, fun e' _ h => ?_⟩
    · rw [involvedBlocks_global (by have := hsel _ he; omega)]
      exact List.mem_append_left _ (List.mem_range.mpr hk)
    · unfold parityOf at h
      split_ifs at h <;> omega
  · -- with local equations only, a payload block of one of the groups will do
    push Not at hglobal
    obtain ⟨e, he⟩ := List.exists_mem_of_ne_nil selected hne
    obtain ⟨b, hb, hmem⟩ := exists_payload_mem (r := r) hzle (hglobal e he)
    refine ⟨e, he, b, ?_, fun e' he' h => ?_⟩
    · rw [involvedBlocks_local (hglobal e he)]
      exact hmem
    · unfold parityOf at h
      rw [if_pos (hglobal e' he')] at h
      omega

theorem unionHelpers_ne_nil (hk : 1 ≤ k) (hzle : z ≤ k + r) (h : Solves k r z failed selected)
    (hne : failed ≠ []) : unionHelpers selected (allEquations k r z) failed ≠ [] := by
  intro hnil
  have hall : ∀ e ∈ selected, ∀ b ∈ involvedBlocks (allEquations k r z) e, b ∈ failed := by
    intro e he b hb
    by_contra hbf
    have hmem : b ∈ unionHelpers selected (allEquations k r z) failed :=
      mem_unionHelpers.mpr ⟨⟨e, he, hb⟩, hbf⟩
    rw [hnil] at hmem
    cases hmem
  have hselne : selected ≠ [] := by
    intro h0
    have hlen := h.length_eq
    rw [h0] at hlen
    exact hne (List.length_eq_zero_iff.mp hlen.symm)
  obtain ⟨e, he, b, hb, hfresh⟩ := exists_nonparity hk hzle h.1 hselne
  have hnd : (b :: selected.map (parityOf k r z)).Nodup := by
    refine List.nodup_cons.mpr ⟨fun hmem => ?_, ?_⟩
    · obtain ⟨e', he', hpe⟩ := List.mem_map.mp hmem
      exact hfresh e' he' hpe
    · exact List.Nodup.map_on (fun e he e' he' hee => parityOf_injOn (h.1 e he) (h.1 e' he') hee)
        h.nodup
  have hsub : b :: selected.map (parityOf k r z) ⊆ failed := by
    refine List.cons_subset.mpr ⟨hall e he b hb, fun b' hb' => ?_⟩
    obtain ⟨e', he', rfl⟩ := List.mem_map.mp hb'
    exact hall e' he' _ (parityOf_mem_involved (h.1 e' he'))
  have hcount := (List.subperm_of_subset hnd hsub).length_le
  rw [List.length_cons, List.length_map, h.length_eq] at hcount
  omega

theorem byteAt_map_blockOf (blocks : List (List UInt8)) (ids : List ℕ) {t : ℕ} (ht : t < ids.length)
    (i : ℕ) : byteAt (ids.map (blockOf blocks)) t i = byteAt blocks (ids.getD t 0) i := by
  rw [byteAt, getD_map_of_lt _ _ ht 0 []]
  rfl

theorem mem_eqSurvivors :
    b ∈ eqSurvivors k r z failed e ↔ b < k + r + z ∧ coef k r z e b ≠ 0 ∧ b ∉ failed := by
  simp [eqSurvivors]

/-! ## The decoded bytes -/

/-- `f` buffers of `len` bytes with given values -/
structure Buffers (f len : ℕ) (val : ℕ → ℕ → Gf) (bufs : List (List UInt8)) : Prop where
  count : bufs.length = f
  size : ∀ buf ∈ bufs, buf.length = len
  bytes : ∀ t < f, ∀ i < len, Gf.mk (byteAt bufs t i) = val t i

theorem Buffers.eq_iff {f len : ℕ} {v w : ℕ → ℕ → Gf} {x y : List (List UInt8)}
    (hx : Buffers f len v x) (hy : Buffers f len w y) :
    x = y ↔ ∀ t < f, ∀ i < len, v t i = w t i := by
  refine ⟨fun heq t ht i hi => ?_, fun heq =>
    buffers_ext (hx.count.trans hy.count.symm) hx.size hy.size fun t ht i hi => ?_⟩
  · rw [← hx.bytes t ht i hi, heq, hy.bytes t ht i hi]
  · rw [hx.count] at ht
    rw [← Gf.mk_inj, hx.bytes t ht i hi, hy.bytes t ht i hi, heq t ht i hi]

theorem Buffers.unique {f len : ℕ} {val : ℕ → ℕ → Gf} {x y : List (List UInt8)}
    (hx : Buffers f len val x) (hy : Buffers f len val y) : x = y :=
  (hx.eq_iff hy).mpr fun _ _ _ _ => rfl

/-- the value of the right-hand side of equation `e` at a byte of the helpers -/
def equationVal (k r z : ℕ) (ids failed : List ℕ) (helpers : List (List UInt8)) (e pos : ℕ) : Gf :=
  ((helperTerms k r z ids failed e).map fun term =>
    Gf.mk term.2 * Gf.mk (byteAt helpers term.1 pos)).sum

/-- the value of a byte of target `t`: the inverse applied to the sums of the equations -/
def decodedVal (k r z : ℕ) (ids failed selected : List ℕ) (aInv : Mat UInt8)
    (helpers : List (List UInt8)) (t pos : ℕ) : Gf :=
  ∑ j ∈ range failed.length, Gf.mk (aInv t j) *
    equationVal k r z ids failed helpers (selected.getD j 0) pos

/-- a system that can be decoded, with its inverse -/
structure Prepared (k r z : ℕ) (ids failed selected : List ℕ) (aInv : Mat UInt8) : Prop where
  ne : failed.length ≠ 0
  length_eq : selected.length = failed.length
  inverse : glrcIlpBuildInverse k r z failed selected = some aInv
  cover : ∀ e ∈ selected, ∀ b ∈ eqSurvivors k r z failed e, b ∈ ids

theorem Solves.prepared (h : Solves k r z failed selected)
    (hcover : ∀ e ∈ selected, ∀ b ∈ eqSurvivors k r z failed e, b ∈ ids) :
    ∃ aInv, Prepared k r z ids failed selected aInv := by
  obtain ⟨hne, hlen, hns⟩ := glrcIlpDecodeMatrixInvertible_iff.mp h.2
  obtain ⟨aInv, hinv⟩ := isSome_iff_exists.mp (glrcIlpBuildInverse_isSome_iff.mpr hns)
  exact ⟨aInv, fun h0 => hne (List.length_eq_zero_iff.mp h0), hlen, hinv, hcover⟩

section
variable {aInv : Mat UInt8} {blockSize : ℕ} (h : Prepared k r z ids failed selected aInv)
include h

theorem Prepared.guard : ¬(failed.length = 0 ∨ selected.length ≠ failed.length) :=
  not_or.mpr ⟨h.ne, not_not.mpr h.length_eq⟩

theorem Prepared.terms : selected.mapM (eqHelperTerms k r z ids failed) =
      some (selected.map (helperTerms k r z ids failed)) :=
  mapM_eq_some_map fun e he => eqHelperTerms_eq (h.cover e he)

theorem decodeGlrcIlp_buffers (hids : ids ≠ []) (helpers : List (List UInt8)) :
    ∃ full, decodeGlrcIlp k r z blockSize ids helpers failed selected = some full ∧
      Buffers failed.length blockSize (decodedVal k r z ids failed selected aInv helpers) full := by
  have hcount : ids.length ≠ 0 := fun h => hids (List.length_eq_zero_iff.mp h)
  unfold decodeGlrcIlp
  simp only
  rw [if_neg h.guard, h.inverse, h.terms]
  simp only
  rw [if_neg hcount]
  refine ⟨_, rfl, by simp, fun buf hbuf => length_of_mem_encodeData hbuf, fun t ht i hi => ?_⟩
  have hterms : ∀ e < failed.length, (selected.map (helperTerms k r z ids failed)).getD e [] =
      helperTerms k r z ids failed (selected.getD e 0) :=
    fun e he => getD_map_of_lt _ _ (h.length_eq ▸ he) 0 []
  calc Gf.mk (byteAt (encodeData _ _ _ _ _) t i)
      = ∑ j ∈ range ids.length,
          Gf.mk (directRow failed.length aInv (selected.map (helperTerms k r z ids failed)) t j) *
            Gf.mk (byteAt helpers j i) := by
        rw [byteAt_encodeData _ _ ht hi]
        exact sum_congr rfl fun j hj => by rw [getD_rowsFrom 0 _ ht (mem_range.mp hj), zero_add]
    _ = decodedVal k r z ids failed selected aInv helpers t i := by
        rw [directRow_mul aInv (fun e he term hterm => ?_) t fun j => Gf.mk (byteAt helpers j i)]
        · exact sum_congr rfl fun e he => by rw [hterms e (mem_range.mp he)]; rfl
        · rw [hterms e he] at hterm
          exact helperTerms_lt (h.cover _ (getD_mem (h.length_eq ▸ he))) hterm

/-- from the blocks of a stripe the failed blocks are decoded -/
theorem Prepared.failed_buffers {data : List (List UInt8)} (hd : DataBlocks k blockSize data)
    (hnd : failed.Nodup) (hlt : ∀ b ∈ failed, b < k + r + z) (hsel : ∀ e ∈ selected, e < z + r) :
    Buffers failed.length blockSize (decodedVal k r z ids failed selected aInv
      (ids.map (blockOf (codeword genGlrcMatrix k r z data blockSize))))
      (failed.map (blockOf (codeword genGlrcMatrix k r z data blockSize))) := by
  set cw := codeword genGlrcMatrix k r z data blockSize with hcw
  refine ⟨List.length_map _, fun buf hbuf => ?_, fun t ht i hi => ?_⟩
  · obtain ⟨f, hf, rfl⟩ := List.mem_map.mp hbuf
    exact length_blockOf_codeword hd (hlt f hf)
  · let c : ℕ → Gf := fun b => Gf.mk (byteAt cw b i)
    rw [byteAt_map_blockOf cw failed ht]
    refine (inverse_survivorSum (isCodeword_byteAt hd hi : IsCodeword k r z c) hnd hlt hsel h.length_eq
      h.inverse ht).symm.trans (sum_congr rfl fun e he => ?_)
    have hcover := h.cover _ (getD_mem (h.length_eq ▸ mem_range.mp he))
    rw [← helperTerms_sum hcover c, equationVal]
    refine congrArg (_ * List.sum ·) (List.map_congr_left fun term hterm => ?_)
    rw [byteAt_map_blockOf cw ids (helperTerms_lt hcover hterm)]

end

theorem decodeGlrcIlp_eq {blockSize : ℕ} {data : List (List UInt8)}
    (hd : DataBlocks k blockSize data) (hnd : failed.Nodup) (hlt : ∀ b ∈ failed, b < k + r + z)
    (h : Solves k r z failed selected) (hids : ids ≠ [])
    (hcover : ∀ e ∈ selected, ∀ b ∈ eqSurvivors k r z failed e, b ∈ ids) :
    decodeGlrcIlp k r z blockSize ids
      (ids.map (blockOf (codeword genGlrcMatrix k r z data blockSize))) failed selected =
    some (failed.map (blockOf (codeword genGlrcMatrix k r z data blockSize))) := by
  obtain ⟨aInv, hprep⟩ := h.prepared hcover
  obtain ⟨full, hfull, hbuf⟩ := decodeGlrcIlp_buffers hprep hids
    (ids.map (blockOf (codeword genGlrcMatrix k r z data blockSize)))
  rw [hfull, hbuf.unique (hprep.failed_buffers hd hnd hlt h.1)]

end

/-- **Repair soundness.**  Whatever policy planned the repair, the helpers are surviving blocks, and
decoding them with the planned equations gives back every failed block. -/
theorem repair_sound (S : StdSort) {k r z : ℕ} (hk : 1 ≤ k) (hz : 1 ≤ z) (hzle : z ≤ k + r)
    {blockSize : ℕ} {data : List (List UInt8)} (hd : DataBlocks k blockSize data) {failed : List ℕ}
    (hnd : failed.Nodup) (hlt : ∀ b ∈ failed, b < k + r + z) {policy : String}
    {plan : GlrcIlpRepairPlan} (hplan : glrcSolveRepairPlan S k r z failed policy = (true, plan)) :
    (∀ b ∈ plan.helperBlockIds, b < k + r + z ∧ b ∉ failed) ∧
    decodeGlrcIlp k r z blockSize plan.helperBlockIds
      (plan.helperBlockIds.map (blockOf (data ++ encodeGlrc k r z data blockSize))) failed
      plan.selectedEquationIndices =
    some (failed.map (blockOf (data ++ encodeGlrc k r z data blockSize))) := by
  have hok := glrcSolveRepairPlan_ok S hz hplan
  have hne : failed ≠ [] := (glrcIlpDecodeMatrixInvertible_iff.mp hok.solves.2).1
  rw [hok.helpers]
  refine ⟨fun b hb => ?_, decodeGlrcIlp_eq hd hnd hlt hok.solves
    (unionHelpers_ne_nil hk hzle hok.solves hne) fun e he b hb => ?_⟩
  · obtain ⟨⟨e, he, hb⟩, hbf⟩ := mem_unionHelpers.mp hb
    exact ⟨lt_of_mem_involved (hok.solves.1 e he) hb, hbf⟩
  · obtain ⟨hbn, hcoef, hbf⟩ := mem_eqSurvivors.mp hb
    exact mem_unionHelpers.mpr
      ⟨⟨e, he, mem_involved_of_coef_ne_zero (hok.solves.1 e he) hbn hcoef⟩, hbf⟩

theorem repair_sound_four_two_two :
    decodeGlrcIlp 4 2 2 2 [1, 2, 5, 6]
      ([1, 2, 5, 6].map (blockOf ([[1, 2], [3, 4], [5, 6], [7, 8]] ++
        encodeGlrc 4 2 2 [[1, 2], [3, 4], [5, 6], [7, 8]] 2))) [0, 3, 4] [0, 2, 3] =
    some ([0, 3, 4].map (blockOf ([[1, 2], [3, 4], [5, 6], [7, 8]] ++
        encodeGlrc 4 2 2 [[1, 2], [3, 4], [5, 6], [7, 8]] 2))) := by
  have hplan : glrcSolveRepairPlan StdSort.insertion 4 2 2 [0, 3, 4] "ilp" =
      (true, { success := true, failedBlockIds := [0, 3, 4], selectedEquations := ["L0", "G0", "G1"],
               selectedEquationIndices := [0, 2, 3], helperBlockIds := [1, 2, 5, 6],
               helperBlockCount := 4 }) := by decide +kernel
  exact (repair_sound StdSort.insertion (by decide) (by decide) (by decide)
    ⟨by decide, by decide⟩ (by decide) (by decide) hplan).2

end Mlrc
