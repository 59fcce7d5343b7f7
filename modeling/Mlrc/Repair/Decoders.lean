import Mlrc.Repair.HelperDecode
import Mlrc.Pipeline.HubDecode

/-!
# The decode routines agree

Six routines compute the lost blocks, or a range of them, from the helpers or from the right-hand
sides of the equations.  They fold the two products into one matrix, run the kernel twice, or loop
over the bytes; some write into buffers that were used before.

* `decodeGlrcIlpRange`, `decodeGlrcIlpRhsRange`   a range inside blocks, byte by byte;
* `decodeGlrcIlpHelperCompact`   a range from helper buffers, tables built on the way;
* `helperCompactPreparedInto`   the same with prepared tables and reused buffers;
* `Decodable`   what a decode needs;
* `decoders_agree`   they succeed together, with the same bytes.
-/

namespace Mlrc

open Finset Option

/-! ## The routines -/

/-- the right-hand side of an equation at one byte: `rhs ^= coef * helper` over its terms -/
def termsRhs (helpers : List (List UInt8)) (terms : List (ℕ × UInt8)) (pos : ℕ) : UInt8 :=
  terms.foldl (fun rhs term => rhs ^^^ gfMul term.2 (byteAt helpers term.1 pos)) 0

/-- `decode_glrc_ilp_range`; `fresh t` is what stands in the new buffer of target `t`, whose bytes
outside the range are not written.  `none` for false -/
def decodeGlrcIlpRange (k r z blockSize : ℕ) (helperBlockIds : List ℕ) (helpers : List (List UInt8))
    (failed selected : List ℕ) (rangeOff rangeLen : ℕ) (fresh : ℕ → List UInt8) :
    Option (List (List UInt8)) :=
  let f := failed.length
  if blockSize < rangeOff + rangeLen then none
  else if rangeLen = 0 then some ((List.range f).map fresh)
  else if f = 0 ∨ selected.length ≠ f then none
  else
    match glrcIlpBuildInverse k r z failed selected with
    | none => none
    | some aInv =>
      match selected.mapM (eqHelperTerms k r z helperBlockIds failed) with
      | none => none
      | some terms => some ((List.range f).map fun t => writeAt (fresh t) rangeOff
          ((List.range rangeLen).map fun i =>
            inverseByte f aInv (fun ei => termsRhs helpers (terms.getD ei []) (rangeOff + i)) t))

/-- `decode_glrc_ilp_rhs_range`; `none` for false -/
def decodeGlrcIlpRhsRange (k r z blockSize : ℕ) (rhs : List (List UInt8)) (failed selected : List ℕ)
    (rangeOff rangeLen : ℕ) : Option (List (List UInt8)) :=
  let f := failed.length
  if blockSize < rangeOff + rangeLen then none
  else if f = 0 ∨ selected.length ≠ f then none
  else
    match glrcIlpBuildInverse k r z failed selected with
    | none => none
    | some aInv => some ((List.range f).map fun t => writeAt (List.replicate blockSize 0) rangeOff
        ((List.range rangeLen).map fun i =>
          inverseByte f aInv (fun ei => byteAt rhs ei (rangeOff + i)) t))

/-- `decode_glrc_ilp_helper_compact`; `none` for false -/
def decodeGlrcIlpHelperCompact (helpers : List (List UInt8)) (aInv : Mat UInt8)
    (eqHelperIndices : List (List ℕ)) (eqHelperCoefs : List (List UInt8))
    (failedCount helperBaseOff rangeOff rangeLen : ℕ) : Option (List (List UInt8)) :=
  if failedCount = 0 ∨ rangeOff < helperBaseOff ∨ eqHelperIndices.length ≠ failedCount ∨
      eqHelperCoefs.length ≠ failedCount then none
  else if rangeLen = 0 then some (List.replicate failedCount [])
  else
    ((eqHelperIndices.zip eqHelperCoefs).mapM fun p =>
      if p.1.length ≠ p.2.length then none
      else helperRhs helpers (rangeOff - helperBaseOff) rangeLen p.1
        (ecInitTables p.1.length 1 p.2)).map fun rhs =>
          encodeData rangeLen failedCount failedCount (rowsFrom 0 failedCount failedCount aInv) rhs

/-- the kernel writes its output over the beginning of a buffer -/
def overwrite (dst out : List UInt8) : List UInt8 := out ++ dst.drop out.length

/-- a vector of buffers brought to `f` buffers of `len` bytes; `clear` says what becomes of a buffer
that already has the size -/
def resizeBuffers (clear : List UInt8 → List UInt8) (f len : ℕ) (bufs : List (List UInt8)) :
    List (List UInt8) :=
  (if bufs.length ≠ f then List.replicate f (List.replicate len 0) else bufs).map fun buf =>
    if buf.length ≠ len then List.replicate len 0 else clear buf

/-- one equation of the prepared decoder; without helpers it leaves its buffer as it is -/
def rhsInto (helpers : List (List UInt8)) (helperOff rangeLen : ℕ) (buf : List UInt8)
    (indices : List ℕ) (gTbls : List UInt8) : Option (List UInt8) :=
  if indices = [] then some buf
  else if gTbls.length ≠ indices.length * 32 then none
  else some (overwrite buf ((ecEncodeDataAvx2 rangeLen indices.length 1 gTbls
    (indices.map fun h => (helpers.getD h []).drop helperOff)).getD 0 []))

/-- `decode_glrc_ilp_helper_compact_prepared` with the buffers it reuses; `none` for false -/
def helperCompactPreparedInto (helpers : List (List UInt8)) (eqHelperIndices : List (List ℕ))
    (eqHelperGTbls : List (List UInt8)) (invGTbls : List UInt8)
    (failedCount helperBaseOff rangeOff rangeLen : ℕ) (rhs recovered : List (List UInt8)) :
    Option (List (List UInt8) × List (List UInt8)) :=
  if failedCount = 0 ∨ rangeOff < helperBaseOff ∨ eqHelperIndices.length ≠ failedCount ∨
      eqHelperGTbls.length ≠ failedCount ∨ invGTbls.length ≠ failedCount * failedCount * 32 then none
  else
    let rhs := resizeBuffers (fun buf => List.replicate buf.length 0) failedCount rangeLen rhs
    let recovered := resizeBuffers id failedCount rangeLen recovered
    if rangeLen = 0 then some (rhs, recovered)
    else
      ((rhs.zip (eqHelperIndices.zip eqHelperGTbls)).mapM fun p =>
        rhsInto helpers (rangeOff - helperBaseOff) rangeLen p.1 p.2.1 p.2.2).map
      fun rhs => (rhs, List.zipWith overwrite recovered
        (ecEncodeDataAvx2 rangeLen failedCount failedCount invGTbls rhs))

/-- what a decode needs: an invertible system, and every survivor with a coefficient -/
def Decodable (k r z : ℕ) (helperBlockIds failed selected : List ℕ) : Prop :=
  glrcIlpDecodeMatrixInvertible k r z failed selected = true ∧
    ∀ e ∈ selected, ∀ b ∈ eqSurvivors k r z failed e, b ∈ helperBlockIds

/-- the bytes `[off, off + len)` of the right-hand side of equation `e` -/
def equationRhs (k r z : ℕ) (helperBlockIds failed : List ℕ) (helpers : List (List UInt8))
    (off len e : ℕ) : List UInt8 :=
  (List.range len).map fun i => termsRhs helpers (helperTerms k r z helperBlockIds failed e) (off + i)

/-! ## Bytes -/

theorem mk_termsRhs (helpers : List (List UInt8)) (terms : List (ℕ × UInt8)) (pos : ℕ) :
    Gf.mk (termsRhs helpers terms pos) =
      (terms.map fun term => Gf.mk term.2 * Gf.mk (byteAt helpers term.1 pos)).sum := by
  rw [termsRhs, Gf.mk_foldl_xor, Gf.mk_zero, zero_add]
  simp only [Gf.mk_gfMul]

/-! ## When a decode succeeds -/

section
variable {k r z : ℕ} {ids failed selected : List ℕ}

theorem mem_of_eqHelperTerms {e : ℕ} (h : (eqHelperTerms k r z ids failed e).isSome) :
    ∀ b ∈ eqSurvivors k r z failed e, b ∈ ids := by
  intro b hb
  obtain ⟨terms, hterms⟩ := isSome_iff_exists.mp h
  obtain ⟨term, -, hterm⟩ := forall₂_mem_left (mapM_option_some hterms) hb
  obtain ⟨i, hi, -⟩ := map_eq_some_iff.mp hterm
  obtain ⟨hlt, rfl⟩ := helperPos_some hi
  exact getD_mem hlt

theorem mapM_eqHelperTerms_isSome_iff : (selected.mapM (eqHelperTerms k r z ids failed)).isSome ↔
      ∀ e ∈ selected, ∀ b ∈ eqSurvivors k r z failed e, b ∈ ids := by
  constructor
  · intro h e he
    obtain ⟨terms, hterms⟩ := isSome_iff_exists.mp h
    obtain ⟨t, -, ht⟩ := forall₂_mem_left (mapM_option_some hterms) he
    exact mem_of_eqHelperTerms (by rw [ht]; rfl)
  · intro h
    rw [mapM_eq_some_map fun e he => eqHelperTerms_eq (h e he)]
    rfl

theorem decodable_iff : Decodable k r z ids failed selected ↔
    ¬(failed.length = 0 ∨ selected.length ≠ failed.length) ∧
      (glrcIlpBuildInverse k r z failed selected).isSome ∧
      (selected.mapM (eqHelperTerms k r z ids failed)).isSome := by
  rw [Decodable, mapM_eqHelperTerms_isSome_iff, ← and_assoc]
  refine and_congr_left fun _ => ?_
  unfold glrcIlpDecodeMatrixInvertible
  split
  · next h => exact iff_of_false Bool.false_ne_true fun hd => hd.1 h
  · next h => rw [and_iff_right h]

theorem decodeGlrcIlp_isSome_iff (hids : ids ≠ []) (blockSize : ℕ) (helpers : List (List UInt8)) :
    (decodeGlrcIlp k r z blockSize ids helpers failed selected).isSome ↔
      Decodable k r z ids failed selected := by
  rw [decodable_iff]
  unfold decodeGlrcIlp
  simp only
  split
  · next h => exact iff_of_false Bool.false_ne_true fun hd => hd.1 h
  · next h =>
    rw [and_iff_right h]
    cases glrcIlpBuildInverse k r z failed selected with
    | none => simp
    | some aInv => cases selected.mapM (eqHelperTerms k r z ids failed) <;> simp [hids]

theorem decodeGlrcIlpRange_isSome_iff {blockSize off len : ℕ} (hend : off + len ≤ blockSize)
    (hpos : 0 < len) (helpers : List (List UInt8)) (fresh : ℕ → List UInt8) :
    (decodeGlrcIlpRange k r z blockSize ids helpers failed selected off len fresh).isSome ↔
      Decodable k r z ids failed selected := by
  rw [decodable_iff]
  unfold decodeGlrcIlpRange
  simp only
  rw [if_neg (not_lt.mpr hend), if_neg (ne_of_gt hpos)]
  split
  · next h => exact iff_of_false Bool.false_ne_true fun hd => hd.1 h
  · next h =>
    rw [and_iff_right h]
    cases glrcIlpBuildInverse k r z failed selected with
    | none => simp
    | some aInv => cases selected.mapM (eqHelperTerms k r z ids failed) <;> simp

theorem prepareHelperDecode_isSome_iff (hids : ids ≠ []) :
    (glrcIlpPrepareHelperDecode k r z ids failed selected).isSome ↔
      Decodable k r z ids failed selected := by
  rw [decodable_iff]
  unfold glrcIlpPrepareHelperDecode
  simp only [hids, or_false]
  split
  · next h => exact iff_of_false Bool.false_ne_true fun hd => hd.1 h
  · next h =>
    rw [and_iff_right h]
    cases glrcIlpBuildInverse k r z failed selected with
    | none => simp
    | some aInv => cases selected.mapM (eqHelperTerms k r z ids failed) <;> simp

/-! ## The bytes of each routine -/

variable {helpers hb : List (List UInt8)} {blockSize off len base : ℕ}

theorem Prepared.decodable {aInv : Mat UInt8} (h : Prepared k r z ids failed selected aInv) :
    Decodable k r z ids failed selected :=
  decodable_iff.mpr ⟨h.guard, by rw [h.inverse]; rfl, by rw [h.terms]; rfl⟩

variable {aInv : Mat UInt8}

theorem Prepared.of_prepare {terms : List (List (ℕ × UInt8))}
    (h : glrcIlpPrepareHelperDecode k r z ids failed selected = some (aInv, terms)) :
    Prepared k r z ids failed selected aInv ∧
      terms = selected.map (helperTerms k r z ids failed) := by
  unfold glrcIlpPrepareHelperDecode at h
  split at h
  · cases h
  · next hguard =>
    simp only [not_or, not_not] at hguard
    split at h
    · cases h
    · next inv hinv =>
      obtain ⟨t, ht, heq⟩ := map_eq_some_iff.mp h
      cases heq
      have hcover := mapM_eqHelperTerms_isSome_iff.mp (by rw [ht]; rfl)
      refine ⟨⟨hguard.1, hguard.2.1, hinv, hcover⟩, ?_⟩
      rw [mapM_eq_some_map fun e he => eqHelperTerms_eq (hcover e he), some.injEq] at ht
      exact ht.symm

theorem Buffers.of_writeAt {f : ℕ} {val : ℕ → ℕ → Gf} {dst : ℕ → List UInt8}
    {byte : ℕ → ℕ → UInt8} (hdst : ∀ t, (dst t).length = blockSize) (hend : off + len ≤ blockSize)
    (hbyte : ∀ t < f, ∀ i < len, Gf.mk (byte t i) = val t i) :
    Buffers f len val (((List.range f).map fun t => writeAt (dst t) off
      ((List.range len).map (byte t))).map fun buf => readAt buf off len) := by
  have hread : ∀ t, readAt (writeAt (dst t) off ((List.range len).map (byte t))) off len =
      (List.range len).map (byte t) := by
    intro t
    have hoff : off ≤ (dst t).length := by
      rw [hdst]
      omega
    have hcells : readAt (writeAt (dst t) off ((List.range len).map (byte t))) off
        ((List.range len).map (byte t)).length = (List.range len).map (byte t) := readAt_writeAt hoff
    rwa [List.length_map, List.length_range] at hcells
  rw [List.map_map, show ((fun buf => readAt buf off len) ∘ fun t => writeAt (dst t) off
    ((List.range len).map (byte t))) = fun t => (List.range len).map (byte t) from funext hread]
  refine ⟨by simp, fun buf hbuf => ?_, fun t ht i hi => ?_⟩
  · obtain ⟨t, -, rfl⟩ := List.mem_map.mp hbuf
    simp
  · rw [byteAt, getD_map_range _ ht, getD_map_range _ hi]
    exact hbyte t ht i hi

theorem equationRhs_rhsOf (h : selected.length = failed.length) :
    RhsOf k r z ids failed selected helpers off len
      (selected.map (equationRhs k r z ids failed helpers off len)) := by
  intro j hj i hi
  have hj' : j < selected.length := by omega
  rw [byteAt, getD_map_of_lt _ _ hj' 0, equationRhs, getD_map_range _ hi, mk_termsRhs]
  rfl

section
variable (helpers : List (List UInt8)) (h : Prepared k r z ids failed selected aInv)
include h

theorem decodeRhsCompact_buffers :
    ∃ out, decodeGlrcIlpRhsCompact (selected.map (equationRhs k r z ids failed helpers off len)) aInv
        failed.length len = some out ∧
      Buffers failed.length len (rangeVal k r z ids failed selected aInv helpers off) out := by
  unfold decodeGlrcIlpRhsCompact
  rw [if_neg (by rw [List.length_map]; exact h.guard)]
  obtain ⟨hcount, hsize, hbytes⟩ := decodedRhs_buffers aInv
    (selected.map (equationRhs k r z ids failed helpers off len)) failed.length len
  refine ⟨_, rfl, hcount, hsize, fun t ht i hi => ?_⟩
  rw [hbytes t ht i hi, rangeVal, decodedVal]
  refine sum_congr rfl fun j hj => ?_
  rw [equationRhs_rhsOf h.length_eq j (mem_range.mp hj) i hi]

variable (hend : off + len ≤ blockSize)
include hend

theorem decodeRange_buffers {fresh : ℕ → List UInt8} (hfresh : ∀ t, (fresh t).length = blockSize) :
    ∃ ranged, decodeGlrcIlpRange k r z blockSize ids helpers failed selected off len fresh =
        some ranged ∧
      Buffers failed.length len (rangeVal k r z ids failed selected aInv helpers off)
        (ranged.map fun buf => readAt buf off len) := by
  unfold decodeGlrcIlpRange
  simp only
  rw [if_neg (not_lt.mpr hend)]
  by_cases hzero : len = 0
  · subst hzero
    rw [if_pos rfl]
    refine ⟨_, rfl, by simp, fun buf hbuf => ?_, fun t _ i hi => absurd hi (Nat.not_lt_zero i)⟩
    obtain ⟨b, -, rfl⟩ := List.mem_map.mp hbuf
    rw [readAt, List.take_zero]
    rfl
  · rw [if_neg hzero, if_neg h.guard, h.inverse, h.terms]
    refine ⟨_, rfl, Buffers.of_writeAt hfresh hend fun t _ i _ => ?_⟩
    rw [mk_inverseByte, rangeVal, decodedVal]
    refine sum_congr rfl fun j hj => ?_
    rw [mk_termsRhs, getD_map_of_lt _ _ (h.length_eq ▸ mem_range.mp hj) 0]
    rfl

theorem decodeRhsRange_buffers : ∃ ranged, decodeGlrcIlpRhsRange k r z blockSize
        (selected.map (equationRhs k r z ids failed helpers 0 blockSize)) failed selected off len =
        some ranged ∧
      Buffers failed.length len (rangeVal k r z ids failed selected aInv helpers off)
        (ranged.map fun buf => readAt buf off len) := by
  unfold decodeGlrcIlpRhsRange
  simp only
  rw [if_neg (not_lt.mpr hend), if_neg h.guard, h.inverse]
  refine ⟨_, rfl, Buffers.of_writeAt (fun t => by simp) hend fun t _ i hi => ?_⟩
  rw [mk_inverseByte, rangeVal, decodedVal]
  refine sum_congr rfl fun j hj => ?_
  rw [equationRhs_rhsOf h.length_eq j (mem_range.mp hj) (off + i) (by omega), zero_add]

end

/-! ## Helper buffers -/

theorem helperCompact_buffers (h : Prepared k r z ids failed selected aInv) (hbase : base ≤ off)
    (hhold : HoldsRange hb helpers ids.length base off len) :
    ∃ out, decodeGlrcIlpHelperCompact hb aInv
        ((selected.map (helperTerms k r z ids failed)).map fun t => t.map Prod.fst)
        ((selected.map (helperTerms k r z ids failed)).map fun t => t.map Prod.snd)
        failed.length base off len = some out ∧
      Buffers failed.length len (rangeVal k r z ids failed selected aInv helpers off) out := by
  unfold decodeGlrcIlpHelperCompact
  rw [if_neg (by
    simp only [List.length_map, not_or, not_not]
    exact ⟨h.ne, by omega, h.length_eq, h.length_eq⟩), List.map_map, List.map_map, List.zip_map',
    List.mapM_map]
  refine h.compact_buffers fun e he => ?_
  simp only [Function.comp_apply, List.length_map, ne_eq, not_true_eq_false, if_false]
  exact helperRhs_rhs hhold (h.cover e he)

/-! ## Reused buffers -/

theorem overwrite_eq {dst out : List UInt8} (h : dst.length = out.length) : overwrite dst out = out := by
  rw [overwrite, List.drop_of_length_le (le_of_eq h), List.append_nil]

theorem length_resizeBuffers (clear : List UInt8 → List UInt8) (f len : ℕ)
    (bufs : List (List UInt8)) : (resizeBuffers clear f len bufs).length = f := by
  unfold resizeBuffers
  rw [List.length_map]
  split
  · exact List.length_replicate
  · next h => exact not_not.mp h

theorem length_of_mem_resizeBuffers {clear : List UInt8 → List UInt8}
    (hclear : ∀ buf, (clear buf).length = buf.length) {f len : ℕ} {bufs : List (List UInt8)}
    {buf : List UInt8} (h : buf ∈ resizeBuffers clear f len bufs) : buf.length = len := by
  obtain ⟨old, -, rfl⟩ := List.mem_map.mp h
  split
  · exact List.length_replicate
  · next hlen => rw [hclear, not_not.mp hlen]

theorem resizeBuffers_fill (f len : ℕ) (bufs : List (List UInt8)) :
    resizeBuffers (fun buf => List.replicate buf.length 0) f len bufs =
      List.replicate f (List.replicate len 0) := by
  refine List.eq_replicate_iff.mpr ⟨length_resizeBuffers _ _ _ _, fun buf hbuf => ?_⟩
  obtain ⟨old, -, rfl⟩ := List.mem_map.mp hbuf
  split
  · rfl
  · next hlen => exact congrArg (List.replicate · 0) (not_not.mp hlen)

theorem zip_replicate_left {α β : Type*} (a : α) (l : List β) :
    (List.replicate l.length a).zip l = l.map fun b => (a, b) := by
  induction l with
  | nil => rfl
  | cons b l ih => rw [List.length_cons, List.replicate_succ, List.zip_cons_cons, ih, List.map_cons]

theorem zipWith_overwrite {dsts outs : List (List UInt8)} (hlen : dsts.length = outs.length)
    (hdst : ∀ buf ∈ dsts, buf.length = len) (hout : ∀ buf ∈ outs, buf.length = len) :
    List.zipWith overwrite dsts outs = outs := by
  refine List.ext_getElem (by simp [hlen]) fun i h1 h2 => ?_
  rw [List.getElem_zipWith]
  apply overwrite_eq
  rw [hdst _ (List.getElem_mem _), hout _ (List.getElem_mem _)]

theorem length_of_mem_ecEncodeDataAvx2 {rows : ℕ} {tbls : List UInt8} {data : List (List UInt8)}
    {buf : List UInt8} {srcs : ℕ} (h : buf ∈ ecEncodeDataAvx2 len srcs rows tbls data) :
    buf.length = len := by
  obtain ⟨l, -, rfl⟩ := List.mem_map.mp h
  simp

theorem rhsInto_zeros (helperOff : ℕ) (indices : List ℕ) (tbls : List UInt8) :
    rhsInto hb helperOff len (List.replicate len 0) indices tbls =
      helperRhs hb helperOff len indices tbls := by
  unfold rhsInto helperRhs
  split
  · rfl
  · split
    · rfl
    · rw [overwrite_eq]
      rw [List.length_replicate, List.getD_eq_getElem _ _ (by simp [ecEncodeDataAvx2])]
      exact (length_of_mem_ecEncodeDataAvx2 (List.getElem_mem _)).symm

theorem preparedInto_recovered (idx : List (List ℕ)) (tbls : List (List UInt8)) (inv : List UInt8)
    (f : ℕ) (rhs recovered : List (List UInt8)) :
    (helperCompactPreparedInto hb idx tbls inv f base off len rhs recovered).map Prod.snd =
      decodeGlrcIlpHelperCompactPrepared hb idx tbls inv f base off len := by
  unfold helperCompactPreparedInto decodeGlrcIlpHelperCompactPrepared
  split
  · rfl
  · next hguard =>
    simp only [not_or, not_not] at hguard
    simp only [resizeBuffers_fill]
    have hsize : ∀ buf ∈ resizeBuffers id f len recovered, buf.length = len :=
      fun buf hbuf => length_of_mem_resizeBuffers (fun _ => rfl) hbuf
    by_cases hzero : len = 0
    · rw [if_pos hzero, if_pos hzero, map_some, some.injEq]
      refine List.eq_replicate_iff.mpr ⟨length_resizeBuffers _ _ _ _, fun buf hbuf => ?_⟩
      exact List.length_eq_zero_iff.mp ((hsize buf hbuf).trans hzero)
    · rw [if_neg hzero, if_neg hzero, Option.map_map]
      have hzip : (idx.zip tbls).length = f := by
        rw [List.length_zip, hguard.2.2.1, hguard.2.2.2.1, Nat.min_self]
      conv_lhs => rw [← hzip, zip_replicate_left, List.mapM_map, hzip]
      show Option.map _ ((idx.zip tbls).mapM fun p =>
        rhsInto hb (off - base) len (List.replicate len 0) p.1 p.2) = _
      simp only [rhsInto_zeros]
      refine Option.map_congr fun rhs' _ => ?_
      exact zipWith_overwrite (by rw [length_resizeBuffers]; simp [ecEncodeDataAvx2]) hsize
        fun buf hbuf => length_of_mem_ecEncodeDataAvx2 hbuf

/-- **Main result.** The three routines that may refuse succeed together, exactly on the decodable
inputs, and then every routine gives the same bytes on every range: the whole blocks, the ranges
inside blocks, the ranges from helper buffers with any base offset and any earlier contents of the
reused buffers, and the ranges from the right-hand sides. -/
theorem decoders_agree (hids : ids ≠ []) (helpers hb : List (List UInt8)) {fresh : ℕ → List UInt8}
    (hfresh : ∀ t, (fresh t).length = blockSize) (hend : off + len ≤ blockSize) (hbase : base ≤ off)
    (hhold : HoldsRange hb helpers ids.length base off len)
    (rhs₀ recovered₀ : List (List UInt8)) :
    ((decodeGlrcIlp k r z blockSize ids helpers failed selected).isSome ↔
        Decodable k r z ids failed selected) ∧
    (0 < len →
      ((decodeGlrcIlpRange k r z blockSize ids helpers failed selected off len fresh).isSome ↔
        Decodable k r z ids failed selected)) ∧
    ((glrcIlpPrepareHelperDecode k r z ids failed selected).isSome ↔
        Decodable k r z ids failed selected) ∧
    ∀ aInv terms, glrcIlpPrepareHelperDecode k r z ids failed selected = some (aInv, terms) →
      ∃ out,
        (decodeGlrcIlp k r z blockSize ids helpers failed selected).map
            (List.map fun buf => readAt buf off len) = some out ∧
        (decodeGlrcIlpRange k r z blockSize ids helpers failed selected off len fresh).map
            (List.map fun buf => readAt buf off len) = some out ∧
        decodeGlrcIlpHelperCompact hb aInv (terms.map fun t => t.map Prod.fst)
            (terms.map fun t => t.map Prod.snd) failed.length base off len = some out ∧
        (helperCompactPreparedInto hb (terms.map fun t => t.map Prod.fst) (helperTables terms)
            (inverseTable failed.length aInv) failed.length base off len rhs₀ recovered₀).map
            Prod.snd = some out ∧
        decodeGlrcIlpRhsCompact (selected.map (equationRhs k r z ids failed helpers off len)) aInv
            failed.length len = some out ∧
        (decodeGlrcIlpRhsRange k r z blockSize
            (selected.map (equationRhs k r z ids failed helpers 0 blockSize)) failed selected off
            len).map (List.map fun buf => readAt buf off len) = some out := by
  refine ⟨decodeGlrcIlp_isSome_iff hids _ _, fun hpos => decodeGlrcIlpRange_isSome_iff hend hpos _ _,
    prepareHelperDecode_isSome_iff hids, fun aInv terms hprepare => ?_⟩
  obtain ⟨h, rfl⟩ := Prepared.of_prepare hprepare
  obtain ⟨full, hfull, hwhole⟩ := decodeGlrcIlp_buffers h hids helpers
  have hbuf := hwhole.range hend
  obtain ⟨ranged, hranged, hbuf₁⟩ := decodeRange_buffers helpers h hend hfresh
  obtain ⟨compact, hcompact, hbuf₂⟩ := helperCompact_buffers h hbase hhold
  obtain ⟨prepared, hprepared, hbuf₃⟩ := prepared_buffers h hbase hhold
  obtain ⟨rhsOut, hrhs, hbuf₄⟩ := decodeRhsCompact_buffers helpers h
  obtain ⟨rhsRanged, hrhsRanged, hbuf₅⟩ := decodeRhsRange_buffers helpers h hend
  refine ⟨_, congrArg (Option.map _) hfull, ?_, ?_, ?_, ?_, ?_⟩
  · rw [hranged, map_some, hbuf₁.unique hbuf]
  · rw [hcompact, hbuf₂.unique hbuf]
  · rw [preparedInto_recovered, hprepared, hbuf₃.unique hbuf]
  · rw [hrhs, hbuf₄.unique hbuf]
  · rw [hrhsRanged, map_some, hbuf₅.unique hbuf]

end

theorem decoders_agree_four_two_two :
    Decodable 4 2 2 [1, 2, 5, 6] [0, 3, 4] [0, 2, 3] ∧
    ∀ aInv terms, glrcIlpPrepareHelperDecode 4 2 2 [1, 2, 5, 6] [0, 3, 4] [0, 2, 3] =
        some (aInv, terms) →
      ∃ out,
        (decodeGlrcIlp 4 2 2 2 [1, 2, 5, 6] [[1, 2], [3, 4], [5, 6], [7, 8]] [0, 3, 4] [0, 2, 3]).map
          (List.map fun buf => readAt buf 1 1) = some out ∧
        (helperCompactPreparedInto [[2], [4], [6], [8]] (terms.map fun t => t.map Prod.fst)
          (helperTables terms) (inverseTable 3 aInv) 3 1 1 1 [[9], [9, 9]] [[7], [7], [7]]).map
          Prod.snd = some out := by
  have hhold : HoldsRange [[2], [4], [6], [8]] [[1, 2], [3, 4], [5, 6], [7, 8]]
      [1, 2, 5, 6].length 1 1 1 := by
    unfold HoldsRange
    decide +kernel
  have hagree : ((decodeGlrcIlp 4 2 2 2 [1, 2, 5, 6] [[1, 2], [3, 4], [5, 6], [7, 8]] [0, 3, 4]
      [0, 2, 3]).isSome ↔ Decodable 4 2 2 [1, 2, 5, 6] [0, 3, 4] [0, 2, 3]) ∧ _ :=
    decoders_agree (by decide) [[1, 2], [3, 4], [5, 6], [7, 8]] [[2], [4], [6], [8]]
      (show ∀ t, ((fun _ : ℕ => [0, 0]) t).length = 2 from fun _ => rfl) (by decide) (Nat.le_refl 1)
      hhold [[9], [9, 9]] [[7], [7], [7]]
  obtain ⟨hfull, -, -, hsame⟩ := hagree
  refine ⟨hfull.mp (by decide +kernel), fun aInv terms h => ?_⟩
  obtain ⟨out, hfull, -, -, hinto, -⟩ := hsame aInv terms h
  exact ⟨out, hfull, hinto⟩

end Mlrc
