import Mlrc.Coordinator.LocalEquations

/-!
# Decoding a single block

The five decoders of a single block: each weighs the blocks it is given by a coefficient and adds
them up.  `block_num` is the number of blocks listed.  UniLRC and AzureLRC call `xor_avx`, which in the
assembly build stores nothing for a single source.

* `decodeUnilrc`, `decodeAzureLrc`, `decodeOptimalLrc`, `decodeUniformLrc`, `decodeGlrc`   the decoders;
* `decodeBlock_eq_combine`   on blocks of a stripe a decoder is a weighted sum;
* `xorBlocks_combine`   weighted sums of parts add up to the weighted sum of the whole;
* `local_decode_iff`   when the other blocks of a local group give the lost one back.
-/

namespace Mlrc

open Finset

/-- the loop of `xor_avx` in the portable build -/
def xorBlocks (len : ℕ) (srcs : List (List UInt8)) : List UInt8 :=
  (List.range len).map fun i =>
    (List.range srcs.length).foldl (fun acc v => acc ^^^ byteAt srcs v i) 0

/-- `xor_avx`: the buffer that it leaves in the last place of `array`, where `dest` was.  `xor_gen_avx` of
the assembly build stores nothing for fewer than two sources, and the XOR of more. -/
def xorAvx (avx2Asm : Bool) (len : ℕ) (srcs : List (List UInt8)) (dest : List UInt8) : List UInt8 :=
  if avx2Asm ∧ srcs.length < 2 then dest else xorBlocks len srcs

/-- the tables of `decode_vector` and one run of the kernel into `res_ptr` -/
def decodeWith (decodeVector : List UInt8) (blockPtrs : List (List UInt8)) (blockSize : ℕ) :
    List UInt8 :=
  (encodeData blockSize decodeVector.length 1 decodeVector blockPtrs).getD 0 []

/-- what a call of a decoder finds: the build, and memory that it reads before anything is stored there,
the rest of `used_row` and what lies behind `local_vector` -/
structure DecodeCall where
  avx2Asm : Bool := false
  usedRow : ℕ → ℕ := fun _ => 0
  pastLocalVector : ℕ → UInt8 := fun _ => 0

/-- the return value of `xor_avx` is not looked at -/
def decodeUnilrc (avx2Asm : Bool) (blockPtrs : List (List UInt8)) (blockSize : ℕ) : List UInt8 :=
  xorAvx avx2Asm blockSize blockPtrs (List.replicate blockSize 0)

/-! ## AzureLRC -/

/-- the rows that the loop stores in `used_row`: the first `k` from `k / z` on, without the failed -/
def usedRows (k r z failed : ℕ) : List ℕ :=
  ((List.range' (k / z) (k + r - k / z)).filter (· ≠ failed)).take k

/-- `used_row[i]` -/
def usedRow (unset : ℕ → ℕ) (k r z failed i : ℕ) : ℕ := (usedRows k r z failed)[i]?.getD (unset i)

/-- `temp_matrix` -/
def azureTempMatrix (unset : ℕ → ℕ) (k r z failed : ℕ) : Mat UInt8 := fun i j =>
  gfGenRsMatrix1 (k + r) k (usedRow unset k r z failed i) j

def gfMulVectMatrix (vect : ℕ → UInt8) (matrix : Mat UInt8) (k i : ℕ) : UInt8 :=
  (List.range k).foldl (fun dest j => dest ^^^ gfMul (vect j) (matrix j i)) 0

/-- `vect_all`; the return value of `gf_invert_matrix` is not looked at -/
def azureVectAll (unset : ℕ → ℕ) (k r z failed : ℕ) : ℕ → UInt8 :=
  gfMulVectMatrix (gfGenRsMatrix1 (k + r) k failed)
    (gfInvertOut k (azureTempMatrix unset k r z failed)) k

/-- `vect_all[idx_to_row[b]]`; the map gives 0 for a block that has no row -/
def azureCoef (unset : ℕ → ℕ) (k r z failed b : ℕ) : UInt8 :=
  let rows := usedRows k r z failed
  azureVectAll unset k r z failed (if b ∈ rows then rows.idxOf b else 0)

def decodeAzureLrc (call : DecodeCall) (k r z : ℕ) (blockIndexes : List ℕ)
    (blockPtrs : List (List UInt8)) (blockSize failed : ℕ) : List UInt8 :=
  if failed < k ∨ k + r ≤ failed then
    xorAvx call.avx2Asm blockSize blockPtrs (List.replicate blockSize 0)
  else decodeWith (blockIndexes.map (azureCoef call.usedRow k r z failed)) blockPtrs blockSize

/-! ## OptimalLRC, UniformLRC and gLRC -/

/-- `local_vector[b]` for a vector of `k` entries -/
def localVectorAt (past : ℕ → UInt8) (k r b : ℕ) : UInt8 :=
  if b < k then gfGenLocalVector k r b else past (b - k)

def scaleByFailed (k r failed : ℕ) (decodeVector : List UInt8) : List UInt8 :=
  if failed < k then decodeVector.map fun c => gfMul c (gfInv (gfGenLocalVector k r failed))
  else decodeVector

/-- `decode_optimal_lrc`: the first block decides which coefficients all of them get -/
def decodeOptimalLrc (past : ℕ → UInt8) (k r : ℕ) (blockIndexes : List ℕ)
    (blockPtrs : List (List UInt8)) (blockSize failed : ℕ) : List UInt8 :=
  let decodeVector := if k ≤ blockIndexes.headD 0 then blockIndexes.map fun _ => 1
    else blockIndexes.map (localVectorAt past k r)
  decodeWith (scaleByFailed k r failed decodeVector) blockPtrs blockSize

def decodeUniformLrc (k r : ℕ) (blockIndexes : List ℕ) (blockPtrs : List (List UInt8))
    (blockSize failed : ℕ) : List UInt8 :=
  let decodeVector := blockIndexes.map fun b => if b < k then gfGenLocalVector k r b else 1
  decodeWith (scaleByFailed k r failed decodeVector) blockPtrs blockSize

def decodeGlrc (k r : ℕ) (blockIndexes : List ℕ) (blockPtrs : List (List UInt8))
    (blockSize failed : ℕ) : List UInt8 :=
  let factor := gfInv (glrcLocalBlockCoefficient failed k r)
  decodeWith (blockIndexes.map fun b => gfMul (glrcLocalBlockCoefficient b k r) factor) blockPtrs
    blockSize

/-- the decoder that the proxies call for a code type -/
def decodeBlock (codeType : CodeType) (call : DecodeCall) (k r z : ℕ) (blockIndexes : List ℕ)
    (blockPtrs : List (List UInt8)) (blockSize failed : ℕ) : List UInt8 :=
  match codeType with
  | .UniLRC => decodeUnilrc call.avx2Asm blockPtrs blockSize
  | .AzureLRC => decodeAzureLrc call k r z blockIndexes blockPtrs blockSize failed
  | .OptimalLRC => decodeOptimalLrc call.pastLocalVector k r blockIndexes blockPtrs blockSize failed
  | .UniformLRC => decodeUniformLrc k r blockIndexes blockPtrs blockSize failed
  | .gLRC => decodeGlrc k r blockIndexes blockPtrs blockSize failed

/-! ## Weighted sums -/

/-- the blocks `ids`, each weighed by its coefficient, added up byte by byte -/
def combine (w : ℕ → UInt8) (block : ℕ → List UInt8) (size : ℕ) (ids : List ℕ) : List UInt8 :=
  (List.range size).map fun i => (ids.map fun b => Gf.mk (w b) * Gf.mk ((block b).getD i 0)).sum.byte

section
variable {w w' : ℕ → UInt8} {block : ℕ → List UInt8} {size : ℕ} {ids : List ℕ}

theorem combine_congr (h : ∀ b ∈ ids, w b = w' b) :
    combine w block size ids = combine w' block size ids := by
  unfold combine
  refine List.map_congr_left fun i _ => ?_
  rw [List.map_congr_left fun b hb => by rw [h b hb]]

theorem combine_perm {ids' : List ℕ} (h : ids.Perm ids') :
    combine w block size ids = combine w block size ids' := by
  unfold combine
  refine List.map_congr_left fun i _ => ?_
  rw [(h.map _).sum_eq]

theorem combine_eq_iff {b : List UInt8} (hb : b.length = size) :
    combine w block size ids = b ↔ ∀ i < size,
      (ids.map fun b => Gf.mk (w b) * Gf.mk ((block b).getD i 0)).sum = Gf.mk (b.getD i 0) := by
  have hlen : (combine w block size ids).length = b.length := by
    rw [combine, List.length_map, List.length_range, hb]
  constructor
  · intro h i hi
    rw [← h, combine, getD_map_range _ hi]
  · intro h
    refine List.ext_getElem hlen fun i h1 h2 => ?_
    have hi := h i (hb ▸ h2)
    rw [List.getD_eq_getElem _ _ h2] at hi
    simp only [combine, List.getElem_map, List.getElem_range]
    rw [hi]

theorem byte_xorBlocks (bufs : List (List UInt8)) {i : ℕ} (hi : i < size) :
    Gf.mk ((xorBlocks size bufs).getD i 0) = (bufs.map fun b => Gf.mk (b.getD i 0)).sum := by
  rw [xorBlocks, getD_map_range _ hi, Gf.mk_foldl_xor, Gf.mk_zero, zero_add,
    sum_map_eq_sum_range bufs []]
  rfl

theorem length_xorBlocks (size : ℕ) (bufs : List (List UInt8)) : (xorBlocks size bufs).length = size := by
  rw [xorBlocks, List.length_map, List.length_range]

theorem xorBlocks_map (block : ℕ → List UInt8) (size : ℕ) (ids : List ℕ) :
    xorBlocks size (ids.map block) = combine (fun _ => 1) block size ids := by
  refine ((combine_eq_iff (length_xorBlocks size _)).mpr fun i hi => ?_).symm
  rw [byte_xorBlocks _ hi, List.map_map]
  simp only [Gf.mk_one, one_mul]
  rfl

theorem xorBlocks_combine (w : ℕ → UInt8) (block : ℕ → List UInt8) (size : ℕ) (lists : List (List ℕ)) :
    xorBlocks size (lists.map (combine w block size)) = combine w block size lists.flatten := by
  refine ((combine_eq_iff (length_xorBlocks size _)).mpr fun i hi => ?_).symm
  rw [byte_xorBlocks _ hi]
  induction lists with
  | nil => rfl
  | cons ids lists ih =>
    rw [List.flatten_cons, List.map_append, List.sum_append, ih, List.map_cons, List.map_cons,
      List.sum_cons, combine, getD_map_range _ hi]

theorem decodeWith_map (w : ℕ → UInt8) (block : ℕ → List UInt8) (size : ℕ) (ids : List ℕ) :
    decodeWith (ids.map w) (ids.map block) size = combine w block size ids := by
  have hlen : ((encodeData size (ids.map w).length 1 (ids.map w) (ids.map block)).getD 0 []).length =
      size := by
    rw [List.getD_eq_getElem _ _ (by rw [encodeData_length]; decide)]
    exact length_of_mem_encodeData (List.getElem_mem _)
  refine ((combine_eq_iff hlen).mpr fun i hi => ?_).symm
  show _ = Gf.mk (byteAt (encodeData size (ids.map w).length 1 (ids.map w) (ids.map block)) 0 i)
  rw [byteAt_encodeData _ _ one_pos hi, List.length_map, sum_map_eq_sum_range ids 0]
  refine sum_congr rfl fun j hj => ?_
  have hj := mem_range.mp hj
  rw [zero_mul, zero_add, byteAt, getD_map_of_lt _ _ hj 0, getD_map_of_lt _ _ hj 0]

end

/-- the coefficient that a decoder gives block `b`; `first` is the first block of the call -/
def decodeCoef (codeType : CodeType) (call : DecodeCall) (k r z failed first b : ℕ) : UInt8 :=
  match codeType with
  | .UniLRC => 1
  | .AzureLRC =>
    if failed < k ∨ k + r ≤ failed then 1 else azureCoef call.usedRow k r z failed b
  | .OptimalLRC =>
    let c := if k ≤ first then 1 else localVectorAt call.pastLocalVector k r b
    if failed < k then gfMul c (gfInv (gfGenLocalVector k r failed)) else c
  | .UniformLRC =>
    let c := if b < k then gfGenLocalVector k r b else 1
    if failed < k then gfMul c (gfInv (gfGenLocalVector k r failed)) else c
  | .gLRC => gfMul (glrcLocalBlockCoefficient b k r) (gfInv (glrcLocalBlockCoefficient failed k r))

/-- the decoder of the block calls `xor_avx` -/
def XorDecoded (codeType : CodeType) (k r failed : ℕ) : Prop :=
  codeType = .UniLRC ∨ codeType = .AzureLRC ∧ (failed < k ∨ k + r ≤ failed)

instance {codeType : CodeType} {k r failed : ℕ} : Decidable (XorDecoded codeType k r failed) :=
  inferInstanceAs (Decidable (_ ∨ _))

/-- the blocks that a call adds up -/
def addedIds (codeType : CodeType) (call : DecodeCall) (k r failed : ℕ) (ids : List ℕ) : List ℕ :=
  if XorDecoded codeType k r failed ∧ call.avx2Asm ∧ ids.length < 2 then [] else ids

theorem addedIds_of_not {codeType : CodeType} {k r failed : ℕ} (h : ¬XorDecoded codeType k r failed)
    (call : DecodeCall) (ids : List ℕ) : addedIds codeType call k r failed ids = ids :=
  if_neg fun hall => h hall.1

theorem xorAvx_map (avx2Asm : Bool) (block : ℕ → List UInt8) (size : ℕ) (ids : List ℕ) :
    xorAvx avx2Asm size (ids.map block) (List.replicate size 0) =
      combine (fun _ => 1) block size (if avx2Asm ∧ ids.length < 2 then [] else ids) := by
  unfold xorAvx
  rw [List.length_map]
  split
  · have hzero : (List.range size).map (fun _ => (0 : UInt8)) = List.replicate size 0 := by
      rw [List.map_const', List.length_range]
    exact hzero.symm
  · exact xorBlocks_map block size ids

theorem scaleByFailed_map (k r failed : ℕ) (w : ℕ → UInt8) (ids : List ℕ) :
    scaleByFailed k r failed (ids.map w) = ids.map fun b =>
      if failed < k then gfMul (w b) (gfInv (gfGenLocalVector k r failed)) else w b := by
  unfold scaleByFailed
  split
  · rw [List.map_map]
    rfl
  · rfl

theorem decodeBlock_eq_combine (codeType : CodeType) (call : DecodeCall) (k r z : ℕ) (ids : List ℕ)
    (block : ℕ → List UInt8) (size failed : ℕ) :
    decodeBlock codeType call k r z ids (ids.map block) size failed =
      combine (decodeCoef codeType call k r z failed (ids.headD 0)) block size
        (addedIds codeType call k r failed ids) := by
  cases codeType with
  | UniLRC =>
    unfold addedIds
    simp only [XorDecoded, true_or, true_and]
    exact xorAvx_map _ block size ids
  | AzureLRC =>
    show decodeAzureLrc call k r z ids (ids.map block) size failed = _
    unfold decodeAzureLrc decodeCoef addedIds
    by_cases h : failed < k ∨ k + r ≤ failed
    · simp only [XorDecoded, h, reduceCtorEq, false_or, true_and, if_true]
      exact xorAvx_map _ block size ids
    · simp only [XorDecoded, h, reduceCtorEq, false_or, and_false, false_and, if_false]
      exact decodeWith_map _ block size ids
  | OptimalLRC =>
    show decodeOptimalLrc call.pastLocalVector k r ids (ids.map block) size failed = _
    have hvector : (if k ≤ ids.headD 0 then ids.map fun _ => (1 : UInt8)
        else ids.map (localVectorAt call.pastLocalVector k r)) =
        ids.map fun b => if k ≤ ids.headD 0 then 1 else localVectorAt call.pastLocalVector k r b := by
      split <;> rfl
    unfold decodeOptimalLrc
    simp only [hvector]
    rw [scaleByFailed_map, decodeWith_map, addedIds_of_not (by simp [XorDecoded])]
    rfl
  | UniformLRC =>
    show decodeUniformLrc k r ids (ids.map block) size failed = _
    unfold decodeUniformLrc
    simp only
    rw [scaleByFailed_map, decodeWith_map, addedIds_of_not (by simp [XorDecoded])]
    rfl
  | gLRC =>
    rw [addedIds_of_not (by simp [XorDecoded])]
    exact decodeWith_map _ block size ids

theorem mem_of_mem_addedIds {codeType : CodeType} {call : DecodeCall} {k r failed b : ℕ} {ids : List ℕ}
    (h : b ∈ addedIds codeType call k r failed ids) : b ∈ ids := by
  unfold addedIds at h
  split at h
  · cases h
  · exact h

theorem xorBlocks_decode {codeType : CodeType} {call : List ℕ → DecodeCall} {k r z failed : ℕ}
    {w : ℕ → UInt8} {lists : List (List ℕ)} (hw : ∀ ids ∈ lists, ∀ b ∈ ids,
      decodeCoef codeType (call ids) k r z failed (ids.headD 0) b = w b)
    (block : ℕ → List UInt8) (size : ℕ) :
    xorBlocks size (lists.map fun ids => decodeBlock codeType (call ids) k r z ids (ids.map block) size
        failed) =
      combine w block size (lists.flatMap fun ids => addedIds codeType (call ids) k r failed ids) := by
  rw [List.flatMap_def, ← xorBlocks_combine, List.map_map]
  refine congrArg (xorBlocks size) (List.map_congr_left fun ids hids => ?_)
  rw [decodeBlock_eq_combine]
  exact combine_congr fun b hb => hw ids hids b (mem_of_mem_addedIds hb)

theorem flatMap_addedIds_of_not {codeType : CodeType} {k r failed : ℕ}
    (h : ¬XorDecoded codeType k r failed) (call : List ℕ → DecodeCall) (lists : List (List ℕ)) :
    (lists.flatMap fun ids => addedIds codeType (call ids) k r failed ids) = lists.flatten := by
  simp only [addedIds_of_not h]
  exact List.flatMap_id'

/-! ## Weighted sums of the blocks of a stripe -/

/-- on every stripe the decoded lists add up to the failed block -/
def DecodesTo (codeType : CodeType) (call : List ℕ → DecodeCall) (k r z failed : ℕ)
    (lists : List (List ℕ)) : Prop :=
  ∀ (blockSize : ℕ) (data : List (List UInt8)), DataBlocks k blockSize data →
    xorBlocks blockSize (lists.map fun ids => decodeBlock codeType (call ids) k r z ids
        (ids.map (blockOf (codeword (genMatrix codeType) k r z data blockSize))) blockSize failed) =
      blockOf (codeword (genMatrix codeType) k r z data blockSize) failed

section
variable {gen : ℕ → ℕ → ℕ → Mat UInt8} {k r z failed : ℕ} {w : ℕ → UInt8} {ids : List ℕ}

theorem combine_codeword_iff (hgen : IsSystematic gen) (hids : ∀ b ∈ ids, b < k + r + z)
    (hf : failed < k + r + z) : (∀ blockSize data, DataBlocks k blockSize data →
      combine w (blockOf (codeword gen k r z data blockSize)) blockSize ids =
        blockOf (codeword gen k r z data blockSize) failed) ↔
    ∀ j < k, (ids.map fun b => Gf.mk (w b) * Gf.mk (gen k r z b j)).sum =
      Gf.mk (gen k r z failed j) := by
  have hsum : ∀ {blockSize data}, DataBlocks k blockSize data → ∀ i < blockSize,
      (ids.map fun b => Gf.mk (w b) *
        Gf.mk ((blockOf (codeword gen k r z data blockSize) b).getD i 0)).sum =
      ∑ j ∈ range k, (ids.map fun b => Gf.mk (w b) * Gf.mk (gen k r z b j)).sum *
        Gf.mk (byteAt data j i) := by
    intro blockSize data hd i hi
    rw [← sum_map_rows (fun b => Gf.mk (w b)) (fun b j => Gf.mk (gen k r z b j))]
    refine congrArg List.sum (List.map_congr_left fun b hb => ?_)
    rw [← byteAt_codeword hgen hd (hids b hb) hi]
    rfl
  constructor
  · intro h j hj
    -- the stripe whose only data is a one in block `j`
    let data : List (List UInt8) := (List.range k).map fun i => [if i = j then 1 else 0]
    have hd : DataBlocks k 1 data := by
      refine ⟨by simp [data], fun d hd => ?_⟩
      obtain ⟨i, -, rfl⟩ := List.mem_map.mp hd
      rfl
    have hbyte : ∀ g : ℕ → Gf, ∑ i ∈ range k, g i * Gf.mk (byteAt data i 0) = g j := by
      intro g
      rw [sum_eq_single j]
      · rw [byteAt, getD_map_range _ hj, if_pos rfl]
        exact mul_one _
      · intro i hi hij
        rw [byteAt, getD_map_range _ (mem_range.mp hi), if_neg hij]
        exact mul_zero _
      · exact fun hno => absurd (mem_range.mpr hj) hno
    have heq := (combine_eq_iff (length_blockOf_codeword hd hf)).mp (h 1 data hd) 0 one_pos
    rw [hsum hd 0 one_pos, hbyte] at heq
    rw [heq]
    show Gf.mk (byteAt (codeword gen k r z data 1) failed 0) = _
    rw [byteAt_codeword hgen hd hf one_pos, hbyte fun j => Gf.mk (gen k r z failed j)]
  · intro h blockSize data hd
    refine (combine_eq_iff (length_blockOf_codeword hd hf)).mpr fun i hi => ?_
    rw [hsum hd i hi]
    show _ = Gf.mk (byteAt (codeword gen k r z data blockSize) failed i)
    rw [byteAt_codeword hgen hd hf hi]
    exact sum_congr rfl fun j hj => by rw [h j (mem_range.mp hj)]

end

/-! ## A lost block of a local group -/

/-- the local group of a block; AzureLRC and OptimalLRC have none for global parities -/
def localGroup (codeType : CodeType) (k r z b : ℕ) : ℕ :=
  if k + r ≤ b then b - k - r
  else
    match codeType with
    | .UniLRC => if b < k then b / (k / z) else (b - k) / (r / z)
    | .AzureLRC | .OptimalLRC => b / (k / z)
    | .UniformLRC | .gLRC => glrcPayloadGroupId b k r z

/-- the other blocks of the local equation of a block -/
def localRepairSet (codeType : CodeType) (k r z failed : ℕ) : List ℕ :=
  (List.range (k + r + z)).filter fun b =>
    b ≠ failed ∧ inLocalRow codeType k r z (localGroup codeType k r z failed) b = true

section
variable {codeType : CodeType} {k r z failed : ℕ}

/-- what the local equations of a code need of its parameters -/
structure LocalCode (codeType : CodeType) (k r z : ℕ) : Prop where
  pos : 0 < z
  data : codeType = .UniLRC ∨ codeType = .AzureLRC → z ∣ k
  global : codeType = .UniLRC → z ∣ r
  small : codeType = .UniformLRC ∨ codeType = .gLRC → k + r ≤ 255

def HasLocalGroup (codeType : CodeType) (k r z failed : ℕ) : Prop :=
  failed < k + r + z ∧ (codeType = .AzureLRC → failed < k ∨ k + r ≤ failed)

theorem div_lt_of_dvd {b k z : ℕ} (hz : 0 < z) (h : z ∣ k) (hb : b < k) : b / (k / z) < z := by
  rw [Nat.div_lt_iff_lt_mul (Nat.div_pos (Nat.le_of_dvd (by omega) h) hz), mul_comm,
    Nat.div_mul_cancel h]
  exact hb

theorem inLocalRow_localGroup (hc : codeType ≠ .OptimalLRC) (hl : LocalCode codeType k r z)
    (hf : HasLocalGroup codeType k r z failed) : localGroup codeType k r z failed < z ∧
      inLocalRow codeType k r z (localGroup codeType k r z failed) failed = true := by
  unfold localGroup
  by_cases hpar : k + r ≤ failed
  · obtain ⟨l, rfl⟩ := exists_add_of_le hpar
    have hlt := hf.1
    have hlz : l < z := by omega
    rw [if_pos hpar, show k + r + l - k - r = l by omega]
    exact ⟨hlz, (inLocalRow_parity hl.global hlz l).trans (decide_eq_true rfl)⟩
  · rw [if_neg hpar]
    cases codeType with
    | OptimalLRC => exact absurd rfl hc
    | AzureLRC =>
      have hk : failed < k := (hf.2 rfl).resolve_right hpar
      refine ⟨div_lt_of_dvd hl.pos (hl.data (.inr rfl)) hk, ?_⟩
      unfold inLocalRow
      simp [hk]
    | UniLRC =>
      have hkz := hl.data (.inl rfl)
      have hrz := hl.global rfl
      by_cases hk : failed < k
      · simp only [hk, if_true]
        refine ⟨div_lt_of_dvd hl.pos hkz hk, ?_⟩
        unfold inLocalRow
        simp [hk]
      · simp only [hk, if_false]
        have hlt : failed - k < r := by omega
        refine ⟨div_lt_of_dvd hl.pos hrz hlt, ?_⟩
        have hr0 : 0 < r / z := Nat.div_pos (Nat.le_of_dvd (by omega) hrz) hl.pos
        have hlow := Nat.div_mul_le_self (failed - k) (r / z)
        have hhigh := Nat.lt_div_mul_add (a := failed - k) hr0
        unfold inLocalRow
        simp only [Bool.or_eq_true, decide_eq_true_eq]
        rw [Nat.mul_div_assoc _ hrz]
        omega
    | UniformLRC =>
      refine ⟨glrcPayloadGroupId_lt hl.pos (by omega), ?_⟩
      unfold inLocalRow
      simp only [Bool.or_eq_true, decide_eq_true_eq]
      exact .inl ⟨by omega, trivial⟩
    | gLRC =>
      refine ⟨glrcPayloadGroupId_lt hl.pos (by omega), ?_⟩
      unfold inLocalRow
      simp only [Bool.or_eq_true, decide_eq_true_eq]
      exact .inl ⟨by omega, trivial⟩

theorem glrcLocalBlockCoefficient_ne_zero (h : k + r ≤ 255) (b : ℕ) :
    glrcLocalBlockCoefficient b k r ≠ 0 := by
  by_cases hb : b < k
  · rw [glrcLocalBlockCoefficient_data hb]
    exact gfGenLocalVector_ne_zero (by omega)
  · rw [glrcLocalBlockCoefficient_parity (by omega)]
    decide

theorem localVector_or_one (k r b : ℕ) :
    (if b < k then gfGenLocalVector k r b else 1) = glrcLocalBlockCoefficient b k r := rfl

theorem decodeCoef_eq (hc : codeType ≠ .OptimalLRC) (call : DecodeCall)
    (hf : HasLocalGroup codeType k r z failed) {l b first : ℕ}
    (hfl : inLocalRow codeType k r z l failed = true) (hb : inLocalRow codeType k r z l b = true) :
    Gf.mk (decodeCoef codeType call k r z failed first b) =
      Gf.mk (localCoef codeType k r z l b) * (Gf.mk (localCoef codeType k r z l failed))⁻¹ := by
  unfold localCoef
  rw [if_pos hfl, if_pos hb]
  cases codeType with
  | OptimalLRC => exact absurd rfl hc
  | UniLRC => exact (mul_inv_cancel₀ one_ne_zero).symm
  | AzureLRC =>
    unfold decodeCoef
    simp only [hf.2 rfl, if_true]
    exact (mul_inv_cancel₀ one_ne_zero).symm
  | UniformLRC =>
    unfold decodeCoef
    simp only [localVector_or_one]
    by_cases hk : failed < k
    · rw [if_pos hk, Gf.mk_gfMul, Gf.mk_gfInv, glrcLocalBlockCoefficient_data hk]
    · rw [if_neg hk, glrcLocalBlockCoefficient_parity (b := failed) (by omega), Gf.mk_one, inv_one,
        mul_one]
  | gLRC =>
    unfold decodeCoef
    rw [Gf.mk_gfMul, Gf.mk_gfInv]

theorem localCoef_ne_zero (hc : codeType ≠ .OptimalLRC) (hl : LocalCode codeType k r z) {l b : ℕ}
    (hb : inLocalRow codeType k r z l b = true) : localCoef codeType k r z l b ≠ 0 := by
  unfold localCoef
  rw [if_pos hb]
  cases codeType with
  | OptimalLRC => exact absurd rfl hc
  | UniLRC => exact Gf.mk_eq_zero.not.mp one_ne_zero
  | AzureLRC => exact Gf.mk_eq_zero.not.mp one_ne_zero
  | UniformLRC => exact glrcLocalBlockCoefficient_ne_zero (hl.small (.inl rfl)) b
  | gLRC => exact glrcLocalBlockCoefficient_ne_zero (hl.small (.inr rfl)) b

theorem sum_others_eq {n : ℕ} {coefs c : ℕ → Gf} (hf : failed < n) (hne : coefs failed ≠ 0)
    (hsum : ∑ b ∈ range n, coefs b * c b = 0) {p : ℕ → Bool} (hpf : p failed = false)
    (hp : ∀ b, b ≠ failed → p b = false → coefs b = 0) :
    (((List.range n).filter p).map fun b => coefs b * (coefs failed)⁻¹ * c b).sum = c failed := by
  have hlist : (((List.range n).filter p).map fun b => coefs b * (coefs failed)⁻¹ * c b).sum =
      (∑ b ∈ (range n).filter (p · = true), coefs b * c b) * (coefs failed)⁻¹ := by
    rw [← List.sum_toFinset _ (List.nodup_range.filter _), sum_mul]
    refine sum_congr ?_ fun b _ => by ring
    ext b
    simp
  have hrest : ∑ b ∈ (range n).filter (¬ p · = true), coefs b * c b = coefs failed * c failed := by
    refine sum_eq_single failed (fun b hb hbf => ?_) fun hno => ?_
    · rw [hp b hbf (Bool.eq_false_of_not_eq_true (mem_filter.mp hb).2), zero_mul]
    · refine absurd (mem_filter.mpr ⟨mem_range.mpr hf, ?_⟩) hno
      rw [hpf]
      decide
  have hsplit := sum_filter_add_sum_filter_not (range n) (p · = true) fun b => coefs b * c b
  rw [hsum, hrest, CharTwo.add_eq_zero] at hsplit
  rw [hlist, hsplit, mul_comm, ← mul_assoc, inv_mul_cancel₀ hne, one_mul]

theorem combine_localCoef {w : ℕ → UInt8} (hr : codeType = .UniLRC → z ∣ r)
    (hlz : localGroup codeType k r z failed < z) (hf : failed < k + r + z)
    (hne : localCoef codeType k r z (localGroup codeType k r z failed) failed ≠ 0)
    (hw : ∀ b ∈ localRepairSet codeType k r z failed, Gf.mk (w b) =
      Gf.mk (localCoef codeType k r z (localGroup codeType k r z failed) b) *
        (Gf.mk (localCoef codeType k r z (localGroup codeType k r z failed) failed))⁻¹) {blockSize : ℕ}
    {data : List (List UInt8)} (hd : DataBlocks k blockSize data) :
    combine w (blockOf (codeword (genMatrix codeType) k r z data blockSize)) blockSize
        (localRepairSet codeType k r z failed) =
      blockOf (codeword (genMatrix codeType) k r z data blockSize) failed := by
  set l := localGroup codeType k r z failed with hgroup
  refine (combine_eq_iff (length_blockOf_codeword hd hf)).mpr fun i hi => ?_
  have hcheck := local_parity_check codeType hr hlz
    fun b hb => byteAt_codeword (genMatrix_systematic codeType) hd hb hi
  have hvalue := sum_others_eq hf (Gf.mk_eq_zero.not.mpr hne) hcheck
    (p := fun b => b ≠ failed ∧ inLocalRow codeType k r z l b = true)
    (by simp) (fun b hb hp => by
      have hrow : inLocalRow codeType k r z l b = false := by simpa [hb] using hp
      rw [Gf.mk_eq_zero]
      unfold localCoef
      rw [hrow]
      rfl)
  refine Eq.trans ?_ hvalue
  rw [localRepairSet, ← hgroup]
  refine congrArg List.sum (List.map_congr_left fun b hb => ?_)
  rw [hw b (by rwa [localRepairSet, ← hgroup])]
  rfl

theorem combine_localRepairSet (hc : codeType ≠ .OptimalLRC) (hl : LocalCode codeType k r z)
    (hf : HasLocalGroup codeType k r z failed) {blockSize : ℕ} {data : List (List UInt8)}
    (hd : DataBlocks k blockSize data) :
    combine (decodeCoef codeType {} k r z failed 0)
        (blockOf (codeword (genMatrix codeType) k r z data blockSize)) blockSize
        (localRepairSet codeType k r z failed) =
      blockOf (codeword (genMatrix codeType) k r z data blockSize) failed := by
  obtain ⟨hlz, hin⟩ := inLocalRow_localGroup hc hl hf
  refine combine_localCoef hl.global hlz hf.1 (localCoef_ne_zero hc hl hin) (fun b hb => ?_) hd
  exact decodeCoef_eq hc _ hf hin (of_decide_eq_true (List.mem_filter.mp hb).2).2

/-! ## Blocks that are alone in their lists -/

/-- the blocks that the assembly build gets alone -/
def loneBlocks (call : List ℕ → DecodeCall) (lists : List (List ℕ)) : List ℕ :=
  (lists.filter fun ids => (call ids).avx2Asm ∧ ids.length < 2).flatten

/-- where `xor_avx` decodes, the blocks that the assembly build gets alone add up to zero on every
stripe: in particular where there are none -/
def LoneCancel (codeType : CodeType) (call : List ℕ → DecodeCall) (k r z failed : ℕ)
    (lists : List (List ℕ)) : Prop :=
  XorDecoded codeType k r failed →
    ∀ j < k, ((loneBlocks call lists).map fun b => Gf.mk (genMatrix codeType k r z b j)).sum = 0

theorem loneCancel_of_nil {call : List ℕ → DecodeCall} {lists : List (List ℕ)}
    (h : loneBlocks call lists = []) : LoneCancel codeType call k r z failed lists := by
  intro _ j _
  rw [h]
  rfl

theorem decodeCoef_of_xor (hx : XorDecoded codeType k r failed) (call : DecodeCall) (first b : ℕ) :
    decodeCoef codeType call k r z failed first b = 1 := by
  rcases hx with rfl | ⟨rfl, hlocal⟩
  · rfl
  · exact if_pos hlocal

theorem sum_addedIds (hx : XorDecoded codeType k r failed) (call : List ℕ → DecodeCall) (g : ℕ → Gf)
    (lists : List (List ℕ)) :
    ((lists.flatMap fun ids => addedIds codeType (call ids) k r failed ids).map g).sum +
      ((loneBlocks call lists).map g).sum = (lists.flatten.map g).sum := by
  induction lists with
  | nil => exact add_zero _
  | cons ids lists ih =>
    unfold loneBlocks at ih ⊢
    rw [List.flatMap_cons, List.flatten_cons, List.map_append, List.map_append, List.sum_append,
      List.sum_append, ← ih]
    unfold addedIds
    by_cases hlone : (call ids).avx2Asm = true ∧ ids.length < 2
    · rw [if_pos ⟨hx, hlone⟩, List.filter_cons_of_pos (by simpa using hlone), List.flatten_cons,
        List.map_append, List.sum_append, List.map_nil, List.sum_nil, zero_add]
      exact add_left_comm _ _ _
    · rw [if_neg fun h => hlone h.2, List.filter_cons_of_neg (by simpa using hlone), add_assoc]

theorem decodesTo_iff (hc : codeType ≠ .OptimalLRC) (hl : LocalCode codeType k r z)
    (hf : HasLocalGroup codeType k r z failed) {lists : List (List ℕ)}
    (hperm : lists.flatten.Perm (localRepairSet codeType k r z failed)) (call : List ℕ → DecodeCall) :
    DecodesTo codeType call k r z failed lists ↔ LoneCancel codeType call k r z failed lists := by
  obtain ⟨-, hfl⟩ := inLocalRow_localGroup hc hl hf
  have hmem : ∀ ids ∈ lists, ∀ b ∈ ids, b < k + r + z ∧
      inLocalRow codeType k r z (localGroup codeType k r z failed) b = true := by
    intro ids hids b hb
    have hb := List.mem_filter.mp (hperm.mem_iff.mp (List.mem_flatten.mpr ⟨ids, hids, hb⟩))
    exact ⟨List.mem_range.mp hb.1, (of_decide_eq_true hb.2).2⟩
  -- neither the order of a list nor unset memory has a part in the coefficients
  have hcoef : ∀ ids ∈ lists, ∀ b ∈ ids, decodeCoef codeType (call ids) k r z failed (ids.headD 0) b =
      decodeCoef codeType {} k r z failed 0 b := by
    intro ids hids b hb
    apply Gf.mk_inj.mp
    rw [decodeCoef_eq hc _ hf hfl (hmem ids hids b hb).2, decodeCoef_eq hc _ hf hfl
      (hmem ids hids b hb).2]
  have hall : ∀ j < k, (lists.flatten.map fun b => Gf.mk (decodeCoef codeType {} k r z failed 0 b) *
      Gf.mk (genMatrix codeType k r z b j)).sum = Gf.mk (genMatrix codeType k r z failed j) := by
    refine (combine_codeword_iff (genMatrix_systematic codeType) (fun b hb => ?_) hf.1).mp
      fun blockSize data hd => ?_
    · obtain ⟨ids, hids, hb⟩ := List.mem_flatten.mp hb
      exact (hmem ids hids b hb).1
    · rw [combine_perm hperm, combine_localRepairSet hc hl hf hd]
  unfold DecodesTo
  simp only [xorBlocks_decode hcoef]
  rw [combine_codeword_iff (genMatrix_systematic codeType) (fun b hb => ?_) hf.1]
  · by_cases hx : XorDecoded codeType k r failed
    · refine (forall₂_congr fun j hj => ?_).trans ⟨fun h _ => h, fun h => h hx⟩
      rw [← hall j hj, ← sum_addedIds hx call, left_eq_add]
      simp only [decodeCoef_of_xor hx, Gf.mk_one, one_mul]
    · rw [flatMap_addedIds_of_not hx]
      exact ⟨fun _ h => absurd h hx, fun _ => hall⟩
  · obtain ⟨ids, hids, hb⟩ := List.mem_flatMap.mp hb
    exact (hmem ids hids b (mem_of_mem_addedIds hb)).1

theorem xorBlocks_singleton {size : ℕ} {b : List UInt8} (h : b.length = size) : xorBlocks size [b] = b := by
  refine (xorBlocks_map (fun _ => b) size [0]).trans ((combine_eq_iff h).mpr fun i _ => ?_)
  rw [List.map_singleton, List.sum_singleton, Gf.mk_one, one_mul]

/-- **Local decoding.**  The other blocks of the local group of a block give it back, in any order, and
so do the decoded parts of any partition of them, exactly when `LoneCancel`. -/
theorem local_decode_iff (hc : codeType ≠ .OptimalLRC) (call : List ℕ → DecodeCall)
    (hl : LocalCode codeType k r z) (hf : HasLocalGroup codeType k r z failed) :
    (∀ order : List ℕ, order.Perm (localRepairSet codeType k r z failed) →
      ((∀ (blockSize : ℕ) (data : List (List UInt8)), DataBlocks k blockSize data →
        decodeBlock codeType (call order) k r z order
            (order.map (blockOf (codeword (genMatrix codeType) k r z data blockSize))) blockSize failed =
          blockOf (codeword (genMatrix codeType) k r z data blockSize) failed) ↔
        LoneCancel codeType call k r z failed [order])) ∧
    ∀ lists : List (List ℕ), lists.flatten.Perm (localRepairSet codeType k r z failed) →
      (DecodesTo codeType call k r z failed lists ↔ LoneCancel codeType call k r z failed lists) := by
  refine ⟨fun order hperm => ?_, fun lists hperm => decodesTo_iff hc hl hf hperm call⟩
  rw [← decodesTo_iff hc hl hf (by rwa [List.flatten_singleton]) call]
  refine forall₃_congr fun blockSize data _ => ?_
  rw [List.map_singleton, xorBlocks_singleton]
  rw [decodeBlock_eq_combine, combine, List.length_map, List.length_range]

/-- a data block of gLRC from one list and a global parity of UniLRC from two, in the portable build; the
same global parity from one list in the assembly build -/
theorem local_decode_four_two_two :
    DecodesTo .gLRC (fun _ => {}) 4 2 2 0 [[6, 2, 1]] ∧
    DecodesTo .UniLRC (fun _ => {}) 4 2 2 4 [[1], [6, 0]] ∧
    DecodesTo .UniLRC (fun _ => { avx2Asm := true }) 4 2 2 4 [[1, 6, 0]] := by
  have hglrc : LocalCode .gLRC 4 2 2 := ⟨by decide, by decide, by decide, fun _ => by decide⟩
  have hunilrc : LocalCode .UniLRC 4 2 2 := ⟨by decide, fun _ => by decide, fun _ => by decide, by decide⟩
  refine ⟨?_, ?_, ?_⟩
  · exact ((local_decode_iff (by decide) _ hglrc ⟨by decide, by decide⟩).2 _ (by decide)).mpr
      (loneCancel_of_nil rfl)
  · exact ((local_decode_iff (by decide) _ hunilrc ⟨by decide, by decide⟩).2 _ (by decide)).mpr
      (loneCancel_of_nil rfl)
  · exact ((local_decode_iff (by decide) _ hunilrc ⟨by decide, by decide⟩).2 _ (by decide)).mpr
      (loneCancel_of_nil rfl)

/-- one data block in a local group: the assembly build decodes block 0 from block 4 alone, to zero; and
block 1 is missing in the sum where it is the only block of its list -/
theorem local_decode_lone :
    localRepairSet .AzureLRC 2 2 2 0 = [4] ∧
    decodeBlock .AzureLRC { avx2Asm := true } 2 2 2 [4]
      ([4].map (blockOf (codeword genAzureLrcMatrix 2 2 2 [[1], [2]] 1))) 1 0 = [0] ∧
    blockOf (codeword genAzureLrcMatrix 2 2 2 [[1], [2]] 1) 0 = [1] ∧
    localRepairSet .UniLRC 4 2 2 4 = [0, 1, 6] ∧
    ¬DecodesTo .UniLRC (fun _ => { avx2Asm := true }) 4 2 2 4 [[1], [6, 0]] := by
  refine ⟨by decide, by decide +kernel, by decide +kernel, by decide, fun h => ?_⟩
  have hbytes := h 1 [[0], [1], [0], [0]] ⟨rfl, by decide⟩
  revert hbytes
  decide +kernel

end

end Mlrc
