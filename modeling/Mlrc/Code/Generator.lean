import Mlrc.Code.Groups
import Mlrc.Gf.Encode
import Mlrc.Gf.Invert

/-!
# Generator matrices and encoders

The three generator matrices are built as in the source: an identity with coding rows below it, then
the loops that fill in the local rows.  A row is a block, a column is a data block;
the flat `int` index of the source is the pair of both, as in `Gf.Invert`.

* `genGlrcMatrix_payload`, `genGlrcMatrix_local`   the rows of the gLRC matrix in closed form;
* `genGlrcMatrix_systematic` and its siblings   the first `k` rows are the identity;
* `byteAt_codeword`   block `b` of an encoded stripe is row `b` applied to the data.
-/

namespace Mlrc

open Finset

/-- `gf_gen_local_vector`; the index is cut to a byte by the call of `gf_inv` -/
def gfGenLocalVector (k p : ℕ) (i : ℕ) : UInt8 := gfInv (UInt8.ofNat (i ^^^ (k + p)))

/-- `gf_gen_cauchy_matrix1`: identity, then `1 / (i + j)` -/
def gfGenCauchyMatrix1 (m k : ℕ) : Mat UInt8 := fun i j =>
  if i < k then unitMat i j else if i < m then gfInv (UInt8.ofNat (i ^^^ j)) else 0

/-- `gf_gen_rs_matrix1`: identity, then the powers of `2^(i - k + 1)` -/
def gfGenRsMatrix1 (m k : ℕ) : Mat UInt8 := fun i j =>
  if i < k then unitMat i j
  else if i < m then
    let gen := (List.range (i - k)).foldl (fun gen _ => gfMul gen 2) 2
    (List.range j).foldl (fun p _ => gfMul p gen) 1
  else 0

/-- the assignment `M[i][j] = v` -/
def setEntry (M : Mat UInt8) (i j : ℕ) (v : UInt8) : Mat UInt8 :=
  fun a b => if a = i ∧ b = j then v else M a b

/-- the loop `M[dst][j] ^= M[src][j]` over a row -/
def xorRow (M : Mat UInt8) (dst src : ℕ) : Mat UInt8 :=
  fun a b => if a = dst then M a b ^^^ M src b else M a b

def genGlrcMatrix (k r z : ℕ) : Mat UInt8 :=
  let m := k + r
  let M := (List.range k).foldl (fun M j =>
    setEntry M (m + glrcDataGroupId j k r z) j (gfGenLocalVector k r j)) (gfGenCauchyMatrix1 m k)
  (List.range r).foldl (fun M l => xorRow M (m + glrcPayloadGroupId (k + l) k r z) (k + l)) M

def genAzureLrcMatrix (k r z : ℕ) : Mat UInt8 :=
  let m := k + r
  (List.range k).foldl (fun M i => setEntry M (m + i / (k / z)) i 1) (gfGenRsMatrix1 m k)

def genUnilrcMatrix (k r z : ℕ) : Mat UInt8 :=
  let m := k + r
  (List.range z).foldl (fun M i =>
    (List.range (r / z)).foldl (fun M l => xorRow M (m + i) (k + i * r / z + l)) M)
    (genAzureLrcMatrix k r z)

/-- the encoders: the parity blocks of the rows from `k` on -/
def encodeWith (gen : ℕ → ℕ → ℕ → Mat UInt8) (k r z : ℕ) (data : List (List UInt8))
    (blockSize : ℕ) : List (List UInt8) :=
  encodeData blockSize k (r + z) (rowsFrom k (r + z) k (gen k r z)) data

def encodeGlrc := encodeWith genGlrcMatrix

def encodeUnilrc := encodeWith genUnilrcMatrix

def encodeAzureLrc := encodeWith genAzureLrcMatrix

/-! ## Loops that write below the identity -/

theorem setEntry_of_ne {M : Mat UInt8} {i j a b : ℕ} {v : UInt8} (h : a ≠ i) :
    setEntry M i j v a b = M a b := if_neg fun h' => h h'.1

theorem xorRow_of_ne {M : Mat UInt8} {dst src a b : ℕ} (h : a ≠ dst) :
    xorRow M dst src a b = M a b := if_neg h

theorem foldl_setEntry_of_lt {m i : ℕ} (hi : i < m) (f : ℕ → ℕ) (v : ℕ → UInt8) (n : ℕ)
    (M : Mat UInt8) (c : ℕ) :
    (List.range n).foldl (fun M j => setEntry M (m + f j) j (v j)) M i c = M i c := by
  refine foldl_range_induct _ (fun _ (N : Mat UInt8) => N i c = M i c) n rfl fun j N _ hN => ?_
  rw [setEntry_of_ne (by omega), hN]

theorem foldl_xorRow_of_lt {m i : ℕ} (hi : i < m) (f g : ℕ → ℕ) (n : ℕ) (M : Mat UInt8) (c : ℕ) :
    (List.range n).foldl (fun M l => xorRow M (m + f l) (g l)) M i c = M i c := by
  refine foldl_range_induct _ (fun _ (N : Mat UInt8) => N i c = M i c) n rfl fun l N _ hN => ?_
  rw [xorRow_of_ne (by omega), hN]

theorem foldl_setEntry_row {m g n : ℕ} (f : ℕ → ℕ) (v : ℕ → UInt8) (M : Mat UInt8)
    (h0 : ∀ c, M (m + g) c = 0) {c : ℕ} (hc : c < n) :
    (List.range n).foldl (fun M j => setEntry M (m + f j) j (v j)) M (m + g) c =
      if f c = g then v c else 0 := by
  have h := foldl_range_induct (fun M j => setEntry M (m + f j) j (v j))
    (fun j N => ∀ c, N (m + g) c = if c < j ∧ f c = g then v c else 0) n
    (fun c => by rw [h0 c, if_neg (by omega)])
    (s := M) (fun j N _ hN c => by
      unfold setEntry
      rw [hN c]
      by_cases hcj : c = j
      · simp [hcj, eq_comm (a := g)]
      · have hlt : c < j + 1 ↔ c < j := by omega
        simp [hcj, hlt])
  rw [h c]
  simp [hc]

theorem foldl_xorRow_row {m g : ℕ} (f src : ℕ → ℕ) (n : ℕ) (hsrc : ∀ l < n, src l < m)
    (M : Mat UInt8) (c : ℕ) :
    Gf.mk ((List.range n).foldl (fun M l => xorRow M (m + f l) (src l)) M (m + g) c) =
      Gf.mk (M (m + g) c) + ∑ l ∈ range n, if f l = g then Gf.mk (M (src l) c) else 0 := by
  induction n with
  | zero => simp
  | succ n ih =>
    have hkeep := foldl_xorRow_of_lt (hsrc n (Nat.lt_succ_self n)) f src n M c
    rw [foldl_range_succ, sum_range_succ, ← add_assoc,
      ← ih fun l hl => hsrc l (Nat.lt_succ_of_lt hl)]
    unfold xorRow at hkeep ⊢
    by_cases hg : f n = g
    · rw [if_pos hg, if_pos (by omega), Gf.mk_xor, hkeep]
    · rw [if_neg hg, if_neg (by omega), add_zero]

/-! ## The rows of the generators -/

theorem gfGenCauchyMatrix1_local {m k i : ℕ} (hk : k ≤ m) (hi : m ≤ i) (j : ℕ) :
    gfGenCauchyMatrix1 m k i j = 0 := by
  rw [gfGenCauchyMatrix1, if_neg (by omega), if_neg (by omega)]

theorem genGlrcMatrix_payload {k r z i : ℕ} (hi : i < k + r) (j : ℕ) :
    genGlrcMatrix k r z i j = gfGenCauchyMatrix1 (k + r) k i j := by
  unfold genGlrcMatrix
  rw [foldl_xorRow_of_lt hi (fun l => glrcPayloadGroupId (k + l) k r z) (fun l => k + l),
    foldl_setEntry_of_lt hi (fun j => glrcDataGroupId j k r z)]

theorem genGlrcMatrix_local (k r z g : ℕ) {j : ℕ} (hj : j < k) :
    Gf.mk (genGlrcMatrix k r z (k + r + g) j) =
      (if glrcPayloadGroupId j k r z = g then Gf.mk (gfGenLocalVector k r j) else 0) +
      ∑ l ∈ range r, if glrcPayloadGroupId (k + l) k r z = g
        then Gf.mk (gfGenCauchyMatrix1 (k + r) k (k + l) j) else 0 := by
  unfold genGlrcMatrix
  rw [foldl_xorRow_row (fun l => glrcPayloadGroupId (k + l) k r z) (fun l => k + l) r
      (fun l hl => by omega),
    foldl_setEntry_row (fun j => glrcDataGroupId j k r z) _ _
      (fun c => gfGenCauchyMatrix1_local (by omega) (by omega) c) hj]
  congr 1
  · show Gf.mk (if glrcPayloadGroupId j k r z = g then _ else _) = _
    split <;> rfl
  · refine sum_congr rfl fun l hl => ?_
    rw [foldl_setEntry_of_lt (by have := mem_range.mp hl; omega) (fun j => glrcDataGroupId j k r z)]

/-- the first `k` rows of a generator are the identity -/
def IsSystematic (gen : ℕ → ℕ → ℕ → Mat UInt8) : Prop :=
  ∀ k r z i j, i < k → gen k r z i j = unitMat i j

theorem genGlrcMatrix_systematic : IsSystematic genGlrcMatrix := by
  intro k r z i j hi
  rw [genGlrcMatrix_payload (by omega), gfGenCauchyMatrix1, if_pos hi]

theorem genAzureLrcMatrix_systematic : IsSystematic genAzureLrcMatrix := by
  intro k r z i j hi
  unfold genAzureLrcMatrix
  rw [foldl_setEntry_of_lt (by omega) (fun i => i / (k / z)), gfGenRsMatrix1, if_pos hi]

theorem genUnilrcMatrix_systematic : IsSystematic genUnilrcMatrix := by
  intro k r z i j hi
  unfold genUnilrcMatrix
  refine foldl_range_induct _ (fun _ (N : Mat UInt8) => N i j = unitMat i j) z
    (genAzureLrcMatrix_systematic k r z i j hi) fun g N _ hN => ?_
  rw [foldl_xorRow_of_lt (m := k + r) (by omega) (fun _ => g) (fun l => k + g * r / z + l), hN]

/-! ## Codewords -/

/-- the blocks of a stripe: the data and what the encoder computes from it -/
def codeword (gen : ℕ → ℕ → ℕ → Mat UInt8) (k r z : ℕ) (data : List (List UInt8))
    (blockSize : ℕ) : List (List UInt8) :=
  data ++ encodeWith gen k r z data blockSize

/-- the data blocks of a stripe: `k` blocks of one size -/
structure DataBlocks (k blockSize : ℕ) (data : List (List UInt8)) : Prop where
  count : data.length = k
  size : ∀ d ∈ data, d.length = blockSize

section
variable {gen : ℕ → ℕ → ℕ → Mat UInt8} {k r z blockSize : ℕ} {data : List (List UInt8)}

theorem codeword_length (hd : DataBlocks k blockSize data) :
    (codeword gen k r z data blockSize).length = k + r + z := by
  rw [codeword, List.length_append, hd.count, encodeWith, encodeData_length, add_assoc]

theorem length_of_mem_codeword (hd : DataBlocks k blockSize data) {b : List UInt8}
    (hb : b ∈ codeword gen k r z data blockSize) : b.length = blockSize := by
  rcases List.mem_append.mp hb with h | h
  · exact hd.size b h
  · exact length_of_mem_encodeData h

/-- block `b` of a list of blocks -/
def blockOf (blocks : List (List UInt8)) (b : ℕ) : List UInt8 := blocks.getD b []

theorem length_blockOf_codeword (hd : DataBlocks k blockSize data) {b : ℕ} (hb : b < k + r + z) :
    (blockOf (codeword gen k r z data blockSize) b).length = blockSize := by
  have hlen : b < (codeword gen k r z data blockSize).length := by
    rw [codeword_length hd]
    exact hb
  rw [blockOf, List.getD_eq_getElem _ _ hlen]
  exact length_of_mem_codeword hd (List.getElem_mem hlen)

theorem byteAt_codeword_data (hd : DataBlocks k blockSize data) {b : ℕ} (hb : b < k) (i : ℕ) :
    byteAt (codeword gen k r z data blockSize) b i = byteAt data b i := by
  rw [byteAt, codeword, List.getD_append _ _ _ _ (by rw [hd.count]; exact hb), byteAt]

theorem byteAt_codeword (hgen : IsSystematic gen) (hd : DataBlocks k blockSize data) {b i : ℕ}
    (hb : b < k + r + z) (hi : i < blockSize) :
    Gf.mk (byteAt (codeword gen k r z data blockSize) b i) =
      ∑ j ∈ range k, Gf.mk (gen k r z b j) * Gf.mk (byteAt data j i) := by
  by_cases hbk : b < k
  · rw [byteAt_codeword_data hd hbk]
    have hrow := rowVal_unitMat hbk fun j => Gf.mk (byteAt data j i)
    rw [← hrow, ← toGf_unitMat]
    exact sum_congr rfl fun j _ => by rw [toGf, hgen k r z b j hbk]
  · have hlen : data.length ≤ b := by rw [hd.count]; omega
    rw [byteAt, codeword, List.getD_append_right _ _ _ _ hlen, hd.count, encodeWith]
    show Gf.mk (byteAt _ (b - k) i) = _
    rw [byteAt_encodeData _ _ (by omega) hi]
    refine sum_congr rfl fun j hj => ?_
    rw [getD_rowsFrom k _ (by omega) (mem_range.mp hj), Nat.add_sub_cancel' (by omega)]

end

end Mlrc
