import Mlrc.Code.Generator
import Mlrc.Data.Slots

/-!
# Encoding the first data blocks of a stripe

A subset upload has fewer than `k` data blocks.  Its encoders copy the columns of these blocks out
of the parity rows, with a stride of their own, and run the kernel on the smaller matrix.

* `subMatrix_eq`   the copied matrix has the first columns of the parity rows;
* `padded`   data blocks followed by blocks of zeros;
* `partialEncodeWith_eq`   the partial encoder computes the parities of the padded data.
-/

namespace Mlrc

open Finset

/-- the loop of `memcpy`: row `i` of `sub_matrix` is the start of row `k + i` of `encode_matrix` -/
def subMatrix (k r z dataBlockNum : ℕ) (encodeMatrix : List UInt8) : List UInt8 :=
  (List.range (r + z)).foldl (fun sub i =>
    writeAt sub (i * dataBlockNum) (readAt encodeMatrix ((k + i) * k) dataBlockNum))
    (List.replicate ((r + z) * dataBlockNum) 0)

/-- the partial encoders: the parity blocks of the first `data_block_num` data blocks -/
def partialEncodeWith (gen : ℕ → ℕ → ℕ → Mat UInt8) (k r z dataBlockNum : ℕ)
    (data : List (List UInt8)) (blockSize : ℕ) : List (List UInt8) :=
  let encodeMatrix := rowsFrom 0 (k + r + z) k (gen k r z)
  encodeData blockSize dataBlockNum (r + z) (subMatrix k r z dataBlockNum encodeMatrix) data

def partialEncodeUnilrc := partialEncodeWith genUnilrcMatrix

def partialEncodeAzureLrc := partialEncodeWith genAzureLrcMatrix

/-! ## The smaller matrix -/

theorem readAt_rowsFrom (first : ℕ) {rows k i m : ℕ} (M : ℕ → ℕ → UInt8) (hi : i < rows) (hm : m ≤ k) :
    readAt (rowsFrom first rows k M) (i * k) m = (List.range m).map (M (first + i)) := by
  have hlen : (rowsFrom first rows k M).length = rows * k :=
    length_flatMap_range (fun i => by rw [List.length_map, List.length_range]) rows
  have hfit : i * k + m ≤ (rowsFrom first rows k M).length := by
    calc i * k + m ≤ i * k + k := Nat.add_le_add_left hm _
      _ = (i + 1) * k := (Nat.succ_mul i k).symm
      _ ≤ rows * k := Nat.mul_le_mul_right k hi
      _ = _ := hlen.symm
  apply ext_getD (length_readAt hfit) (by rw [List.length_map, List.length_range])
  intro j hj
  rw [getD_readAt _ _ hj, getD_rowsFrom first M hi (by omega), getD_map_range _ hj]

theorem rowsFrom_succ (first rows k : ℕ) (M : ℕ → ℕ → UInt8) :
    rowsFrom first (rows + 1) k M = rowsFrom first rows k M ++ (List.range k).map (M (first + rows)) := by
  unfold rowsFrom
  rw [List.range_succ, List.flatMap_append, List.flatMap_singleton]

theorem writeAt_append_replicate (rows row : List UInt8) (n : ℕ) :
    writeAt (rows ++ List.replicate (row.length + n) 0) rows.length row =
      rows ++ row ++ List.replicate n 0 := by
  unfold writeAt
  rw [List.take_left, List.drop_append, List.drop_replicate, Nat.add_sub_cancel_left,
    Nat.add_sub_cancel_left, List.drop_eq_nil_of_le le_self_add, List.nil_append]

theorem subMatrix_eq (k r z : ℕ) {m : ℕ} (M : ℕ → ℕ → UInt8) (hm : m ≤ k) :
    subMatrix k r z m (rowsFrom 0 (k + r + z) k M) = rowsFrom k (r + z) m M := by
  have hrows : ∀ i, (rowsFrom k i m M).length = i * m := fun i =>
    length_flatMap_range (fun i => by rw [List.length_map, List.length_range]) i
  -- after `i` rounds the first `i` rows are in place
  have hloop := foldl_range_induct (fun sub i =>
      writeAt sub (i * m) (readAt (rowsFrom 0 (k + r + z) k M) ((k + i) * k) m))
    (fun i sub => sub = rowsFrom k i m M ++ List.replicate ((r + z - i) * m) 0) (r + z)
    (s := List.replicate ((r + z) * m) 0) rfl ?_
  · rw [Nat.sub_self, zero_mul, List.replicate_zero, List.append_nil] at hloop
    exact hloop
  · intro i sub hi hsub
    have hrow : ((List.range m).map (M (k + i))).length = m := by
      rw [List.length_map, List.length_range]
    have hsplit : (r + z - i) * m = ((List.range m).map (M (k + i))).length + (r + z - (i + 1)) * m := by
      have hsucc : r + z - i = r + z - (i + 1) + 1 := by omega
      rw [hrow, hsucc, Nat.succ_mul, add_comm]
    rw [hsub, readAt_rowsFrom 0 M (by omega) hm, zero_add, rowsFrom_succ, ← hrows i, hsplit,
      writeAt_append_replicate]

/-! ## Padding -/

/-- data blocks, followed by blocks of zeros up to `k` blocks -/
def padded (k blockSize : ℕ) (data : List (List UInt8)) : List (List UInt8) :=
  data ++ List.replicate (k - data.length) (List.replicate blockSize 0)

section
variable {gen : ℕ → ℕ → ℕ → Mat UInt8} {k r z m blockSize : ℕ} {data : List (List UInt8)}

theorem padded_blocks (hd : DataBlocks m blockSize data) (hm : m ≤ k) :
    DataBlocks k blockSize (padded k blockSize data) := by
  refine ⟨?_, fun d hmem => ?_⟩
  · rw [padded, List.length_append, List.length_replicate, hd.count]
    exact Nat.add_sub_cancel' hm
  · rcases List.mem_append.mp hmem with h | h
    · exact hd.size d h
    · rw [List.eq_of_mem_replicate h, List.length_replicate]

theorem byteAt_padded_data {j : ℕ} (hj : j < data.length) (i : ℕ) :
    byteAt (padded k blockSize data) j i = byteAt data j i := by
  rw [byteAt, padded, List.getD_append _ _ _ _ hj, byteAt]

theorem byteAt_padded_rest {j : ℕ} (hj : data.length ≤ j) (i : ℕ) :
    byteAt (padded k blockSize data) j i = 0 := by
  rw [byteAt, padded, List.getD_append_right _ _ _ _ hj]
  by_cases hlt : j - data.length < k - data.length
  · rw [List.getD_replicate _ hlt]
    by_cases hi : i < blockSize
    · rw [List.getD_replicate _ hi]
    · rw [List.getD_eq_default _ _ (by rw [List.length_replicate]; omega)]
  · have hnone : (List.replicate (k - data.length) (List.replicate blockSize (0 : UInt8))).getD
        (j - data.length) [] = [] :=
      List.getD_eq_default _ _ (by rw [List.length_replicate]; omega)
    rw [hnone]
    rfl

theorem partialEncodeWith_eq (hd : DataBlocks m blockSize data) (hm : m ≤ k) :
    partialEncodeWith gen k r z m data blockSize =
      encodeWith gen k r z (padded k blockSize data) blockSize := by
  have hsub : partialEncodeWith gen k r z m data blockSize =
      encodeData blockSize m (r + z) (rowsFrom k (r + z) m (gen k r z)) data :=
    congrArg (encodeData blockSize m (r + z) · data) (subMatrix_eq k r z _ hm)
  rw [hsub, encodeWith]
  refine buffers_ext ?_ (fun b => length_of_mem_encodeData) (fun b => length_of_mem_encodeData) ?_
  · rw [encodeData_length, encodeData_length]
  · intro l hl i hi
    rw [encodeData_length] at hl
    apply Gf.mk_inj.mp
    rw [byteAt_encodeData _ _ hl hi, byteAt_encodeData _ _ hl hi]
    have hentry : ∀ n, ∀ j < n, (rowsFrom k (r + z) n (gen k r z)).getD (l * n + j) 0 =
        gen k r z (k + l) j := fun n j hj => getD_rowsFrom k _ hl hj
    calc ∑ j ∈ range m, Gf.mk ((rowsFrom k (r + z) m (gen k r z)).getD (l * m + j) 0) *
          Gf.mk (byteAt data j i)
        = ∑ j ∈ range m, Gf.mk ((rowsFrom k (r + z) k (gen k r z)).getD (l * k + j) 0) *
          Gf.mk (byteAt (padded k blockSize data) j i) := by
          refine sum_congr rfl fun j hj => ?_
          have hjm := mem_range.mp hj
          rw [hentry m j hjm, hentry k j (by omega), byteAt_padded_data (by rw [hd.count]; exact hjm)]
      _ = _ := by
          refine sum_subset (range_subset_range.mpr hm) fun j _ hj => ?_
          have hjm : data.length ≤ j := by
            rw [hd.count]
            exact Nat.le_of_not_lt fun h => hj (mem_range.mpr h)
          rw [byteAt_padded_rest hjm, Gf.mk_zero, mul_zero]

end

end Mlrc
