import Mlrc.Gf.Arith
import Mlrc.Data.Flat

/-!
# The encode kernel

`ecInitTables` expands every coefficient to a 32-byte table, `ecEncodeDataBase` reads the entry 1 of
each table back and forms the dot products.  A buffer is a list of bytes, a list of buffers is read
with `byteAt`.

* `gfVectMulInit_one`   the entry 1 of the table of `c` is `c`;
* `byteAt_encodeData`   the kernel computes the matrix product, byte by byte.

Without the assembly `ec_encode_data_avx2` is a call of `ec_encode_data_base`; that build is modelled.
-/

namespace Mlrc

open Finset

variable {len k rows l : ℕ}

/-- byte `i` of buffer `j` -/
def byteAt (bufs : List (List UInt8)) (j i : ℕ) : UInt8 := (bufs.getD j []).getD i 0

def leBytes (w : UInt64) : List UInt8 := (List.range 8).map fun i => (w >>> (8 * UInt64.ofNat i)).toUInt8

/-- `gf_vect_mul_init`, the 64-bit little-endian branch: the multiples of `c` by `0, .., 15` and by
`0, 16, .., 240` -/
def gfVectMulInit (c : UInt8) : List UInt8 :=
  let c2 := xtime c
  let c4 := xtime c2
  let c8 := xtime c4
  let v1 := c.toUInt64 * 0x0100010001000100
  let v2 := c2.toUInt64 * 0x0101000001010000
  let v4 := c4.toUInt64 * 0x0101010100000000
  let v8 := c8.toUInt64 * 0x0101010101010101
  let v4 := v1 ^^^ v2 ^^^ v4
  let c17 := xtime c8
  let c18 := xtime c17
  let c20 := xtime c18
  let c24 := xtime c20
  let v10 := c17.toUInt64 * 0x0100010001000100
  let v20 := c18.toUInt64 * 0x0101000001010000
  let v40 := c20.toUInt64 * 0x0101010100000000
  let v80 := c24.toUInt64 * 0x0101010101010101
  let v40 := v10 ^^^ v20 ^^^ v40
  leBytes v4 ++ leBytes (v8 ^^^ v4) ++ leBytes v40 ++ leBytes (v80 ^^^ v40)

/-- `ec_init_tables`: the tables of the `rows * k` coefficients behind `a` -/
def ecInitTables (k rows : ℕ) (a : List UInt8) : List UInt8 :=
  (List.range rows).flatMap fun i => (List.range k).flatMap fun j =>
    gfVectMulInit (a.getD (i * k + j) 0)

/-- `ec_encode_data_base`: the `dests` output buffers of `len` bytes -/
def ecEncodeDataBase (len srcs dests : ℕ) (v : List UInt8) (src : List (List UInt8)) :
    List (List UInt8) :=
  (List.range dests).map fun l => (List.range len).map fun i =>
    (List.range srcs).foldl (fun s j =>
      s ^^^ gfMul (byteAt src j i) (v.getD (j * 32 + l * srcs * 32 + 1) 0)) 0

/-- `ec_encode_data_avx2` in the portable build -/
def ecEncodeDataAvx2 (len k rows : ℕ) (gTbls : List UInt8) (data : List (List UInt8)) :
    List (List UInt8) :=
  ecEncodeDataBase len k rows gTbls data

/-- `encode_data`: tables, then the kernel -/
def encodeData (len k rows : ℕ) (matrix : List UInt8) (data : List (List UInt8)) :
    List (List UInt8) :=
  ecEncodeDataAvx2 len k rows (ecInitTables k rows matrix) data

/-- the pointer `&matrix[first * k]` of a row-major matrix, as far as `rows` rows -/
def rowsFrom (first rows k : ℕ) (M : ℕ → ℕ → UInt8) : List UInt8 :=
  (List.range rows).flatMap fun i => (List.range k).map fun j => M (first + i) j

theorem buffers_ext {x y : List (List UInt8)} (hlen : x.length = y.length)
    (hx : ∀ b ∈ x, b.length = len) (hy : ∀ b ∈ y, b.length = len)
    (h : ∀ t < x.length, ∀ i < len, byteAt x t i = byteAt y t i) : x = y := by
  refine List.ext_getElem hlen fun t h1 h2 => ?_
  have hxt := hx _ (List.getElem_mem h1)
  have hyt := hy _ (List.getElem_mem h2)
  refine List.ext_getElem (hxt.trans hyt.symm) fun i h3 h4 => ?_
  have hb := h t h1 i (by rw [hxt] at h3; exact h3)
  unfold byteAt at hb
  rwa [List.getD_eq_getElem _ _ h1, List.getD_eq_getElem _ _ h2, List.getD_eq_getElem _ _ h3,
    List.getD_eq_getElem _ _ h4] at hb

theorem sum_map_eq_sum_range {α : Type*} (l : List α) (d : α) (g : α → Gf) :
    (l.map g).sum = ∑ t ∈ range l.length, g (l.getD t d) := by
  induction l with
  | nil => rfl
  | cons a l ih =>
    rw [List.map_cons, List.sum_cons, ih, List.length_cons, sum_range_succ', add_comm]
    rfl

/-! ## What the kernel computes -/

theorem gfVectMulInit_length (c : UInt8) : (gfVectMulInit c).length = 32 := by
  simp [gfVectMulInit, leBytes]

theorem gfVectMulInit_one_fin : ∀ c : Fin 256,
    (gfVectMulInit (UInt8.ofNat c)).getD 1 0 = UInt8.ofNat c := by
  decide +kernel

theorem gfVectMulInit_one (c : UInt8) : (gfVectMulInit c).getD 1 0 = c := by
  have h := gfVectMulInit_one_fin ⟨c.toNat, c.toNat_lt⟩
  rwa [UInt8.ofNat_toNat] at h

theorem getD_ecInitTables (a : List UInt8) {j : ℕ} (hl : l < rows) (hj : j < k) :
    (ecInitTables k rows a).getD (j * 32 + l * k * 32 + 1) 0 = a.getD (l * k + j) 0 := by
  have hrow : ∀ i, ((List.range k).flatMap fun j => gfVectMulInit (a.getD (i * k + j) 0)).length =
      k * 32 := fun i => length_flatMap_range (fun j => gfVectMulInit_length _) k
  have hidx : j * 32 + l * k * 32 + 1 = l * (k * 32) + (j * 32 + 1) := by ring
  rw [hidx, ecInitTables, getD_flatMap_range hrow hl (by omega),
    getD_flatMap_range (fun j => gfVectMulInit_length _) hj (by omega), gfVectMulInit_one]

theorem getD_rowsFrom (first : ℕ) (M : ℕ → ℕ → UInt8) {j : ℕ} (hl : l < rows)
    (hj : j < k) : (rowsFrom first rows k M).getD (l * k + j) 0 = M (first + l) j := by
  rw [rowsFrom, getD_flatMap_range (fun i => by simp) hl hj, getD_map_range _ hj]

@[simp] theorem ecEncodeDataBase_length (len srcs dests : ℕ) (v : List UInt8)
    (src : List (List UInt8)) : (ecEncodeDataBase len srcs dests v src).length = dests := by
  simp [ecEncodeDataBase]

@[simp] theorem encodeData_length (len k rows : ℕ) (a : List UInt8) (data : List (List UInt8)) :
    (encodeData len k rows a data).length = rows := by
  simp [encodeData, ecEncodeDataAvx2]

theorem length_of_mem_encodeData {a : List UInt8} {data : List (List UInt8)}
    {b : List UInt8} (hb : b ∈ encodeData len k rows a data) : b.length = len := by
  unfold encodeData ecEncodeDataAvx2 ecEncodeDataBase at hb
  obtain ⟨l, _, rfl⟩ := List.mem_map.mp hb
  simp

theorem byteAt_ecEncodeDataBase {srcs dests : ℕ} (v : List UInt8) (src : List (List UInt8))
    {i : ℕ} (hl : l < dests) (hi : i < len) :
    Gf.mk (byteAt (ecEncodeDataBase len srcs dests v src) l i) =
      ∑ j ∈ range srcs, Gf.mk (byteAt src j i) * Gf.mk (v.getD (j * 32 + l * srcs * 32 + 1) 0) := by
  rw [byteAt, ecEncodeDataBase, getD_map_range _ hl, getD_map_range _ hi, Gf.mk_foldl_xor,
    Gf.mk_zero, zero_add]
  simp only [Gf.mk_gfMul]
  rfl

theorem byteAt_encodeData (a : List UInt8) (data : List (List UInt8)) {i : ℕ}
    (hl : l < rows) (hi : i < len) : Gf.mk (byteAt (encodeData len k rows a data) l i) =
      ∑ j ∈ range k, Gf.mk (a.getD (l * k + j) 0) * Gf.mk (byteAt data j i) := by
  rw [encodeData, ecEncodeDataAvx2, byteAt_ecEncodeDataBase _ _ hl hi]
  refine sum_congr rfl fun j hj => ?_
  rw [getD_ecInitTables a hl (mem_range.mp hj), mul_comm]

end Mlrc
