import Mlrc.Data.Buffer
import Mlrc.Gf.Encode

/-!
# The vector kernels

The assembly build of `ec_encode_data_avx2`.  A kernel of `n` rows takes 32 bytes of every source at a
time and looks up both nibbles of each byte in the tables of its rows.  A length that is no
multiple of 32 ends in a pass at `len - 32` that overlaps the pass before it.

* `shuffle_xor_eq`   two lookups in the table of `c` are one product with `c`;
* `loop32_eq`   the loop ends, with every byte written as the portable kernel writes it;
* `encodeRows_eq`   six rows at a time, then the kernel of the rest;
* `avx2_agrees_with_base`   the assembly build and the portable build store the same bytes.
-/

namespace Mlrc

open List Nat

/-! ## The kernels -/

/-- `vpsraw` by 4 on words of 16 bits, then `vpand` with the mask `0x0f0f..` -/
def highNibbles : List UInt8 → List UInt8
  | x :: y :: rest =>
    let w := (y.toBitVec ++ x.toBitVec).sshiftRight 4 &&& 0x0f0f#16
    ⟨w.extractLsb' 0 8⟩ :: ⟨w.extractLsb' 8 8⟩ :: highNibbles rest
  | _ => []

/-- `vpand` with the mask -/
def lowNibbles (x : List UInt8) : List UInt8 := x.map (· &&& 0x0f)

def shuffleLane (lane index : List UInt8) : List UInt8 :=
  index.map fun i => if i &&& 0x80 ≠ 0 then 0 else lane.getD (i &&& 0x0f).toNat 0

/-- each lane of 16 bytes is looked up in its own half of the register -/
def vpshufb (x index : List UInt8) : List UInt8 :=
  shuffleLane (x.take 16) (index.take 16) ++ shuffleLane (x.drop 16) (index.drop 16)

def vperm2i128 (a b : List UInt8) (imm : ℕ) : List UInt8 :=
  let lane (i : ℕ) := [a.take 16, a.drop 16, b.take 16, b.drop 16].getD i []
  lane (imm % 4) ++ lane (imm / 16 % 4)

/-- the partial product with the table at `tbl` in the kernels of one to three rows -/
def mulVector (gTbls : List UInt8) (tbl : ℕ) (x0 : List UInt8) : List UInt8 :=
  let gft := readAt gTbls tbl 32
  zipWith (· ^^^ ·) (vpshufb (vperm2i128 gft gft 0x11) (highNibbles x0))
    (vpshufb (vperm2i128 gft gft 0x00) (lowNibbles x0))

/-- the kernels of four and more rows swap lanes of the nibbles and leave the table as it is -/
def mulVectorSwapped (gTbls : List UInt8) (tbl : ℕ) (x0 : List UInt8) : List UInt8 :=
  let gft := readAt gTbls tbl 32
  let xtmpa := vperm2i128 (lowNibbles x0) (highNibbles x0) 0x30
  let x0 := vperm2i128 (lowNibbles x0) (highNibbles x0) 0x12
  zipWith (· ^^^ ·) (vpshufb (vperm2i128 gft gft 0x01) x0) (vpshufb gft xtmpa)

/-- the 32 bytes of source `j` at `pos` -/
def loadVector (data : List (List UInt8)) (j pos : ℕ) : List UInt8 :=
  (range 32).map fun i => byteAt data j (pos + i)

section
variable (mul : List UInt8 → ℕ → List UInt8 → List UInt8) (len vec : ℕ) (gTbls : List UInt8)
  (data : List (List UInt8))

/-- `.next_vect`: the sum over the sources for row `l`, tested after the first source -/
def nextVect (pos l : ℕ) : List UInt8 :=
  (range (max vec 1)).foldl (fun xp j =>
    zipWith (· ^^^ ·) xp (mul gTbls ((l * vec + j) * 32) (loadVector data j pos))) (replicate 32 0)

/-- `.loop32` from `pos`; `none` when the fuel is spent -/
def loop32 : ℕ → ℕ → List (List UInt8) → Option (List (List UInt8))
  | 0, _, _ => none
  | fuel + 1, pos, dests =>
    let dests := dests.mapIdx fun l dest => writeAt dest pos (nextVect mul vec gTbls data pos l)
    if pos + 32 ≤ len - 32 then loop32 fuel (pos + 32) dests
    else if pos + 32 = len then some dests
    else loop32 fuel (len - 32) dests  -- one more overlapping pass

/-- the kernel of `n` rows; below 32 bytes it returns at once -/
def gfNvectDotProdAvx2 (n : ℕ) (dests : List (List UInt8)) : Option (List (List UInt8)) :=
  if len < 32 then some dests
  else (loop32 mul len vec gTbls data len 0 (dests.take n)).map (· ++ dests.drop n)

def gfVectDotProdAvx2 := gfNvectDotProdAvx2 mulVector len vec gTbls data 1
def gf2vectDotProdAvx2 := gfNvectDotProdAvx2 mulVector len vec gTbls data 2
def gf3vectDotProdAvx2 := gfNvectDotProdAvx2 mulVector len vec gTbls data 3
def gf4vectDotProdAvx2 := gfNvectDotProdAvx2 mulVectorSwapped len vec gTbls data 4
def gf5vectDotProdAvx2 := gfNvectDotProdAvx2 mulVectorSwapped len vec gTbls data 5
def gf6vectDotProdAvx2 := gfNvectDotProdAvx2 mulVectorSwapped len vec gTbls data 6

end

/-- the `while` and the `switch` of `ec_encode_data_avx2` -/
def encodeRows (len k : ℕ) (data : List (List UInt8)) :
    ℕ → List UInt8 → List (List UInt8) → Option (List (List UInt8))
  | rows + 6, gTbls, coding => do
    let coding ← gf6vectDotProdAvx2 len k gTbls data coding
    let rest ← encodeRows len k data rows (gTbls.drop (6 * k * 32)) (coding.drop 6)
    return coding.take 6 ++ rest
  | 5, gTbls, coding => gf5vectDotProdAvx2 len k gTbls data coding
  | 4, gTbls, coding => gf4vectDotProdAvx2 len k gTbls data coding
  | 3, gTbls, coding => gf3vectDotProdAvx2 len k gTbls data coding
  | 2, gTbls, coding => gf2vectDotProdAvx2 len k gTbls data coding
  | 1, gTbls, coding => gfVectDotProdAvx2 len k gTbls data coding
  | 0, _, coding => some coding

/-- `ec_encode_data_avx2` with the assembly -/
def ecEncodeDataAsm (len k rows : ℕ) (gTbls : List UInt8) (data coding : List (List UInt8)) :
    Option (List (List UInt8)) :=
  if len < 32 then some (ecEncodeDataBase len k rows gTbls data)
  else encodeRows len k data rows gTbls coding

/-! ## A lookup is a product -/

/-- the multiple of `c` by a nibble, bit by bit -/
def nibbleMul (c : UInt8) (i : ℕ) : UInt8 :=
  (range 4).foldl (fun s b => s ^^^ if i.testBit b then xtime^[b] c else 0) 0

theorem leBytes_xor (a b : UInt64) :
    leBytes (a ^^^ b) = zipWith (· ^^^ ·) (leBytes a) (leBytes b) := by
  simp only [leBytes, zipWith_map, zipWith_self]
  refine map_congr_left fun i _ => ?_
  apply UInt8.toBitVec_inj.mp
  simp [BitVec.ushiftRight_xor_distrib]

theorem leBytes_mul_fin : ∀ c : Fin 256,
    let c := UInt8.ofNat c
    leBytes (c.toUInt64 * 0x0100010001000100) = [0, c, 0, c, 0, c, 0, c] ∧
      leBytes (c.toUInt64 * 0x0101000001010000) = [0, 0, c, c, 0, 0, c, c] ∧
      leBytes (c.toUInt64 * 0x0101010100000000) = [0, 0, 0, 0, c, c, c, c] ∧
      leBytes (c.toUInt64 * 0x0101010101010101) = [c, c, c, c, c, c, c, c] := by
  decide +kernel

theorem gfVectMulInit_eq (c : UInt8) : gfVectMulInit c =
    (range 16).map (nibbleMul c) ++ (range 16).map (nibbleMul (xtime^[4] c)) := by
  have hw (c : UInt8) := leBytes_mul_fin ⟨c.toNat, c.toNat_lt⟩
  simp only [UInt8.ofNat_toNat] at hw
  simp only [gfVectMulInit, leBytes_xor, hw]
  simp [nibbleMul, range_succ, testBit, shiftRight_eq_div_pow]
  -- only the place of the highest bit in the sums differs
  and_intros <;> exact UInt8.xor_comm _ _

theorem mk_iterate_xtime (c : UInt8) (b : ℕ) :
    Gf.mk (xtime^[b] c) = Gf.mk (xtime^[b] 1) * Gf.mk c := by
  have hgen (a : UInt8) : Gf.mk (xtime^[b] a) = Gf.mk a * gfTables.exp b := by
    refine Eq.trans ?_ (gfTables.mul_exp (Gf.mk a) b).symm
    induction b with
    | zero => rfl
    | succ b ih => rw [Function.iterate_succ_apply', Function.iterate_succ_apply', ← ih]; rfl
  rw [hgen c, hgen 1, Gf.mk_one, one_mul, mul_comm]

theorem mk_nibbleMul (c : UInt8) (m i : ℕ) :
    Gf.mk (nibbleMul (xtime^[m] c) i) = Gf.mk (nibbleMul (xtime^[m] 1) i) * Gf.mk c := by
  have hbit (b : ℕ) (a : UInt8) : Gf.mk (if i.testBit b then xtime^[b] (xtime^[m] a) else 0) =
      (if i.testBit b then Gf.mk (xtime^[b + m] 1) else 0) * Gf.mk a := by
    split
    · rw [← Function.iterate_add_apply, mk_iterate_xtime]
    · rw [zero_mul, Gf.mk_zero]
  simp only [nibbleMul, Gf.mk_foldl_xor, hbit, Gf.mk_zero, Gf.mk_one, zero_add, mul_one,
    sum_map_mul_right]

theorem nibbles_fin : ∀ x : Fin 256,
    let x := UInt8.ofNat x
    (x &&& 0x0f) &&& 0x80 = 0 ∧ (x >>> 4) &&& 0x80 = 0 ∧
      ((x &&& 0x0f) &&& 0x0f).toNat < 16 ∧ ((x >>> 4) &&& 0x0f).toNat < 16 ∧
      nibbleMul (xtime^[4] 1) ((x >>> 4) &&& 0x0f).toNat ^^^
        nibbleMul 1 ((x &&& 0x0f) &&& 0x0f).toNat = x := by
  decide +kernel

theorem highNibbles_eq (x : List UInt8) (h : Even x.length) :
    highNibbles x = x.map fun b : UInt8 => b >>> 4 := by
  fun_induction highNibbles x with
  | case1 x y rest w ih =>
    have hlow : w.extractLsb' 0 8 = x.toBitVec >>> 4 := by
      ext i hi
      interval_cases i <;> simp [w, BitVec.getElem_sshiftRight] <;> exact BitVec.getElem_append _
    have hhigh : w.extractLsb' 8 8 = y.toBitVec >>> 4 := by
      ext i hi
      interval_cases i <;> simp [w, BitVec.getElem_sshiftRight] <;> exact BitVec.getElem_append _
    rw [ih (by simpa [parity_simps] using h), map_cons, map_cons, hlow, hhigh]
    rfl
  | case2 x hx =>
    rcases x with _ | ⟨a, _ | ⟨b, rest⟩⟩
    · rfl
    · exact absurd h (by simp)
    · exact absurd rfl (hx a b rest)

variable {len k : ℕ} {gTbls : List UInt8} {data : List (List UInt8)}

/-- a kernel multiplies its source vector by the coefficient of the table -/
def Multiplies (mul : List UInt8 → ℕ → List UInt8 → List UInt8) : Prop :=
  ∀ (gTbls : List UInt8) (tbl : ℕ) (c : UInt8) (x : List UInt8), x.length = 32 →
    readAt gTbls tbl 32 = gfVectMulInit c → mul gTbls tbl x = x.map (gfMul · c)

theorem vpshufb_append {a b x y : List UInt8} (ha : a.length = 16) (hx : x.length = 16) :
    vpshufb (a ++ b) (x ++ y) = shuffleLane a x ++ shuffleLane b y := by
  rw [vpshufb, take_left' ha, take_left' hx, drop_left' ha, drop_left' hx]

theorem shuffle_xor_eq (c : UInt8) (x : List UInt8) :
    zipWith (· ^^^ ·) (shuffleLane ((gfVectMulInit c).drop 16) (x.map fun b : UInt8 => b >>> 4))
      (shuffleLane ((gfVectMulInit c).take 16) (lowNibbles x)) = x.map (gfMul · c) := by
  rw [shuffleLane, shuffleLane, lowNibbles, map_map, map_map, zipWith_map, zipWith_self]
  refine map_congr_left fun b _ => ?_
  have hb := nibbles_fin ⟨b.toNat, b.toNat_lt⟩
  simp only [UInt8.ofNat_toNat] at hb
  obtain ⟨hlo, hhi, hlo16, hhi16, hsum⟩ := hb
  have h0 := mk_nibbleMul c 0 ((b &&& 0x0f) &&& 0x0f).toNat
  rw [Function.iterate_zero, id, id] at h0
  simp only [Function.comp_apply, hlo, hhi, ne_eq, not_true, if_false]
  apply Gf.mk_inj.mp
  rw [gfVectMulInit_eq, drop_left' (by simp), take_left' (by simp), getD_map_range _ hhi16,
    getD_map_range _ hlo16, Gf.mk_xor, h0, mk_nibbleMul c 4, ← add_mul, ← Gf.mk_xor, hsum, Gf.mk_gfMul]

theorem mulVector_multiplies : Multiplies mulVector := by
  intro gTbls tbl c x hx hc
  have heven : Even x.length := by rw [hx]; decide
  have hlane {lane index : List UInt8} (hl : lane.length = 16) (hi : index.length = 32) :
      vpshufb (lane ++ lane) index = shuffleLane lane index := by
    rw [← take_append_drop 16 index, vpshufb_append hl (by simp [hi]), shuffleLane, shuffleLane, ← map_append]
    rfl
  rw [mulVector, hc, highNibbles_eq x heven]
  refine Eq.trans (congrArg₂ _ (hlane ?_ ?_) (hlane ?_ ?_)) (shuffle_xor_eq c x) <;>
    simp [gfVectMulInit_length, lowNibbles, hx]

theorem mulVectorSwapped_multiplies : Multiplies mulVectorSwapped := by
  intro gTbls tbl c x hx hc
  have heven : Even x.length := by rw [hx]; decide
  rw [← shuffle_xor_eq, mulVectorSwapped, hc, highNibbles_eq x heven]
  have hl : (lowNibbles x).length = 32 := by simp [lowNibbles, hx]
  have hh : (x.map fun b : UInt8 => b >>> 4).length = 32 := by simp [hx]
  generalize lowNibbles x = l at hl ⊢
  generalize (x.map fun b : UInt8 => b >>> 4) = h at hh ⊢
  have hg := gfVectMulInit_length c
  generalize gfVectMulInit c = gft at hg ⊢
  have hsplit (lane index : List UInt8) : shuffleLane lane index =
      shuffleLane lane (index.take 16) ++ shuffleLane lane (index.drop 16) := by
    rw [shuffleLane, shuffleLane, shuffleLane, ← map_append, take_append_drop]
  show zipWith _ (vpshufb (gft.drop 16 ++ gft.take 16) (h.take 16 ++ l.drop 16))
    (vpshufb gft (l.take 16 ++ h.drop 16)) = _
  rw [vpshufb_append (by simp [hg]) (by simp [hh]), ← take_append_drop 16 gft,
    vpshufb_append (by simp [hg]) (by simp [hl]), take_append_drop, hsplit _ h, hsplit _ l,
    zipWith_append (by simp [shuffleLane, hl, hh]), zipWith_append (by simp [shuffleLane, hl, hh])]
  exact congrArg _ (zipWith_comm_of_comm UInt8.xor_comm)

/-! ## What a kernel stores -/

/-- the tables of the coefficients `a 0, a 1, ..` -/
def HoldsTables (gTbls : List UInt8) (count : ℕ) (a : ℕ → UInt8) : Prop :=
  ∀ m < count, readAt gTbls (m * 32) 32 = gfVectMulInit (a m)

theorem ecInitTables_holds (k rows : ℕ) (a : List UInt8) :
    HoldsTables (ecInitTables k rows a) (rows * k) (a.getD · 0) := by
  intro m hm
  have hk : 0 < k := Nat.pos_of_mul_pos_left (by omega : 0 < rows * k)
  have hrow : ∀ i, ((range k).flatMap fun j => gfVectMulInit (a.getD (i * k + j) 0)).length =
      k * 32 := fun i => length_flatMap_range (fun j => gfVectMulInit_length _) k
  have hlen : (ecInitTables k rows a).length = rows * k * 32 := by
    rw [ecInitTables, length_flatMap_range hrow, Nat.mul_assoc]
  have hsplit : m / k * k + m % k = m := Nat.div_add_mod' m k
  refine ext_getD (d := 0) (length_readAt (by omega)) (gfVectMulInit_length _) fun t ht => ?_
  have hmod := Nat.mod_lt m hk
  have hidx : m * 32 + t = m / k * (k * 32) + (m % k * 32 + t) := by
    conv_lhs => rw [← hsplit]
    ring
  rw [getD_readAt _ _ ht, hidx, ecInitTables,
    getD_flatMap_range hrow (Nat.div_lt_of_lt_mul (by rwa [Nat.mul_comm])) (by omega),
    getD_flatMap_range (fun j => gfVectMulInit_length _) hmod ht, hsplit]

theorem HoldsTables.drop {a : ℕ → UInt8} {n m : ℕ} (h : HoldsTables gTbls (n + m) a) :
    HoldsTables (gTbls.drop (n * 32)) m fun i => a (n + i) := by
  intro i hi
  rw [← h (n + i) (by omega), readAt, readAt, drop_drop, add_mul]

theorem ecEncodeDataBase_add (n m : ℕ) :
    ecEncodeDataBase len k (n + m) gTbls data = ecEncodeDataBase len k n gTbls data ++
      ecEncodeDataBase len k m (gTbls.drop (n * k * 32)) data := by
  simp only [ecEncodeDataBase, range_add, map_append, map_map, getD_drop]
  congr 1
  refine map_congr_left fun l _ => map_congr_left fun i _ => ?_
  have hidx (j : ℕ) : j * 32 + (n + l) * k * 32 + 1 = n * k * 32 + (j * 32 + l * k * 32 + 1) := by
    ring
  simp only [hidx]

variable {mul : List UInt8 → ℕ → List UInt8 → List UInt8} {n pos : ℕ} {a : ℕ → UInt8}
  {dests : List (List UInt8)}

theorem foldl_zipWith_xor {w : ℕ} (f : ℕ → ℕ → UInt8) (js : List ℕ) (s : ℕ → UInt8) :
    js.foldl (fun xp j => zipWith (· ^^^ ·) xp ((range w).map (f j))) ((range w).map s) =
      (range w).map fun t => js.foldl (fun b j => b ^^^ f j t) (s t) := by
  induction js generalizing s with
  | nil => rfl
  | cons j js ih => rw [foldl_cons, zipWith_map, zipWith_self, ih]; rfl

theorem nextVect_eq (hmul : Multiplies mul) (hk : 0 < k) (h : HoldsTables gTbls (n * k) a) {l : ℕ}
    (hl : l < n) (hpos : pos + 32 ≤ len) : nextVect mul k gTbls data pos l =
      (range 32).map fun t => byteAt (ecEncodeDataBase len k n gTbls data) l (pos + t) := by
  have hm {j : ℕ} (hj : j < k) : l * k + j < n * k :=
    calc l * k + j < (l + 1) * k := by rw [succ_mul]; omega
      _ ≤ n * k := mul_le_mul_right k hl
  have hpart : ∀ xp, ∀ j ∈ range k,
      zipWith (· ^^^ ·) xp (mul gTbls ((l * k + j) * 32) (loadVector data j pos)) =
      zipWith (· ^^^ ·) xp ((range 32).map fun t => gfMul (byteAt data j (pos + t)) (a (l * k + j))) := by
    intro xp j hj
    rw [hmul _ _ _ _ (by simp [loadVector]) (h _ (hm (mem_range.mp hj))), loadVector, map_map]
    rfl
  rw [nextVect, max_eq_left hk, foldl_ext _ _ _ hpart,
    show replicate 32 (0 : UInt8) = (range 32).map fun _ => 0 by simp, foldl_zipWith_xor]
  refine map_congr_left fun t ht => ?_
  rw [byteAt, ecEncodeDataBase, getD_map_range _ hl, getD_map_range _ (by have := mem_range.mp ht; omega)]
  refine foldl_ext _ _ _ fun s j hj => ?_
  have hidx : j * 32 + l * k * 32 + 1 = (l * k + j) * 32 + 1 := by ring
  -- the portable kernel reads the coefficient back from entry 1 of the same table
  rw [hidx, ← getD_readAt _ _ (by decide : 1 < 32), h _ (hm (mem_range.mp hj)), gfVectMulInit_one]

/-- the bytes below `pos` are those of the portable kernel -/
structure StoredTo (len k n : ℕ) (gTbls : List UInt8) (data : List (List UInt8)) (pos : ℕ)
    (dests : List (List UInt8)) : Prop where
  length : dests.length = n
  buffers : ∀ b ∈ dests, b.length = len
  bytes : ∀ l < n, ∀ i < pos, byteAt dests l i = byteAt (ecEncodeDataBase len k n gTbls data) l i

theorem StoredTo.store (hmul : Multiplies mul) (hk : 0 < k) (h : HoldsTables gTbls (n * k) a)
    (hs : StoredTo len k n gTbls data pos dests) (hpos : pos + 32 ≤ len) :
    StoredTo len k n gTbls data (pos + 32)
      (dests.mapIdx fun l dest => writeAt dest pos (nextVect mul k gTbls data pos l)) where
  length := by rw [length_mapIdx, hs.length]
  buffers b hb := by
    obtain ⟨l, hl, rfl⟩ := mem_mapIdx.mp hb
    have hbuf := hs.buffers _ (getElem_mem hl)
    rw [nextVect_eq hmul hk h (hs.length ▸ hl) hpos, length_writeAt (by simpa [hbuf] using hpos), hbuf]
  bytes l hl i hi := by
    have hl' : l < dests.length := hs.length ▸ hl
    have hbuf := hs.buffers _ (getElem_mem hl')
    have hold := hs.bytes l hl i
    rw [byteAt, getD_eq_getElem _ _ hl', getD_eq_getElem?_getD] at hold
    rw [byteAt, getD_eq_getElem _ [] (by rwa [length_mapIdx]), getElem_mapIdx, getD_eq_getElem?_getD,
      nextVect_eq hmul hk h hl hpos, getElem?_writeAt (by omega), length_map, length_range]
    by_cases hin : pos ≤ i
    · rw [if_pos ⟨hin, hi⟩, ← getD_eq_getElem?_getD, getD_map_range _ (by omega), Nat.add_sub_cancel' hin]
    · rw [if_neg (by omega), hold (by omega)]

theorem loop32_eq (hmul : Multiplies mul) (hk : 0 < k) (h : HoldsTables gTbls (n * k) a) (fuel : ℕ)
    (hs : StoredTo len k n gTbls data pos dests) (hpos : pos + 32 ≤ len)
    (hfuel : len ≤ pos + 32 * fuel) :
    loop32 mul len k gTbls data fuel pos dests = some (ecEncodeDataBase len k n gTbls data) := by
  induction fuel generalizing pos dests with
  | zero => omega
  | succ fuel ih =>
    have hnext := hs.store hmul hk h hpos
    rw [loop32]
    split_ifs with hmore hend
    · exact ih hnext (by omega) (by omega)
    · rw [hend] at hnext
      refine congrArg some (buffers_ext ?_ hnext.buffers ?_ fun l hl => ?_)
      · rw [hnext.length, ecEncodeDataBase_length]
      · rintro b hb
        obtain ⟨l, -, rfl⟩ := mem_map.mp hb
        simp
      · exact hnext.bytes l (hnext.length ▸ hl)
    · -- the bytes below `len - 32` are among those already stored
      have hback : StoredTo len k n gTbls data (len - 32) _ :=
        { hnext with bytes := fun l hl i hi => hnext.bytes l hl i (by omega) }
      exact ih hback (by omega) (by omega)

theorem gfNvectDotProdAvx2_eq (hmul : Multiplies mul) (hk : 0 < k) (h : HoldsTables gTbls (n * k) a)
    (hlen : 32 ≤ len) (hn : n ≤ dests.length) (hbuf : ∀ b ∈ dests, b.length = len) :
    gfNvectDotProdAvx2 mul len k gTbls data n dests =
      some (ecEncodeDataBase len k n gTbls data ++ dests.drop n) := by
  have hs : StoredTo len k n gTbls data 0 (dests.take n) :=
    ⟨length_take_of_le hn, fun b hb => hbuf b (mem_of_mem_take hb), fun _ _ i hi => by omega⟩
  rw [gfNvectDotProdAvx2, if_neg (by omega), loop32_eq hmul hk h len hs (by omega) (by omega)]
  rfl

theorem gfNvectDotProdAvx2_all (hmul : Multiplies mul) (hk : 0 < k) (h : HoldsTables gTbls (n * k) a)
    (hlen : 32 ≤ len) (hn : dests.length = n) (hbuf : ∀ b ∈ dests, b.length = len) :
    gfNvectDotProdAvx2 mul len k gTbls data n dests = some (ecEncodeDataBase len k n gTbls data) := by
  rw [gfNvectDotProdAvx2_eq hmul hk h hlen hn.ge hbuf, drop_eq_nil_of_le hn.le, append_nil]

theorem encodeRows_eq (hk : 0 < k) (hlen : 32 ≤ len) {rows : ℕ} {coding : List (List UInt8)}
    (h : HoldsTables gTbls (rows * k) a) (hrows : coding.length = rows)
    (hbuf : ∀ b ∈ coding, b.length = len) :
    encodeRows len k data rows gTbls coding = some (ecEncodeDataBase len k rows gTbls data) := by
  fun_induction encodeRows len k data rows gTbls coding generalizing a with
  | case1 rows gTbls coding ih =>
    have hsplit : HoldsTables gTbls (6 * k + rows * k) a := by
      rwa [← add_mul, add_comm]
    have hsix : HoldsTables gTbls (6 * k) a := fun m hm => hsplit m (by omega)
    have htail : (ecEncodeDataBase len k 6 gTbls data ++ coding.drop 6).drop 6 = coding.drop 6 :=
      drop_left' (ecEncodeDataBase_length ..)
    have hrest := ih (ecEncodeDataBase len k 6 gTbls data ++ coding.drop 6) hsplit.drop
    rw [htail, length_drop, hrows] at hrest
    rw [gf6vectDotProdAvx2, gfNvectDotProdAvx2_eq mulVectorSwapped_multiplies hk hsix hlen (by omega) hbuf,
      Option.bind_eq_bind, Option.bind_some, htail, hrest rfl fun b hb => hbuf b (mem_of_mem_drop hb),
      take_left' (ecEncodeDataBase_length ..)]
    exact congrArg some ((ecEncodeDataBase_add 6 rows).symm.trans (by rw [add_comm]))
  | case2 => exact gfNvectDotProdAvx2_all mulVectorSwapped_multiplies hk h hlen hrows hbuf
  | case3 => exact gfNvectDotProdAvx2_all mulVectorSwapped_multiplies hk h hlen hrows hbuf
  | case4 => exact gfNvectDotProdAvx2_all mulVector_multiplies hk h hlen hrows hbuf
  | case5 => exact gfNvectDotProdAvx2_all mulVector_multiplies hk h hlen hrows hbuf
  | case6 => exact gfNvectDotProdAvx2_all mulVector_multiplies hk h hlen hrows hbuf
  | case7 => rw [eq_nil_of_length_eq_zero hrows]; rfl

/-- **The builds agree.**  On the tables of `ec_init_tables`, for every length, row count and content
of the output buffers, the assembly ends and stores what the portable kernel stores. -/
theorem avx2_agrees_with_base (rows : ℕ) (matrix : List UInt8) (data : List (List UInt8))
    {coding : List (List UInt8)} (hk : 0 < k) (hrows : coding.length = rows)
    (hbuf : ∀ b ∈ coding, b.length = len) :
    ecEncodeDataAsm len k rows (ecInitTables k rows matrix) data coding =
      some (ecEncodeDataAvx2 len k rows (ecInitTables k rows matrix) data) := by
  unfold ecEncodeDataAsm
  split_ifs with hlen
  · rfl
  · exact encodeRows_eq hk (by omega) (ecInitTables_holds k rows matrix) hrows hbuf

theorem avx2_agrees_with_base_seven_rows :
    ecEncodeDataAsm 40 2 7 (ecInitTables 2 7 (iterate xtime 1 14)) [replicate 40 3, replicate 40 5]
        (replicate 7 (replicate 40 0)) =
      some (ecEncodeDataAvx2 40 2 7 (ecInitTables 2 7 (iterate xtime 1 14))
        [replicate 40 3, replicate 40 5]) :=
  avx2_agrees_with_base 7 _ _ (by decide) (by simp) (by simp)

end Mlrc
