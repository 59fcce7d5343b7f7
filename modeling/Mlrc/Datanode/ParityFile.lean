import Mlrc.Gf.Arith
import Mlrc.Data.Buffer
import Mlrc.Data.Bytes
import Mlrc.Data.Flat
import Mlrc.Data.Loop

/-!
# Parity blocks that are not merged yet

A parity of a stripe that is appended to is a file of slices, each behind its offset and its size.  One
reader of such a file adds the slices up at their offsets, the other one takes their bytes one after the
other.

* `serialize`, `deserialize`   a slice behind the end of the file, and all slices of it;
* `handleMergeParity`   the slices added up at their offsets;
* `readBlockBytes`   the read of a block that may not be merged;
* `mergedBlock`   the block that the slices stand for;
* `read_unmerged_parity_iff`   for which slices every read gives that block.
-/

namespace Mlrc

open List Option

variable {slice : ParitySlice} {slices : List ParitySlice} {buf : List UInt8} {filled : ℕ}
  {shapes : List (ℕ × ℕ)}

/-- `ParitySlice`; its size is the number of its bytes -/
structure ParitySlice where
  offset : ℕ
  slicePtr : List UInt8
deriving DecidableEq, Repr

def ParitySlice.size (slice : ParitySlice) : ℕ := slice.slicePtr.length

/-- an `int` of four bytes; `none` when it is negative or the bytes end -/
def readInt (bytes : List UInt8) : Option (ℕ × List UInt8) :=
  (readLe32 bytes).filter fun p => p.1 < 2 ^ 31

def serialize (file : List UInt8) (slice : ParitySlice) : List UInt8 :=
  file ++ (le32 slice.offset ++ le32 slice.size ++ slice.slicePtr)

def serializedFile (slices : List ParitySlice) : List UInt8 := slices.foldl serialize []

/-- the three reads of a round; `none` when the file ends before them, which leaves what is read
unset -/
def readSlice (file : List UInt8) : Option (ParitySlice × List UInt8) := do
  let (offset, file) ← readInt file
  let (size, file) ← readInt file
  if file.length < size then none else some (⟨offset, file.take size⟩, file.drop size)

/-- the loop of `deserialize`; every round reads eight bytes or more, so the length of the file bounds
the rounds -/
def deserializeLoop : ℕ → List UInt8 → Option (List ParitySlice)
  | 0, _ => some []
  | fuel + 1, file =>
    if file = [] then some []
    else match readSlice file with
      | none => none
      | some (slice, rest) => (deserializeLoop fuel rest).map (slice :: ·)

/-- `deserialize(filename)` -/
def deserialize (file : List UInt8) : Option (List ParitySlice) := deserializeLoop file.length file

/-- the loop of `deserialize(filename, buf)`, which reads the offsets but does not use them; `none` also
when a slice is read past the end of the buffer -/
def deserializeIntoLoop : ℕ → List UInt8 → ℕ → List UInt8 → Option (List UInt8)
  | 0, _, _, buf => some buf
  | fuel + 1, file, accumulatedOffset, buf =>
    if file = [] then some buf
    else match readSlice file with
      | none => none
      | some (slice, rest) =>
        if buf.length < accumulatedOffset + slice.size then none
        else deserializeIntoLoop fuel rest (accumulatedOffset + slice.size)
          (writeAt buf accumulatedOffset slice.slicePtr)

/-- `deserialize(filename, buf)` -/
def deserializeInto (file buf : List UInt8) : Option (List UInt8) :=
  deserializeIntoLoop file.length file 0 buf

/-- byte `i` of a slice in `handleMergeParity`; `none` is the failed assertion -/
def mergeByte (blockSize : ℕ) (slice : ParitySlice) (mergedBuf : List UInt8) (i : ℕ) :
    Option (List UInt8) :=
  if slice.offset + i < blockSize then
    some (mergedBuf.set (slice.offset + i)
      (mergedBuf.getD (slice.offset + i) 0 ^^^ slice.slicePtr.getD i 0))
  else none

def mergeSlice (blockSize : ℕ) (mergedBuf : List UInt8) (slice : ParitySlice) : Option (List UInt8) :=
  (range slice.size).foldlM (mergeByte blockSize slice) mergedBuf

/-- `handleMergeParity`: what the file of the block holds afterwards -/
def handleMergeParity (blockSize : ℕ) (file : List UInt8) : Option (List UInt8) := do
  let slices ← deserialize file
  slices.foldlM (mergeSlice blockSize) (replicate blockSize 0)

structure ReadBlockBytesReply where
  ok : Bool
  data : List UInt8 := []
deriving DecidableEq, Repr

/-- the load that the readers share: a file of the size of a block is flat -/
def loadBlock (blockSize : ℕ) (file : List UInt8) : Option (List UInt8) :=
  if file.length = blockSize then some file
  else deserializeInto file (replicate blockSize 0)

def readBlockBytes (file : Option (List UInt8)) (blockSize : ℕ) : Option ReadBlockBytesReply :=
  match file with
  | none => some { ok := false }
  | some file =>
    if blockSize = 0 ∨ file.length = 0 then some { ok := false }
    else (loadBlock blockSize file).map fun data => { ok := true, data := data }

/-! ## What the slices stand for -/

/-- the byte that a slice adds at position `p` -/
def ParitySlice.byteAt (slice : ParitySlice) (p : ℕ) : UInt8 :=
  if slice.offset ≤ p then slice.slicePtr.getD (p - slice.offset) 0 else 0

/-- the sum of the slices at position `p` -/
def sumAt (slices : List ParitySlice) (p : ℕ) : UInt8 :=
  slices.foldr (fun slice sum => slice.byteAt p ^^^ sum) 0

/-- all slices added up at their offsets, over zeros -/
def mergedBlock (blockSize : ℕ) (slices : List ParitySlice) : List UInt8 :=
  (range blockSize).map (sumAt slices)

/-! ## Reading back what was serialized -/

theorem readInt_le32 {n : ℕ} (hn : n < 2 ^ 31) (rest : List UInt8) :
    readInt (le32 n ++ rest) = some (n, rest) := by
  unfold readInt
  rw [readLe32_le32 (by omega)]
  exact filter_eq_some_iff.mpr ⟨rfl, decide_eq_true hn⟩

/-- the slices that an `int` can describe -/
def ParitySlice.Fits (blockSize : ℕ) (slice : ParitySlice) : Prop :=
  slice.offset + slice.size ≤ blockSize

def ParitySlice.bytes (slice : ParitySlice) : List UInt8 :=
  le32 slice.offset ++ le32 slice.size ++ slice.slicePtr

theorem ParitySlice.length_bytes (slice : ParitySlice) : slice.bytes.length = 8 + slice.size := by
  unfold ParitySlice.bytes
  rw [length_append, length_append]
  rfl

theorem serializedFile_eq (slices : List ParitySlice) :
    serializedFile slices = slices.flatMap ParitySlice.bytes := by
  have hfold : ∀ file : List UInt8, slices.foldl serialize file =
      file ++ slices.flatMap ParitySlice.bytes := by
    induction slices with
    | nil => intro file; rw [flatMap_nil, append_nil]; rfl
    | cons slice slices ih =>
      intro file
      rw [foldl_cons, ih, flatMap_cons, ← append_assoc]
      rfl
  exact hfold []

section
variable {blockSize : ℕ}

theorem readSlice_bytes (hint : blockSize < 2 ^ 31)
    (hfit : slice.Fits blockSize) (rest : List UInt8) :
    readSlice (slice.bytes ++ rest) = some (slice, rest) := by
  unfold ParitySlice.Fits at hfit
  unfold readSlice ParitySlice.bytes
  rw [append_assoc, append_assoc, readInt_le32 (by omega)]
  show (readInt (le32 slice.size ++ (slice.slicePtr ++ rest))).bind _ = _
  rw [readInt_le32 (by omega)]
  show (if (slice.slicePtr ++ rest).length < slice.slicePtr.length then none else
    some (ParitySlice.mk slice.offset ((slice.slicePtr ++ rest).take slice.slicePtr.length),
      (slice.slicePtr ++ rest).drop slice.slicePtr.length)) = _
  rw [if_neg (by rw [length_append]; omega), take_left, drop_left]

theorem flatMap_bytes_ne_nil (slice : ParitySlice) (slices : List ParitySlice) :
    (slice :: slices).flatMap ParitySlice.bytes ≠ [] := by
  intro hnil
  have hlen := congrArg List.length hnil
  rw [flatMap_cons, length_append, ParitySlice.length_bytes, length_nil] at hlen
  omega

/-- the first round of a reader, which has fuel for the slices behind the first one as well -/
theorem readSlice_cons (hint : blockSize < 2 ^ 31) (hfit : slice.Fits blockSize) {fuel : ℕ}
    (hfuel : ((slice :: slices).flatMap ParitySlice.bytes).length ≤ fuel) :
    ∃ rounds, fuel = rounds + 1 ∧ (slices.flatMap ParitySlice.bytes).length ≤ rounds ∧
      readSlice ((slice :: slices).flatMap ParitySlice.bytes) =
        some (slice, slices.flatMap ParitySlice.bytes) := by
  rw [flatMap_cons, length_append, ParitySlice.length_bytes] at hfuel
  refine ⟨fuel - 1, by omega, by omega, ?_⟩
  rw [flatMap_cons]
  exact readSlice_bytes hint hfit _

section
variable (hint : blockSize < 2 ^ 31) (hfit : ∀ slice ∈ slices, slice.Fits blockSize)
include hint hfit

theorem deserializeLoop_eq {fuel : ℕ} (hfuel : (slices.flatMap ParitySlice.bytes).length ≤ fuel) :
    deserializeLoop fuel (slices.flatMap ParitySlice.bytes) = some slices := by
  induction slices generalizing fuel with
  | nil => cases fuel <;> rfl
  | cons slice slices ih =>
    obtain ⟨rounds, rfl, hrounds, hread⟩ := readSlice_cons hint (hfit slice mem_cons_self) hfuel
    unfold deserializeLoop
    rw [if_neg (flatMap_bytes_ne_nil slice slices), hread]
    simp only
    rw [ih (fun a ha => hfit a (mem_cons_of_mem _ ha)) hrounds]
    rfl

theorem deserialize_serializedFile : deserialize (serializedFile slices) = some slices := by
  rw [serializedFile_eq]
  exact deserializeLoop_eq hint hfit le_rfl

/-- the bytes of all slices, one after the other -/
def payload (slices : List ParitySlice) : List UInt8 := slices.flatMap ParitySlice.slicePtr

omit hint hfit in
theorem payload_cons (slice : ParitySlice) (slices : List ParitySlice) :
    payload (slice :: slices) = slice.slicePtr ++ payload slices := flatMap_cons

theorem deserializeIntoLoop_eq {fuel : ℕ}
    (hfuel : (slices.flatMap ParitySlice.bytes).length ≤ fuel) {acc : ℕ} (hacc : acc ≤ buf.length) :
    deserializeIntoLoop fuel (slices.flatMap ParitySlice.bytes) acc buf =
      if acc + (payload slices).length ≤ buf.length then some (writeAt buf acc (payload slices))
      else none := by
  induction slices generalizing fuel acc buf with
  | nil =>
    rw [if_pos (by exact hacc)]
    show deserializeIntoLoop fuel [] acc buf = some (writeAt buf acc [])
    rw [writeAt_nil]
    cases fuel <;> rfl
  | cons slice slices ih =>
    obtain ⟨rounds, rfl, hrounds, hread⟩ := readSlice_cons hint (hfit slice mem_cons_self) hfuel
    have hsize : slice.size = slice.slicePtr.length := rfl
    unfold deserializeIntoLoop
    rw [if_neg (flatMap_bytes_ne_nil slice slices), hread]
    simp only
    rw [payload_cons, length_append]
    by_cases hover : buf.length < acc + slice.size
    · rw [if_pos hover, if_neg (by omega)]
    · have hlen : (writeAt buf acc slice.slicePtr).length = buf.length := length_writeAt (by omega)
      rw [if_neg hover, ih (fun a ha => hfit a (mem_cons_of_mem _ ha)) hrounds
        (by rw [hlen]; omega), hlen, hsize, add_assoc,
        writeAt_writeAt_append hacc]

theorem deserializeInto_serializedFile :
    deserializeInto (serializedFile slices) (replicate blockSize 0) =
      if (payload slices).length ≤ blockSize then
        some (payload slices ++ replicate (blockSize - (payload slices).length) 0) else none := by
  unfold deserializeInto
  rw [serializedFile_eq, deserializeIntoLoop_eq hint hfit (Nat.le_refl _) (Nat.zero_le _),
    length_replicate, Nat.zero_add]
  unfold writeAt
  rw [take_zero, nil_append, Nat.zero_add, drop_replicate]

end

/-! ## Merging -/

theorem ParitySlice.byteAt_eq (slice : ParitySlice) (p : ℕ) : slice.byteAt p =
    if slice.offset ≤ p ∧ p < slice.offset + slice.size then slice.slicePtr.getD (p - slice.offset) 0
    else 0 := by
  unfold ParitySlice.byteAt
  by_cases hp : slice.offset ≤ p
  · rw [if_pos hp]
    by_cases hend : p < slice.offset + slice.size
    · rw [if_pos ⟨hp, hend⟩]
    · rw [if_neg (by omega), getD_eq_default]
      show slice.size ≤ _
      omega
  · rw [if_neg hp, if_neg (by omega)]

theorem sumAt_cons (slice : ParitySlice) (slices : List ParitySlice) (p : ℕ) :
    sumAt (slice :: slices) p = slice.byteAt p ^^^ sumAt slices p := rfl

theorem mergeSlice_eq (hfit : slice.Fits blockSize) (hlen : buf.length = blockSize) :
    ∃ buf', mergeSlice blockSize buf slice = some buf' ∧ buf'.length = blockSize ∧
      ∀ p, buf'.getD p 0 = buf.getD p 0 ^^^ slice.byteAt p := by
  unfold ParitySlice.Fits at hfit
  -- after `i` rounds the first `i` bytes are added
  have hloop : ∀ i ≤ slice.size, ∃ buf',
      (range i).foldlM (mergeByte blockSize slice) buf = some buf' ∧ buf'.length = blockSize ∧
      ∀ p, buf'.getD p 0 = buf.getD p 0 ^^^
        if slice.offset ≤ p ∧ p < slice.offset + i then slice.slicePtr.getD (p - slice.offset) 0
        else 0 := by
    intro i hi
    induction i with
    | zero =>
      refine ⟨buf, rfl, hlen, fun p => ?_⟩
      rw [if_neg (by omega), UInt8.xor_zero]
    | succ i ih =>
      obtain ⟨buf', hrun, hlen', hget⟩ := ih (by omega)
      refine ⟨buf'.set (slice.offset + i)
        (buf'.getD (slice.offset + i) 0 ^^^ slice.slicePtr.getD i 0), ?_, ?_, fun p => ?_⟩
      · rw [foldlM_range_succ, hrun]
        exact if_pos (by omega)
      · rw [length_set, hlen']
      · by_cases hp : p = slice.offset + i
        · subst hp
          rw [getD_eq_getElem?_getD, getElem?_set_self (by omega), getD_some, hget,
            if_neg (by omega), if_pos ⟨by omega, by omega⟩, UInt8.xor_zero, Nat.add_sub_cancel_left]
        · rw [getD_eq_getElem?_getD, getElem?_set_ne (Ne.symm hp),
            ← getD_eq_getElem?_getD, hget]
          refine congrArg (buf.getD p 0 ^^^ ·) (if_congr ?_ rfl rfl)
          omega
  obtain ⟨buf', hrun, hlen', hget⟩ := hloop slice.size le_rfl
  refine ⟨buf', hrun, hlen', fun p => ?_⟩
  rw [hget, ParitySlice.byteAt_eq]

theorem mergeSlices_eq (hfit : ∀ slice ∈ slices, slice.Fits blockSize) (hlen : buf.length = blockSize) :
    ∃ buf', slices.foldlM (mergeSlice blockSize) buf = some buf' ∧ buf'.length = blockSize ∧
      ∀ p, buf'.getD p 0 = buf.getD p 0 ^^^ sumAt slices p := by
  induction slices generalizing buf with
  | nil => exact ⟨buf, rfl, hlen, fun p => UInt8.xor_zero.symm⟩
  | cons slice slices ih =>
    obtain ⟨buf₁, hslice, hlen₁, hget₁⟩ := mergeSlice_eq (hfit slice mem_cons_self) hlen
    obtain ⟨buf₂, hrest, hlen₂, hget₂⟩ := ih (fun a ha => hfit a (mem_cons_of_mem _ ha)) hlen₁
    refine ⟨buf₂, ?_, hlen₂, fun p => ?_⟩
    · rw [foldlM_cons, hslice]
      exact hrest
    · rw [hget₂, hget₁, UInt8.xor_assoc, sumAt_cons]

theorem length_mergedBlock (slices : List ParitySlice) :
    (mergedBlock blockSize slices).length = blockSize := by
  unfold mergedBlock
  rw [length_map, length_range]

theorem handleMergeParity_serializedFile (hint : blockSize < 2 ^ 31)
    (hfit : ∀ slice ∈ slices, slice.Fits blockSize) :
    handleMergeParity blockSize (serializedFile slices) = some (mergedBlock blockSize slices) := by
  obtain ⟨buf, hrun, hlen, hget⟩ := mergeSlices_eq hfit (length_replicate (a := (0 : UInt8)))
  have hsum : ∀ p < blockSize, buf.getD p 0 = (mergedBlock blockSize slices).getD p 0 := by
    intro p hp
    rw [hget, mergedBlock, getD_map_range _ hp, getD_replicate _ hp, UInt8.zero_xor]
  unfold handleMergeParity
  rw [deserialize_serializedFile hint hfit, ← ext_getD hlen (length_mergedBlock slices) hsum]
  exact hrun

end

/-! ## When the readers agree -/

def ParitySlice.shape (slice : ParitySlice) : ℕ × ℕ := (slice.offset, slice.size)

/-- every slice with a byte starts where the slices before it end -/
def InOrder : ℕ → List (ℕ × ℕ) → Prop
  | _, [] => True
  | filled, (offset, size) :: rest => (0 < size → offset = filled) ∧ InOrder (filled + size) rest

def fileLength (shapes : List (ℕ × ℕ)) : ℕ := (shapes.map fun shape => 8 + shape.2).sum

/-- every read of the block, merged or not, gives the sum of its slices -/
structure ReadsMerged (blockSize : ℕ) (slices : List ParitySlice) : Prop where
  merge : handleMergeParity blockSize (serializedFile slices) = some (mergedBlock blockSize slices)
  read : readBlockBytes (some (serializedFile slices)) blockSize =
    some { ok := true, data := mergedBlock blockSize slices }
  load : loadBlock blockSize (serializedFile slices) = some (mergedBlock blockSize slices)

theorem length_serializedFile (slices : List ParitySlice) :
    (serializedFile slices).length = fileLength (slices.map ParitySlice.shape) := by
  rw [serializedFile_eq]
  induction slices with
  | nil => rfl
  | cons slice slices ih =>
    rw [flatMap_cons, length_append, ih, ParitySlice.length_bytes]
    rfl

theorem ParitySlice.byteAt_of_end_le {p : ℕ}
    (h : slice.offset + slice.size ≤ p) : slice.byteAt p = 0 := by
  rw [ParitySlice.byteAt_eq, if_neg (by omega)]

/-- the value at position `p` when the payload is written from `filled` on -/
def payloadAt (filled : ℕ) (slices : List ParitySlice) (p : ℕ) : UInt8 :=
  if filled ≤ p then (payload slices).getD (p - filled) 0 else 0

theorem payloadAt_cons (filled : ℕ) (slice : ParitySlice) (slices : List ParitySlice) (p : ℕ) :
    payloadAt filled (slice :: slices) p =
      if filled ≤ p ∧ p < filled + slice.size then slice.slicePtr.getD (p - filled) 0
      else payloadAt (filled + slice.size) slices p := by
  have hsize : slice.size = slice.slicePtr.length := rfl
  unfold payloadAt
  rw [payload_cons]
  rcases lt_or_ge p filled with hlt | hge
  · rw [if_neg (by omega), if_neg (by omega), if_neg (by omega)]
  · rw [if_pos hge]
    rcases lt_or_ge p (filled + slice.size) with hin | hout
    · rw [if_pos ⟨hge, hin⟩, getD_append _ _ _ _ (by omega)]
    · rw [if_neg (by omega), if_pos hout, getD_append_right _ _ _ _ (by omega), hsize,
        Nat.sub_sub]

theorem InOrder.sumAt_eq (h : InOrder filled (slices.map ParitySlice.shape)) (p : ℕ) :
    sumAt slices p = payloadAt filled slices p := by
  induction slices generalizing filled with
  | nil => exact (ite_self _).symm
  | cons slice slices ih =>
    obtain ⟨hhead, hrest⟩ := h
    rw [sumAt_cons, ih hrest, payloadAt_cons, ParitySlice.byteAt_eq]
    rcases Nat.eq_zero_or_pos slice.size with hzero | hpos
    · rw [if_neg (by omega), UInt8.zero_xor, if_neg (by omega)]
    · have hoffset : slice.offset = filled := hhead hpos
      rw [hoffset]
      by_cases hin : filled ≤ p ∧ p < filled + slice.size
      · rw [if_pos hin, if_pos hin, payloadAt, if_neg (not_le.mpr hin.2), UInt8.xor_zero]
      · rw [if_neg hin, if_neg hin, UInt8.zero_xor]

def zeroSlices (shapes : List (ℕ × ℕ)) : List ParitySlice :=
  shapes.map fun shape => ⟨shape.1, replicate shape.2 0⟩

theorem zeroSlices_shape (shapes : List (ℕ × ℕ)) :
    (zeroSlices shapes).map ParitySlice.shape = shapes := by
  unfold zeroSlices
  rw [List.map_map]
  refine (map_congr_left fun shape _ => ?_).trans (List.map_id shapes)
  exact Prod.ext rfl length_replicate

theorem getD_zeros (size i : ℕ) : (replicate size (0 : UInt8)).getD i 0 = 0 := by
  rw [getD_eq_getElem?_getD, getElem?_replicate]
  split <;> rfl

theorem byteAt_zeros (offset size p : ℕ) :
    (ParitySlice.mk offset (replicate size 0)).byteAt p = 0 := by
  unfold ParitySlice.byteAt
  rw [getD_zeros, ite_self]

theorem sumAt_zeroSlices (shapes : List (ℕ × ℕ)) (p : ℕ) : sumAt (zeroSlices shapes) p = 0 := by
  induction shapes with
  | nil => rfl
  | cons shape shapes ih =>
    refine (sumAt_cons _ (zeroSlices shapes) p).trans ?_
    rw [byteAt_zeros, ih, UInt8.zero_xor]

theorem inOrder_of_sumAt (h : ∀ slices : List ParitySlice, slices.map ParitySlice.shape = shapes →
      ∀ p, sumAt slices p = payloadAt filled slices p) : InOrder filled shapes := by
  induction shapes generalizing filled with
  | nil => trivial
  | cons shape shapes ih =>
    obtain ⟨offset, size⟩ := shape
    constructor
    · -- a single byte tells where the slice is added and where it is copied
      intro hpos
      obtain ⟨size, rfl⟩ := Nat.exists_eq_succ_of_ne_zero (pos_iff_ne_zero.mp hpos)
      have hone := h (⟨offset, 1 :: replicate size 0⟩ :: zeroSlices shapes)
        (by
          rw [map_cons, zeroSlices_shape]
          refine congrArg (· :: shapes) (Prod.ext rfl ?_)
          show (1 :: replicate size (0 : UInt8)).length = _
          rw [length_cons, length_replicate]) filled
      rw [sumAt_cons, sumAt_zeroSlices, UInt8.xor_zero, payloadAt_cons,
        if_pos ⟨le_rfl, Nat.lt_add_of_pos_right (Nat.succ_pos _)⟩, Nat.sub_self] at hone
      unfold ParitySlice.byteAt at hone
      by_cases hle : offset ≤ filled
      · rw [if_pos hle] at hone
        cases hsub : filled - offset with
        | zero => omega
        | succ m =>
          rw [hsub, getD_cons_succ, getD_zeros] at hone
          cases hone
      · rw [if_neg hle] at hone
        cases hone
    · refine ih fun slices hslices p => ?_
      have hrest := h (⟨offset, replicate size 0⟩ :: slices)
        (by
          rw [map_cons, hslices]
          exact congrArg (· :: shapes) (Prod.ext rfl length_replicate)) p
      have hsize : (ParitySlice.mk offset (replicate size 0)).size = size :=
        length_replicate
      rw [sumAt_cons, byteAt_zeros, UInt8.zero_xor, payloadAt_cons, hsize, getD_zeros] at hrest
      rw [hrest]
      by_cases hin : filled ≤ p ∧ p < filled + size
      · rw [if_pos hin, payloadAt, if_neg (by omega)]
      · rw [if_neg hin]

section
variable {blockSize : ℕ} {slices : List ParitySlice}

theorem sumAt_of_le (hfit : ∀ slice ∈ slices, slice.Fits blockSize) {p : ℕ} (hp : blockSize ≤ p) :
    sumAt slices p = 0 := by
  induction slices with
  | nil => rfl
  | cons slice slices ih =>
    have hhead : slice.offset + slice.size ≤ blockSize := hfit slice mem_cons_self
    rw [sumAt_cons, ParitySlice.byteAt_of_end_le (by omega),
      ih fun a ha => hfit a (mem_cons_of_mem _ ha), UInt8.zero_xor]

theorem InOrder.payload_le (h : InOrder filled (slices.map ParitySlice.shape))
    (hfit : ∀ slice ∈ slices, slice.Fits blockSize) (hfilled : filled ≤ blockSize) :
    filled + (payload slices).length ≤ blockSize := by
  induction slices generalizing filled with
  | nil => exact hfilled
  | cons slice slices ih =>
    obtain ⟨hhead, hrest⟩ := h
    have hslice : slice.offset + slice.size ≤ blockSize := hfit slice mem_cons_self
    have hnext : filled + slice.size ≤ blockSize := by
      rcases Nat.eq_zero_or_pos slice.size with hzero | hpos
      · omega
      · have hoffset : slice.offset = filled := hhead hpos
        omega
    rw [payload_cons, length_append, ← add_assoc]
    exact ih hrest (fun a ha => hfit a (mem_cons_of_mem _ ha)) hnext

theorem loadBlock_eq_merged_iff (hint : blockSize < 2 ^ 31)
    (hfit : ∀ slice ∈ slices, slice.Fits blockSize)
    (hlen : (serializedFile slices).length ≠ blockSize) :
    loadBlock blockSize (serializedFile slices) = some (mergedBlock blockSize slices) ↔
      (payload slices).length ≤ blockSize ∧ ∀ p, sumAt slices p = payloadAt 0 slices p := by
  unfold loadBlock
  rw [if_neg hlen, deserializeInto_serializedFile hint hfit, ite_none_right_eq_some,
    some.injEq]
  refine and_congr_right fun hle => ?_
  have hpad : (payload slices ++ replicate (blockSize - (payload slices).length) 0).length =
      blockSize := by
    rw [length_append, length_replicate]
    omega
  have hget : ∀ p, (payload slices ++ replicate (blockSize - (payload slices).length) 0).getD p 0 =
      payloadAt 0 slices p := by
    intro p
    unfold payloadAt
    rw [if_pos (Nat.zero_le p), Nat.sub_zero]
    rcases lt_or_ge p (payload slices).length with hin | hout
    · rw [getD_append _ _ _ _ hin]
    · rw [getD_append_right _ _ _ _ hout, getD_zeros, getD_eq_default _ _ hout]
  constructor
  · intro heq p
    rcases lt_or_ge p blockSize with hp | hp
    · rw [← hget, heq, mergedBlock, getD_map_range _ hp]
    · rw [← hget, getD_eq_default _ _ (by rw [hpad]; exact hp), sumAt_of_le hfit hp]
  · intro hsum
    have hall : ∀ p < blockSize,
        (payload slices ++ replicate (blockSize - (payload slices).length) 0).getD p 0 =
          (mergedBlock blockSize slices).getD p 0 := by
      intro p hp
      rw [hget, ← hsum, mergedBlock, getD_map_range _ hp]
    exact ext_getD hpad (length_mergedBlock slices) hall

end

/-! ## Files of the size of a block -/

theorem eq_zero_of_le32 {n : ℕ} (hn : n < 2 ^ 31) (h : ∀ b ∈ le32 n, b = 0) : n = 0 := by
  have hzero : le32 n = replicate 4 0 := eq_replicate_iff.mpr ⟨rfl, h⟩
  have hread := readInt_le32 hn []
  rw [hzero] at hread
  exact (Prod.mk.inj (some.inj hread)).1.symm

theorem shapes_of_zero_file {blockSize : ℕ} (hint : blockSize < 2 ^ 31)
    (hfit : ∀ shape ∈ shapes, shape.1 + shape.2 ≤ blockSize)
    (h : ∀ b ∈ serializedFile (zeroSlices shapes), b = 0) : ∀ shape ∈ shapes, shape = (0, 0) := by
  intro shape hshape
  have hbytes : ∀ b ∈ (ParitySlice.mk shape.1 (replicate shape.2 0)).bytes, b = 0 := by
    intro b hb
    refine h b ?_
    rw [serializedFile_eq]
    exact mem_flatMap.mpr ⟨_, List.mem_map_of_mem hshape, hb⟩
  have hsize : (ParitySlice.mk shape.1 (replicate shape.2 0)).size = shape.2 :=
    length_replicate
  unfold ParitySlice.bytes at hbytes
  rw [hsize] at hbytes
  have hle := hfit shape hshape
  have hoffset := eq_zero_of_le32 (n := shape.1) (by omega)
    fun b hb => hbytes b (mem_append_left _ (mem_append_left _ hb))
  have hzero := eq_zero_of_le32 (n := shape.2) (by omega)
    fun b hb => hbytes b (mem_append_left _ (mem_append_right _ hb))
  exact Prod.ext hoffset hzero

theorem serializedFile_of_empty
    (h : ∀ slice ∈ slices, slice.shape = (0, 0)) : ∀ b ∈ serializedFile slices, b = 0 := by
  intro b hb
  rw [serializedFile_eq] at hb
  obtain ⟨slice, hslice, hb⟩ := mem_flatMap.mp hb
  obtain ⟨hoffset, hsize⟩ := Prod.mk.inj (h slice hslice)
  unfold ParitySlice.bytes at hb
  rw [hoffset, hsize, eq_nil_of_length_eq_zero hsize, append_nil] at hb
  exact eq_of_mem_replicate (n := 8) hb

theorem inOrder_of_empty (h : ∀ shape ∈ shapes, shape = (0, 0))
    (filled : ℕ) : InOrder filled shapes := by
  induction shapes generalizing filled with
  | nil => trivial
  | cons shape shapes ih =>
    rw [h shape mem_cons_self]
    exact ⟨fun hpos => absurd hpos (lt_irrefl 0), ih (fun a ha => h a (mem_cons_of_mem _ ha)) _⟩

/-! ## The main result -/

theorem readsMerged_of_load {blockSize : ℕ} (hpos : 0 < blockSize) (hint : blockSize < 2 ^ 31)
    (hne : slices ≠ []) (hfit : ∀ slice ∈ slices, slice.Fits blockSize)
    (h : loadBlock blockSize (serializedFile slices) = some (mergedBlock blockSize slices)) :
    ReadsMerged blockSize slices where
  merge := handleMergeParity_serializedFile hint hfit
  load := h
  read := by
    have hlen : (serializedFile slices).length ≠ 0 := by
      obtain ⟨slice, slices, rfl⟩ := exists_cons_of_ne_nil hne
      rw [serializedFile_eq, length_eq_zero_iff.ne]
      exact flatMap_bytes_ne_nil slice slices
    show (if blockSize = 0 ∨ (serializedFile slices).length = 0 then _ else _) = _
    rw [if_neg (by omega), h]
    rfl

/-- **Main result.** For slices of given offsets and sizes, every read of the block gives the sum of the
slices whatever they hold, exactly when the slices with a byte follow each other from position 0 and the
file does not have the size of a block; a file of empty slices at offset 0 may. -/
theorem read_unmerged_parity_iff {blockSize : ℕ} (hpos : 0 < blockSize) (hint : blockSize < 2 ^ 31)
    {shapes : List (ℕ × ℕ)} (hne : shapes ≠ [])
    (hfit : ∀ shape ∈ shapes, shape.1 + shape.2 ≤ blockSize) :
    (∀ slices : List ParitySlice, slices.map ParitySlice.shape = shapes →
        ReadsMerged blockSize slices) ↔
      InOrder 0 shapes ∧ (fileLength shapes ≠ blockSize ∨ ∀ shape ∈ shapes, shape = (0, 0)) := by
  have hfits : ∀ slices : List ParitySlice, slices.map ParitySlice.shape = shapes →
      ∀ slice ∈ slices, slice.Fits blockSize := by
    rintro slices rfl slice hslice
    exact hfit _ (List.mem_map_of_mem hslice)
  have hlen : ∀ slices : List ParitySlice, slices.map ParitySlice.shape = shapes →
      (serializedFile slices).length = fileLength shapes := by
    rintro slices rfl
    exact length_serializedFile slices
  constructor
  · intro h
    by_cases hflat : fileLength shapes = blockSize
    · -- zeros, read as a flat file
      have hzeros := (h _ (zeroSlices_shape shapes)).load
      unfold loadBlock at hzeros
      rw [if_pos ((hlen _ (zeroSlices_shape shapes)).trans hflat), some.injEq] at hzeros
      have hempty : ∀ shape ∈ shapes, shape = (0, 0) := by
        refine shapes_of_zero_file hint hfit fun b hb => ?_
        rw [hzeros] at hb
        obtain ⟨p, -, rfl⟩ := List.mem_map.mp hb
        exact sumAt_zeroSlices shapes p
      exact ⟨inOrder_of_empty hempty 0, .inr hempty⟩
    · refine ⟨inOrder_of_sumAt fun slices hslices => ?_, .inl hflat⟩
      exact ((loadBlock_eq_merged_iff hint (hfits slices hslices)
        (by rw [hlen slices hslices]; exact hflat)).mp (h slices hslices).load).2
  · rintro ⟨horder, hcase⟩ slices rfl
    have hslices := hfits slices rfl
    refine readsMerged_of_load hpos hint (fun hnil => hne (by rw [hnil]; rfl)) hslices ?_
    by_cases hflat : (serializedFile slices).length = blockSize
    · have hempty : ∀ slice ∈ slices, slice.shape = (0, 0) := by
        rcases hcase with hne | hempty
        · exact absurd ((hlen slices rfl).symm.trans hflat) hne
        · exact fun slice hslice => hempty _ (List.mem_map_of_mem hslice)
      have hpayload : payload slices = [] :=
        flatMap_eq_nil_iff.mpr fun slice hslice =>
          eq_nil_of_length_eq_zero (Prod.mk.inj (hempty slice hslice)).2
      have hsum : ∀ p, sumAt slices p = 0 := by
        intro p
        rw [horder.sumAt_eq, payloadAt, hpayload, getD_nil, ite_self]
      unfold loadBlock
      rw [if_pos hflat, eq_replicate_iff.mpr ⟨hflat, serializedFile_of_empty hempty⟩]
      refine congrArg some (eq_replicate_iff.mpr ⟨length_mergedBlock slices, ?_⟩).symm
      intro b hb
      obtain ⟨p, -, rfl⟩ := List.mem_map.mp hb
      exact hsum p
    · have hle := horder.payload_le hslices (Nat.zero_le _)
      rw [zero_add] at hle
      exact (loadBlock_eq_merged_iff hint hslices hflat).mpr ⟨hle, horder.sumAt_eq⟩

theorem read_consecutive_slices : ReadsMerged 4 [⟨0, [5]⟩, ⟨1, [6, 7]⟩] :=
  (read_unmerged_parity_iff (by decide) (by decide) (show [(0, 1), (1, 2)] ≠ [] by decide)
    (by decide)).mpr ⟨⟨fun _ => rfl, fun _ => rfl, trivial⟩, .inl (by decide)⟩ _ rfl

/-- two slices at one offset are copied side by side, and a file of the size of a block is taken for the
block itself -/
theorem read_overlapping_slices :
    (readBlockBytes (some (serializedFile [⟨0, [1]⟩, ⟨0, [1]⟩])) 2 =
        some { ok := true, data := [1, 1] } ∧
      handleMergeParity 2 (serializedFile [⟨0, [1]⟩, ⟨0, [1]⟩]) = some [0, 0] ∧
      ¬ ReadsMerged 2 [⟨0, [1]⟩, ⟨0, [1]⟩]) ∧
    readBlockBytes (some (serializedFile [⟨0, [1]⟩])) 9 =
        some { ok := true, data := [0, 0, 0, 0, 1, 0, 0, 0, 1] } ∧
      handleMergeParity 9 (serializedFile [⟨0, [1]⟩]) = some [1, 0, 0, 0, 0, 0, 0, 0, 0] := by
  have hread : readBlockBytes (some (serializedFile [⟨0, [1]⟩, ⟨0, [1]⟩])) 2 =
      some { ok := true, data := [1, 1] } := by decide +kernel
  refine ⟨⟨hread, by decide +kernel, fun h => ?_⟩, by decide +kernel, by decide +kernel⟩
  have hdata := hread.symm.trans h.read
  exact absurd hdata (by decide +kernel)

end Mlrc
