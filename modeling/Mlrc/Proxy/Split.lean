import Mlrc.Coordinator.Plans
import Mlrc.Data.Slots

/-!
# Cutting buffers at the client and the proxies

`splitCharPointer` cuts a buffer into slices of given sizes and asserts that they fill it.  A pointer
is an offset into the buffer it points into.

* `splitCharPointer_eq`   the slices lie one behind the other;
* `splitAppend`   the slices of a plan, with the bytes a proxy stores for each;
* `splitAppend_some`   they are as long as the plan says;
* `ProxyImpl.appendSlices`   what the thread of a plan makes of the bytes it gets;
* `splitAppend_blocks_iff`   when the slices are given blocks;
* `receive_take_iff`   when a stream that ends early does no harm.
-/

namespace Mlrc

open List Option

/-- `splitCharPointer`; `none` is a failed assertion -/
def splitCharPointer (str strSize : ℕ) (sizes : List ℕ) : Option (List ℕ) := do
  let p ← sizes.foldlM (fun p size =>
    -- the slice has to fit
    if p.2 + size ≤ strSize then some (p.1 ++ [str + p.2], p.2 + size) else none) ([], 0)
  -- and nothing may be left
  if p.2 = strSize then some p.1 else none

/-- the slices of a plan in the buffer that a proxy has received for it -/
def splitAppend (plan : AppendStripeDataPlacement) (appendBuf : List UInt8) :
    Option (List (Slice × List UInt8)) := do
  let slices ← splitCharPointer 0 plan.appendSize (plan.slices.map (·.size))
  some ((plan.slices.zip slices).map fun p => (p.1, readAt appendBuf p.2 p.1.size))

/-- a zeroed buffer of `size` bytes after a read that ends with the buffer or with the connection -/
def receive (size : ℕ) (bytes : List UInt8) : List UInt8 :=
  bytes.take size ++ replicate (size - bytes.length) 0

/-- the slices that the thread of a plan sends on, with their bytes -/
def ProxyImpl.appendSlices (plan : AppendStripeDataPlacement) (bytes : List UInt8) :
    Option (List (Slice × List UInt8)) :=
  splitAppend plan (receive plan.appendSize bytes)

theorem splitCharPointer_loop (str strSize : ℕ) (sizes result : List ℕ) {currentOffset : ℕ}
    (h : currentOffset ≤ strSize) : sizes.foldlM (fun p size =>
        if p.2 + size ≤ strSize then some (p.1 ++ [str + p.2], p.2 + size) else none)
        (result, currentOffset) = if currentOffset + sizes.sum ≤ strSize then
        some (result ++ offsets (str + currentOffset) sizes, currentOffset + sizes.sum)
      else none := by
  induction sizes generalizing result currentOffset with
  | nil =>
    rw [sum_nil, add_zero, if_pos h, offsets, append_nil]
    rfl
  | cons size sizes ih =>
    rw [foldlM_cons, sum_cons]
    simp only
    by_cases hsize : currentOffset + size ≤ strSize
    · rw [if_pos hsize, bind_eq_bind, bind_some, ih _ hsize, offsets, append_assoc,
        singleton_append, add_assoc, add_assoc]
    · rw [if_neg hsize, bind_eq_bind, bind_none, if_neg (by omega)]

theorem splitCharPointer_eq (str strSize : ℕ) (sizes : List ℕ) :
    splitCharPointer str strSize sizes =
      if sizes.sum = strSize then some (offsets str sizes) else none := by
  unfold splitCharPointer
  rw [splitCharPointer_loop str strSize sizes [] (Nat.zero_le _), Nat.zero_add, Nat.add_zero,
    nil_append]
  by_cases hle : sizes.sum ≤ strSize
  · rw [if_pos hle, bind_eq_bind, bind_some]
  · rw [if_neg hle, bind_eq_bind, bind_none, if_neg (by omega)]

theorem splitAppend_some {plan : AppendStripeDataPlacement} {appendBuf : List UInt8}
    {parts : List (Slice × List UInt8)} (hbuf : appendBuf.length = plan.appendSize)
    (h : splitAppend plan appendBuf = some parts) :
    parts.map Prod.fst = plan.slices ∧ ∀ part ∈ parts, part.2.length = part.1.size := by
  obtain ⟨slices, hslices, h⟩ := bind_eq_some_iff.mp h
  rw [splitCharPointer_eq, ite_none_right_eq_some, some.injEq] at hslices
  obtain ⟨hsum, rfl⟩ := hslices
  rw [some.injEq] at h
  subst h
  constructor
  · rw [List.map_map]
    show List.map Prod.fst _ = _
    exact map_fst_zip (by rw [length_offsets, length_map])
  · intro part hpart
    obtain ⟨p, hp, rfl⟩ := List.mem_map.mp hpart
    refine length_readAt ?_
    have hzip : (p.1.size, p.2) ∈ (plan.slices.map (·.size)).zip
        (offsets 0 (plan.slices.map (·.size))) := by
      rw [zip_map_left]
      exact List.mem_map.mpr ⟨p, hp, rfl⟩
    have hle := offset_add_le hzip
    omega

theorem splitAppend_blocks_iff {plan : AppendStripeDataPlacement} {appendBuf : List UInt8} {size : ℕ}
    {block : ℕ → List UInt8} (hsizes : plan.slices.map (·.size) = replicate plan.slices.length size)
    (hsum : plan.appendSize = plan.slices.length * size)
    (hblock : ∀ slice ∈ plan.slices, (block slice.blockId).length = size)
    (hbuf : appendBuf.length = plan.appendSize) :
    splitAppend plan appendBuf = some (plan.slices.map fun slice => (slice, block slice.blockId)) ↔
      appendBuf = plan.slices.flatMap fun slice => block slice.blockId := by
  set parts := (range plan.slices.length).map fun j => readAt appendBuf (j * size) size with hparts
  have hlen : parts.length = plan.slices.length := by rw [hparts, length_map, length_range]
  have hleft : splitAppend plan appendBuf = some (plan.slices.zip parts) := by
    unfold splitAppend
    rw [hsizes, splitCharPointer_eq, sum_replicate_nat, if_pos hsum.symm, bind_eq_bind, bind_some,
      some.injEq, offsets_replicate]
    apply ext_getElem
    · simp only [length_map, length_zip, length_range, hlen]
    · intro j _ hj
      rw [length_zip, hlen, Nat.min_self] at hj
      have hsize := congrArg (·[j]?) hsizes
      simp only [getElem?_map, getElem?_eq_getElem hj, map_some, getElem?_replicate, if_pos hj,
        some.injEq] at hsize
      simp only [hparts, getElem_map, getElem_zip, getElem_range, zero_add, hsize]
  have hflat : parts.flatten = appendBuf := by
    rw [hparts, ← flatMap_def, flatMap_readAt, ← hsum, ← hbuf, take_length]
  have hpart : ∀ part ∈ parts, part.length = size := by
    intro part hpart
    obtain ⟨j, hj, rfl⟩ := List.mem_map.mp hpart
    rw [mem_range] at hj
    refine length_readAt ?_
    rw [hbuf, hsum, ← Nat.succ_mul]
    exact Nat.mul_le_mul_right _ hj
  -- lists of blocks of one size are equal when their bytes are
  have hlens : parts.map List.length =
      (plan.slices.map fun slice => block slice.blockId).map List.length := by
    rw [map_eq_replicate_iff.mpr hpart, map_eq_replicate_iff.mpr (forall_mem_map.mpr hblock), hlen,
      length_map]
  rw [hleft, some.injEq, map_prod_left_eq_zip, flatMap_def]
  constructor
  · intro h
    have hsnd := congrArg (List.map Prod.snd) h
    rw [map_snd_zip hlen.le, map_snd_zip (length_map _).le] at hsnd
    rw [← hsnd, hflat]
  · intro h
    rw [eq_iff_flatten_eq.mpr ⟨hflat.trans h, hlens⟩]

theorem length_receive (size : ℕ) (bytes : List UInt8) : (receive size bytes).length = size := by
  rw [receive, length_append, length_take, length_replicate]
  omega

theorem receive_readAt {buf : List UInt8} {start size : ℕ} (sent : ℕ)
    (h : start + size ≤ buf.length) :
    receive size (readAt buf start sent) = receive size ((readAt buf start size).take sent) := by
  unfold receive readAt
  rw [take_take, take_take, take_take, length_take, length_take, length_take, length_drop]
  congr 2 <;> omega

theorem receive_take_iff (bytes : List UInt8) (sent : ℕ) :
    receive bytes.length (bytes.take sent) = bytes ↔ ∀ x ∈ bytes.drop sent, x = 0 := by
  have hrest : bytes.length - (bytes.take sent).length = (bytes.drop sent).length := by
    rw [length_take, length_drop]
    omega
  unfold receive
  rw [hrest, take_of_length_le (length_take_le' _ _)]
  conv_lhs => rhs; rw [← take_append_drop sent bytes]
  rw [append_cancel_left_eq, eq_comm, eq_replicate_iff, and_iff_right rfl]

end Mlrc
