import Mathlib

/-!
# Buffers

Reads and writes of a range of a buffer of fixed size.

* `getElem?_writeAt`   the cells after a write;
* `readAt_writeAt`   a range that was just written;
* `readAt_writeAt_ne`   a range beside the one that was written;
* `readAt_writeAt_end`   a range that was written up to its end;
* `writeAt_writeAt_append`   two writes one behind the other.
-/

namespace Mlrc

open List

variable {len off : ℕ}

variable {α : Type*}

/-- the cells `[off, off + len)` -/
def readAt (buf : List α) (off len : ℕ) : List α := (buf.drop off).take len

/-- `buf` with `cells` written from `off` on -/
def writeAt (buf : List α) (off : ℕ) (cells : List α) : List α :=
  buf.take off ++ cells ++ buf.drop (off + cells.length)

theorem getD_drop (l : List α) (m i : ℕ) (d : α) : (l.drop m).getD i d = l.getD (m + i) d := by
  rw [getD_eq_getElem?_getD, getElem?_drop, ← getD_eq_getElem?_getD]

theorem getElem?_readAt (buf : List α) (off len i : ℕ) :
    (readAt buf off len)[i]? = if i < len then buf[off + i]? else none := by
  rw [readAt, getElem?_take, getElem?_drop]

theorem getD_readAt (buf : List α) (off : ℕ) {i : ℕ} (hi : i < len) (d : α) :
    (readAt buf off len).getD i d = buf.getD (off + i) d := by
  rw [getD_eq_getElem?_getD, getElem?_readAt, if_pos hi, ← getD_eq_getElem?_getD]

theorem length_readAt {buf : List α} (h : off + len ≤ buf.length) :
    (readAt buf off len).length = len := by
  rw [readAt, length_take, length_drop]
  omega

theorem length_writeAt {buf : List α} {cells : List α}
    (h : off + cells.length ≤ buf.length) : (writeAt buf off cells).length = buf.length := by
  rw [writeAt, length_append, length_append, length_take, length_drop]
  omega

theorem getElem?_writeAt {buf : List α} {cells : List α} (h : off ≤ buf.length) (i : ℕ) :
    (writeAt buf off cells)[i]? =
      if off ≤ i ∧ i < off + cells.length then cells[i - off]? else buf[i]? := by
  have htake : (buf.take off).length = off := by
    rw [length_take]
    omega
  rw [writeAt, append_assoc]
  rcases Nat.lt_or_ge i off with hlt | hge
  · rw [getElem?_append_left (by omega), getElem?_take_of_lt hlt, if_neg (by omega)]
  · rw [getElem?_append_right (by omega), htake]
    by_cases hin : i < off + cells.length
    · rw [getElem?_append_left (by omega), if_pos ⟨hge, hin⟩]
    · rw [getElem?_append_right (by omega), getElem?_drop, if_neg (by omega)]
      congr 1
      omega

theorem readAt_writeAt {buf : List α} {cells : List α} (h : off ≤ buf.length) :
    readAt (writeAt buf off cells) off cells.length = cells := by
  refine ext_getElem? fun i => ?_
  rw [getElem?_readAt]
  split
  · next hi =>
    rw [getElem?_writeAt h, if_pos ⟨Nat.le_add_right _ _, by omega⟩, Nat.add_sub_cancel_left]
  · next hi => rw [getElem?_eq_none (Nat.le_of_not_lt hi)]

theorem readAt_writeAt_ne {buf : List α} {off' : ℕ} {cells : List α} (h : off ≤ buf.length)
    (hne : off' + len ≤ off ∨ off + cells.length ≤ off') :
    readAt (writeAt buf off cells) off' len = readAt buf off' len := by
  refine ext_getElem? fun i => ?_
  rw [getElem?_readAt, getElem?_readAt]
  split
  · next hi => rw [getElem?_writeAt h, if_neg (by omega)]
  · rfl

theorem readAt_append_left {buf : List α} (more : List α) (h : off + len ≤ buf.length) :
    readAt (buf ++ more) off len = readAt buf off len := by
  refine ext_getElem? fun i => ?_
  rw [getElem?_readAt, getElem?_readAt]
  split
  · next hi => rw [getElem?_append_left (by omega)]
  · rfl

theorem readAt_writeAt_end {buf : List α} {cells : List α} (h : off + len ≤ buf.length) :
    readAt (writeAt buf (off + len) cells) off (len + cells.length) = readAt buf off len ++ cells := by
  have hlen : (readAt buf off len).length = len := length_readAt h
  refine ext_getElem? fun i => ?_
  rw [getElem?_readAt]
  rcases Nat.lt_or_ge i len with hlt | hge
  · rw [if_pos (by omega), getElem?_writeAt h, if_neg (by omega),
      getElem?_append_left (by omega), getElem?_readAt, if_pos hlt]
  · rw [getElem?_append_right (by omega), hlen]
    split
    · next hi =>
      rw [getElem?_writeAt h, if_pos ⟨by omega, by omega⟩]
      congr 1
      omega
    · next hi => rw [getElem?_eq_none (by omega)]

theorem writeAt_nil (buf : List α) (off : ℕ) : writeAt buf off [] = buf := by
  rw [writeAt, append_nil, length_nil, Nat.add_zero, take_append_drop]

theorem writeAt_writeAt_append {buf : List α} (h : off ≤ buf.length) (x y : List α) :
    writeAt (writeAt buf off x) (off + x.length) y = writeAt buf off (x ++ y) := by
  have hlen : (buf.take off ++ x).length = off + x.length := by
    rw [length_append, length_take, Nat.min_eq_left h]
  have htake : (writeAt buf off x).take (off + x.length) = buf.take off ++ x := by
    rw [writeAt, take_append_of_le_length (Nat.le_of_eq hlen.symm),
      take_of_length_le (Nat.le_of_eq hlen)]
  have hdrop : (writeAt buf off x).drop (off + x.length + y.length) =
      buf.drop (off + (x ++ y).length) := by
    rw [writeAt, ← hlen, drop_length_add_append, drop_drop, hlen, length_append,
      Nat.add_assoc]
  rw [writeAt, htake, hdrop, writeAt, append_assoc (buf.take off) x y]

end Mlrc
