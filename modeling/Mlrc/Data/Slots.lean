import Mlrc.Data.Buffer

/-!
# Buffers cut into slots

A buffer is cut into pieces that lie one behind the other.  When all pieces have one size, the piece
of an element is found from its place in the list of elements.

* `offsets`   where pieces of given sizes start;
* `slot`   where the piece of an element starts, for pieces of one size;
* `slots_eq`   the slots of consecutive elements are consecutive;
* `readAt_foldl_writeAt_of_mem`, `readAt_foldl_writeAt_of_disjoint`   reading after pieces that do
  not overlap have been written;
* `readAt_foldl_writeAt_slot`   reading a slot after some slots have been written.
-/

namespace Mlrc

open List Nat

/-- where pieces of the given sizes start, the first at `base` -/
def offsets (base : ℕ) : List ℕ → List ℕ
  | [] => []
  | size :: sizes => base :: offsets (base + size) sizes

theorem length_offsets (base : ℕ) (sizes : List ℕ) : (offsets base sizes).length = sizes.length := by
  induction sizes generalizing base with
  | nil => rfl
  | cons size sizes ih => rw [offsets, length_cons, ih, length_cons]

theorem offset_add_le {base : ℕ} {sizes : List ℕ} {p : ℕ × ℕ} (hp : p ∈ sizes.zip (offsets base sizes)) :
    p.2 + p.1 ≤ base + sizes.sum := by
  induction sizes generalizing base with
  | nil => cases hp
  | cons size sizes ih =>
    rw [offsets, zip_cons_cons, mem_cons] at hp
    rw [sum_cons]
    rcases hp with rfl | hp
    · show base + size ≤ base + (size + sizes.sum)
      omega
    · have := ih hp
      omega

theorem offsets_append (base : ℕ) (sizes more : List ℕ) :
    offsets base (sizes ++ more) = offsets base sizes ++ offsets (base + sizes.sum) more := by
  induction sizes generalizing base with
  | nil => rfl
  | cons size sizes ih =>
    rw [cons_append, offsets, ih, offsets, cons_append, sum_cons, add_assoc]

theorem offsets_replicate (base n size : ℕ) :
    offsets base (replicate n size) = (range n).map fun j => base + j * size := by
  induction n with
  | zero => rfl
  | succ n ih =>
    rw [replicate_succ', offsets_append, ih, sum_replicate_nat, range_succ,
      map_append]
    rfl

theorem getElem?_offsets (base : ℕ) {sizes : List ℕ} {i : ℕ} (hi : i < sizes.length) :
    (offsets base sizes)[i]? = some (base + (sizes.take i).sum) := by
  induction sizes generalizing base i with
  | nil => cases hi
  | cons size sizes ih =>
    cases i with
    | zero => rfl
    | succ i =>
      rw [offsets, getElem?_cons_succ, ih _ (lt_of_succ_lt_succ hi), take_succ_cons,
        sum_cons, add_assoc]

/-! ## Slots -/

section
variable {ι : Type*} [DecidableEq ι] {order : List ι} {size : ℕ} {x y : ι}

/-- where the piece of `x` starts -/
def slot (order : List ι) (size : ℕ) (x : ι) : ℕ := order.idxOf x * size

theorem slots_eq {before xs after : List ι} (hnd : order.Nodup) (h : order = before ++ xs ++ after)
    (size : ℕ) : xs.map (slot order size) =
      (range xs.length).map fun j => before.length * size + j * size := by
  apply ext_getElem
  · rw [length_map, length_map, length_range]
  · intro j hj _
    rw [length_map] at hj
    rw [getElem_map, getElem_map, getElem_range, ← add_mul]
    have hlt : before.length + j < order.length := by
      rw [h, length_append, length_append]
      omega
    have hget : order[before.length + j] = xs[j] := by
      subst h
      rw [getElem_append_left (by rw [length_append]; omega),
        getElem_append_right (le_add_right _ _)]
      congr 1
      omega
    unfold slot
    rw [← hget, hnd.idxOf_getElem]

theorem slot_add_le (hx : x ∈ order) : slot order size x + size ≤ order.length * size := by
  unfold slot
  rw [← succ_mul]
  exact mul_le_mul_right _ (idxOf_lt_length_of_mem hx)

theorem slot_disjoint (hx : x ∈ order) (hxy : x ≠ y) :
    slot order size x + size ≤ slot order size y ∨ slot order size y + size ≤ slot order size x := by
  have hne : order.idxOf x ≠ order.idxOf y := fun h => hxy ((idxOf_inj hx).mp h)
  unfold slot
  rw [← succ_mul, ← succ_mul]
  rcases lt_or_gt_of_ne hne with h | h
  · exact .inl (mul_le_mul_right _ h)
  · exact .inr (mul_le_mul_right _ h)

end

/-! ## Writing pieces -/

section
variable {α : Type*} {buf : List α} {pieces : List (ℕ × List α)}

theorem readAt_readAt (buf : List α) {start len off n : ℕ} (h : off + n ≤ len) :
    readAt (readAt buf start len) off n = readAt buf (start + off) n := by
  apply ext_getElem?
  intro i
  rw [getElem?_readAt, getElem?_readAt, getElem?_readAt, add_assoc]
  split
  · rw [if_pos (by omega)]
  · rfl

theorem length_foldl_writeAt (hle : ∀ p ∈ pieces, p.1 + p.2.length ≤ buf.length) :
    (pieces.foldl (fun buf p => writeAt buf p.1 p.2) buf).length = buf.length := by
  induction pieces generalizing buf with
  | nil => rfl
  | cons p pieces ih =>
    have hp := length_writeAt (hle p mem_cons_self)
    rw [foldl_cons, ih, hp]
    intro q hq
    rw [hp]
    exact hle q (mem_cons_of_mem _ hq)

theorem readAt_foldl_writeAt_of_disjoint {off len : ℕ}
    (hle : ∀ p ∈ pieces, p.1 + p.2.length ≤ buf.length)
    (hdis : ∀ p ∈ pieces, off + len ≤ p.1 ∨ p.1 + p.2.length ≤ off) :
    readAt (pieces.foldl (fun buf p => writeAt buf p.1 p.2) buf) off len = readAt buf off len := by
  induction pieces generalizing buf with
  | nil => rfl
  | cons p pieces ih =>
    have hp := hle p mem_cons_self
    rw [foldl_cons, ih, readAt_writeAt_ne (by omega) (hdis p mem_cons_self)]
    · intro q hq
      rw [length_writeAt hp]
      exact hle q (mem_cons_of_mem _ hq)
    · intro q hq
      exact hdis q (mem_cons_of_mem _ hq)

theorem readAt_foldl_writeAt_of_mem
    (hpair : pieces.Pairwise fun p q => p.1 + p.2.length ≤ q.1 ∨ q.1 + q.2.length ≤ p.1)
    (hle : ∀ p ∈ pieces, p.1 + p.2.length ≤ buf.length) {p : ℕ × List α} (hp : p ∈ pieces) :
    readAt (pieces.foldl (fun buf p => writeAt buf p.1 p.2) buf) p.1 p.2.length = p.2 := by
  induction pieces generalizing buf with
  | nil => cases hp
  | cons q pieces ih =>
    obtain ⟨hq, hpair⟩ := pairwise_cons.mp hpair
    have hqle := hle q mem_cons_self
    have hrest : ∀ p ∈ pieces, p.1 + p.2.length ≤ (writeAt buf q.1 q.2).length := by
      intro p' hp'
      rw [length_writeAt hqle]
      exact hle p' (mem_cons_of_mem _ hp')
    rw [foldl_cons]
    rcases mem_cons.mp hp with rfl | hmem
    · -- the later pieces leave it alone
      rw [readAt_foldl_writeAt_of_disjoint hrest hq]
      exact readAt_writeAt (by omega)
    · exact ih hpair hrest hmem

theorem readAt_foldl_writeAt_slot {ι : Type*} [DecidableEq ι] {order ids : List ι} {size : ℕ}
    {content : ι → List α} (hsub : ∀ x ∈ ids, x ∈ order) (hnd : ids.Nodup)
    (hlen : ∀ x ∈ order, (content x).length = size) (hbuf : order.length * size ≤ buf.length)
    (hrest : ∀ x ∈ order, x ∉ ids → readAt buf (slot order size x) size = content x)
    {x : ι} (hx : x ∈ order) : readAt ((ids.map fun y => (slot order size y, content y)).foldl
      (fun buf p => writeAt buf p.1 p.2) buf) (slot order size x) size = content x := by
  have hle : ∀ p ∈ ids.map (fun y => (slot order size y, content y)), p.1 + p.2.length ≤ buf.length := by
    intro p hp
    obtain ⟨y, hy, rfl⟩ := mem_map.mp hp
    show slot order size y + (content y).length ≤ buf.length
    rw [hlen y (hsub y hy)]
    exact le_trans (slot_add_le (hsub y hy)) hbuf
  by_cases hmem : x ∈ ids
  · have hpair : (ids.map fun y => (slot order size y, content y)).Pairwise fun p q =>
        p.1 + p.2.length ≤ q.1 ∨ q.1 + q.2.length ≤ p.1 := by
      rw [pairwise_map]
      refine List.Pairwise.imp_of_mem (fun {y z} hy hz hyz => ?_) hnd
      rw [hlen y (hsub y hy), hlen z (hsub z hz)]
      exact slot_disjoint (hsub y hy) hyz
    have hread := readAt_foldl_writeAt_of_mem hpair hle (mem_map.mpr ⟨x, hmem, rfl⟩)
    rwa [hlen x hx] at hread
  · -- a slot that is not written
    rw [readAt_foldl_writeAt_of_disjoint hle, hrest x hx hmem]
    intro p hp
    obtain ⟨y, hy, rfl⟩ := mem_map.mp hp
    show _ ∨ slot order size y + (content y).length ≤ _
    rw [hlen y (hsub y hy)]
    exact slot_disjoint hx fun hxy => hmem (hxy ▸ hy)

theorem flatMap_readAt (buf : List α) (m size : ℕ) :
    (range m).flatMap (fun i => readAt buf (i * size) size) = buf.take (m * size) := by
  induction m with
  | zero => rw [zero_mul, take_zero]; rfl
  | succ m ih =>
    rw [range_succ, flatMap_append, ih, flatMap_singleton, succ_mul, take_add]
    rfl

end

end Mlrc
