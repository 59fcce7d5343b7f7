import Mathlib

/-!
# Row-major buffers

A buffer that holds rows of one width is read at `i * w + j`.

* `getD_flatMap_range`   reading such a buffer;
* `flatMap_range_eq_iff`  comparing two of them row by row;
* `getD_map_range`   reading a tabulated list;
* `getD_foldl_set`   reading a list after a loop of assignments;
* `flatMap_range'_consecutive`   consecutive ranges;
* `foldl_eraseIdx_range`  a tabulated list after some positions have been erased.
-/

namespace Mlrc

open List Nat

variable {α β : Type*}

theorem length_flatMap_range {f : ℕ → List α} {w : ℕ} (hf : ∀ i, (f i).length = w) (m : ℕ) :
    ((range m).flatMap f).length = m * w := by
  induction m with
  | zero => simp
  | succ m ih => rw [range_succ, flatMap_append, length_append, ih, flatMap_cons,
      flatMap_nil, append_nil, hf, succ_mul]

theorem getD_flatMap_range {f : ℕ → List α} {w : ℕ} (hf : ∀ i, (f i).length = w) {m i j : ℕ}
    (hi : i < m) (hj : j < w) (d : α) :
    ((range m).flatMap f).getD (i * w + j) d = (f i).getD j d := by
  induction m with
  | zero => exact absurd hi (not_lt_zero _)
  | succ m ih =>
    have hlen := length_flatMap_range hf m
    rw [range_succ, flatMap_append, flatMap_cons, flatMap_nil, append_nil]
    rcases Nat.lt_succ_iff_lt_or_eq.mp hi with h | rfl
    · have hlt : i * w + j < m * w := by
        calc i * w + j < i * w + w := Nat.add_lt_add_left hj _
          _ = (i + 1) * w := (succ_mul i w).symm
          _ ≤ m * w := mul_le_mul_right w h
      rw [getD_append _ _ _ _ (by rw [hlen]; exact hlt), ih h]
    · rw [getD_append_right _ _ _ _ (by rw [hlen]; exact le_add_right _ _), hlen,
        Nat.add_sub_cancel_left]

theorem flatMap_range_eq_iff {f g : ℕ → List α} {m : ℕ}
    (hlen : ∀ i < m, (f i).length = (g i).length) :
    (range m).flatMap f = (range m).flatMap g ↔ ∀ i < m, f i = g i := by
  induction m with
  | zero => simp
  | succ m ih =>
    simp only [range_succ, flatMap_append, flatMap_cons, flatMap_nil,
      append_nil]
    have hinit := ih fun i hi => hlen i (lt_succ_of_lt hi)
    refine ⟨fun h i hi => ?_, fun h => ?_⟩
    · obtain ⟨hrest, hlast⟩ := append_inj' h (hlen m (lt_succ_self m))
      rcases Nat.lt_succ_iff_lt_or_eq.mp hi with hlt | rfl
      · exact hinit.mp hrest i hlt
      · exact hlast
    · rw [hinit.mpr fun i hi => h i (lt_succ_of_lt hi), h m (lt_succ_self m)]

theorem filterMap_getElem?_range (l : List α) (m : ℕ) :
    (range m).filterMap (fun i => l[i]?) = l.take m := by
  induction m with
  | zero => rfl
  | succ m ih =>
    rw [range_succ, filterMap_append, ih, take_add_one]
    cases hm : l[m]? <;> simp [hm]

theorem zipIdx_map_range (f : ℕ → α) (n : ℕ) :
    ((range n).map f).zipIdx = (range n).map fun i => (f i, i) := by
  refine ext_getElem (by simp) fun i h1 h2 => ?_
  simp

theorem ext_getD {x y : List α} {n : ℕ} (hx : x.length = n) (hy : y.length = n) {d : α}
    (h : ∀ i < n, x.getD i d = y.getD i d) : x = y := by
  apply ext_getElem (hx.trans hy.symm)
  intro i h1 h2
  have := h i (by omega)
  rwa [getD_eq_getElem _ _ h1, getD_eq_getElem _ _ h2] at this

theorem getD_zipWith {γ : Type*} (f : α → β → γ) {x : List α} {y : List β} {i : ℕ}
    (hx : i < x.length) (hy : i < y.length) (a : α) (b : β) (c : γ) :
    (zipWith f x y).getD i c = f (x.getD i a) (y.getD i b) := by
  have hmin : i < (zipWith f x y).length := by
    rw [length_zipWith]
    exact Nat.lt_min.mpr ⟨hx, hy⟩
  rw [getD_eq_getElem _ _ hmin, getElem_zipWith, getD_eq_getElem _ _ hx,
    getD_eq_getElem _ _ hy]

theorem getD_map_range (f : ℕ → α) {n i : ℕ} (hi : i < n) (d : α) :
    ((range n).map f).getD i d = f i := by
  rw [getD_eq_getElem _ _ (by simpa using hi)]
  simp

theorem getD_map_of_lt (f : α → β) (l : List α) {i : ℕ} (hi : i < l.length) (a : α) (b : β) :
    (l.map f).getD i b = f (l.getD i a) := by
  rw [getD_eq_getElem _ _ (by simpa using hi), getD_eq_getElem _ _ hi, getElem_map]

theorem getD_foldl_set (v : ℕ → α) (l : List ℕ) (row : List α) {b : ℕ} (hb : b < row.length)
    (d : α) :
    (l.foldl (fun row b => row.set b (v b)) row).getD b d = if b ∈ l then v b else row.getD b d := by
  induction l generalizing row with
  | nil => simp
  | cons a l ih =>
    rw [foldl_cons, ih _ (by simpa using hb)]
    by_cases hbl : b ∈ l
    · simp [hbl]
    · by_cases hab : b = a
      · subst hab
        simp [hbl, hb]
      · simp [hbl, hab, getD_eq_getElem?_getD, getElem?_set_ne (Ne.symm hab)]

@[simp] theorem length_foldl_set (v : ℕ → α) (l : List ℕ) (row : List α) :
    (l.foldl (fun row b => row.set b (v b)) row).length = row.length := by
  induction l generalizing row with
  | nil => rfl
  | cons a l ih => rw [foldl_cons, ih, length_set]

theorem flatMap_range'_consecutive {start count : ℕ → ℕ} (h0 : start 0 = 0)
    (hsucc : ∀ i, start (i + 1) = start i + count i) (m : ℕ) :
    (range m).flatMap (fun i => range' (start i) (count i)) = range (start m) := by
  induction m with
  | zero => rw [h0]; rfl
  | succ m ih =>
    rw [range_succ, flatMap_append, ih, flatMap_singleton, hsucc,
      range_eq_range', range_eq_range', ← range'_append_1, zero_add]

theorem foldl_eraseIdx_range (f : ℕ → α) (p : ℕ → Bool) (n : ℕ) (rest : List α) :
    ((range n).filter p).reverse.foldl eraseIdx ((range n).map f ++ rest) =
      ((range n).filter fun i => !p i).map f ++ rest := by
  induction n generalizing rest with
  | zero => rfl
  | succ n ih =>
    have hlen : ((range n).map f).length = n := by rw [length_map, length_range]
    rw [range_succ, filter_append, filter_append, map_append, append_assoc,
      reverse_append, foldl_append]
    cases hp : p n with
    | true =>
      -- the last entry goes first
      have herase : ((range n).map f ++ ([n].map f ++ rest)).eraseIdx n =
          (range n).map f ++ rest := by
        rw [eraseIdx_append_of_length_le (by rw [hlen]), hlen, Nat.sub_self]
        rfl
      simp only [filter_cons, filter_nil, hp, if_true, reverse_singleton,
        foldl_cons, foldl_nil, herase, Bool.not_true, Bool.false_eq_true, if_false,
        append_nil, ih]
    | false =>
      simp only [filter_cons, filter_nil, hp, Bool.false_eq_true, if_false,
        reverse_nil, foldl_nil, Bool.not_false, if_true, ih, map_append,
        append_assoc]

theorem flatMap_filter_of_nil {p : α → Bool} {f : α → List β} {l : List α}
    (h : ∀ a ∈ l, p a = false → f a = []) : (l.filter p).flatMap f = l.flatMap f := by
  induction l with
  | nil => rfl
  | cons a l ih =>
    have hrest := ih fun b hb => h b (mem_cons_of_mem _ hb)
    rw [flatMap_cons, filter_cons]
    cases hp : p a with
    | true => rw [if_pos rfl, flatMap_cons, hrest]
    | false => rw [if_neg Bool.false_ne_true, hrest, h a mem_cons_self hp, nil_append]

end Mlrc
