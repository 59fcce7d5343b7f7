import Mathlib

/-!
# Counting loops

A `for` loop over `0, .., n - 1` is a left fold over `List.range n`.  The rules carry an invariant
that mentions the loop counter.

* `foldl_range_induct`   a loop that always goes on;
* `foldlM_range_some`   a loop that may give up: the invariant after a full run;
* `loopState_range`   what such a loop leaves behind, and the turn at which it stopped;
* `mapM_eq_some_map`, `mapM_eq_ok_map`, `mapM_except_ok`, `exists_mapM_ok`   a loop that collects
  results;
* `map_range_eq_map`   a loop over the indices of a list.
-/

namespace Mlrc

open List

universe u

variable {σ : Type*}

theorem foldl_range_succ (f : σ → ℕ → σ) (s : σ) (n : ℕ) :
    (range (n + 1)).foldl f s = f ((range n).foldl f s) n := by
  rw [range_succ, foldl_append, foldl_cons, foldl_nil]

theorem foldl_range_induct (f : σ → ℕ → σ) (P : ℕ → σ → Prop) {s : σ} (n : ℕ) (h0 : P 0 s)
    (hstep : ∀ i s, i < n → P i s → P (i + 1) (f s i)) : P n ((range n).foldl f s) := by
  induction n with
  | zero => exact h0
  | succ n ih =>
    rw [foldl_range_succ]
    exact hstep n _ (Nat.lt_succ_self n) (ih fun i s hi => hstep i s (Nat.lt_succ_of_lt hi))

theorem foldlM_range_succ (f : σ → ℕ → Option σ) (s : σ) (n : ℕ) :
    (range (n + 1)).foldlM f s = ((range n).foldlM f s).bind (f · n) := by
  rw [range_succ, foldlM_append]
  simp only [foldlM_cons, foldlM_nil]
  cases (range n).foldlM f s with
  | none => rfl
  | some t => exact bind_pure (f t n)

theorem foldlM_range_some {f : σ → ℕ → Option σ} (P : ℕ → σ → Prop) {s : σ} (n : ℕ) (h0 : P 0 s)
    (hstep : ∀ i s s', i < n → P i s → f s i = some s' → P (i + 1) s') {t : σ}
    (ht : (range n).foldlM f s = some t) : P n t := by
  induction n generalizing t with
  | zero => cases ht; exact h0
  | succ n ih =>
    rw [foldlM_range_succ, Option.bind_eq_some_iff] at ht
    obtain ⟨u, hu, hut⟩ := ht
    have hPu := ih (fun i s s' hi => hstep i s s' (Nat.lt_succ_of_lt hi)) hu
    exact hstep n u t (Nat.lt_succ_self n) hPu hut

/-- the state that a loop leaves behind, also when it gives up -/
def loopState (f : σ → ℕ → Option σ) : List ℕ → σ → σ
  | [], s => s
  | i :: is, s =>
    match f s i with
    | none => s
    | some s' => loopState f is s'

theorem loopState_range' {f : σ → ℕ → Option σ} (P : ℕ → σ → Prop) (m : ℕ) {a : ℕ} {s : σ}
    (h0 : P a s) (hstep : ∀ i s s', a ≤ i → i < a + m → P i s → f s i = some s' → P (i + 1) s') :
    ((range' a m).foldlM f s = some (loopState f (range' a m) s) ∧
      P (a + m) (loopState f (range' a m) s)) ∨
    ((range' a m).foldlM f s = none ∧ ∃ i, a ≤ i ∧ i < a + m ∧
      P i (loopState f (range' a m) s) ∧ f (loopState f (range' a m) s) i = none) := by
  induction m generalizing a s with
  | zero => exact .inl ⟨rfl, h0⟩
  | succ m ih =>
    rw [range'_succ, foldlM_cons, loopState]
    cases hs : f s a with
    | none => exact .inr ⟨rfl, a, le_rfl, by omega, h0, hs⟩
    | some s' =>
      have hP := hstep a s s' le_rfl (by omega) h0 hs
      have hcases := ih hP fun i s s' hai hi => hstep i s s' (by omega) (by omega)
      rw [show a + 1 + m = a + (m + 1) by omega] at hcases
      rcases hcases with h | ⟨hnone, i, hai, hi, hst⟩
      · exact .inl h
      · exact .inr ⟨hnone, i, by omega, hi, hst⟩

theorem loopState_range {f : σ → ℕ → Option σ} (P : ℕ → σ → Prop) {s : σ} (n : ℕ) (h0 : P 0 s)
    (hstep : ∀ i s s', i < n → P i s → f s i = some s' → P (i + 1) s') :
    ((range n).foldlM f s = some (loopState f (range n) s) ∧ P n (loopState f (range n) s)) ∨
    ((range n).foldlM f s = none ∧ ∃ i < n, P i (loopState f (range n) s) ∧
      f (loopState f (range n) s) i = none) := by
  have hcases := loopState_range' P n h0 fun i s s' _ hi => hstep i s s' (by omega)
  rw [← range_eq_range', Nat.zero_add] at hcases
  rcases hcases with h | ⟨hnone, i, -, hi, hst⟩
  · exact Or.inl h
  · exact Or.inr ⟨hnone, i, hi, hst⟩

theorem mapM_eq_some_map {α β : Type*} {f : α → Option β} {g : α → β} {l : List α}
    (h : ∀ a ∈ l, f a = some (g a)) : l.mapM f = some (l.map g) := by
  induction l with
  | nil => rfl
  | cons a l ih =>
    rw [mapM_cons, h a mem_cons_self, ih fun b hb => h b (mem_cons_of_mem _ hb)]
    rfl

theorem mapM_eq_ok_map {ε α β : Type*} {f : α → Except ε β} {g : α → β} {l : List α}
    (h : ∀ a ∈ l, f a = .ok (g a)) : l.mapM f = .ok (l.map g) := by
  induction l with
  | nil => rfl
  | cons a l ih =>
    rw [mapM_cons, h a mem_cons_self, ih fun b hb => h b (mem_cons_of_mem _ hb)]
    rfl

theorem exists_mapM {α δ : Type*} {f : α → Option δ} {P : α → δ → Prop} {l : List α}
    (h : ∀ a ∈ l, ∃ d, f a = some d ∧ P a d) : ∃ ds, l.mapM f = some ds ∧ Forall₂ P l ds := by
  induction l with
  | nil => exact ⟨[], rfl, .nil⟩
  | cons a l ih =>
    obtain ⟨d, hd, hP⟩ := h a mem_cons_self
    obtain ⟨ds, hds, hall⟩ := ih fun b hb => h b (mem_cons_of_mem _ hb)
    refine ⟨d :: ds, ?_, .cons hP hall⟩
    rw [mapM_cons, hd, hds]
    rfl

theorem forall₂_mem_left {α β : Type*} {R : α → β → Prop} {xs : List α} {ys : List β}
    (h : Forall₂ R xs ys) {x : α} (hx : x ∈ xs) : ∃ y ∈ ys, R x y := by
  induction h with
  | nil => cases hx
  | cons hr _ ih =>
    rcases mem_cons.mp hx with rfl | hx
    · exact ⟨_, mem_cons_self, hr⟩
    · obtain ⟨y, hy, hxy⟩ := ih hx
      exact ⟨y, mem_cons_of_mem _ hy, hxy⟩

theorem forall₂_getD {α β : Type*} {R : α → β → Prop} {xs : List α} {ys : List β}
    (h : Forall₂ R xs ys) {j : ℕ} (hj : j < xs.length) (a : α) (b : β) :
    R (xs.getD j a) (ys.getD j b) := by
  induction h generalizing j with
  | nil => exact absurd hj (Nat.not_lt_zero j)
  | cons hr _ ih =>
    cases j with
    | zero => exact hr
    | succ j => exact ih (Nat.lt_of_succ_lt_succ hj)

theorem forall₂_mem_right {α β : Type*} {R : α → β → Prop} {xs : List α} {ys : List β}
    (h : Forall₂ R xs ys) {y : β} (hy : y ∈ ys) : ∃ x ∈ xs, R x y :=
  forall₂_mem_left h.flip hy

theorem mapM_option_some {α β : Type*} {f : α → Option β} {l : List α} {ys : List β}
    (h : l.mapM f = some ys) : Forall₂ (fun x y => f x = some y) l ys := by
  induction l generalizing ys with
  | nil =>
    cases h
    exact .nil
  | cons a l ih =>
    rw [mapM_cons] at h
    obtain ⟨b, hb, h⟩ := Option.bind_eq_some_iff.mp h
    obtain ⟨bs, hbs, h⟩ := Option.bind_eq_some_iff.mp h
    cases h
    exact .cons hb (ih hbs)

theorem exists_of_isOk {ε α : Type*} {x : Except ε α} (h : x.isOk = true) : ∃ a, x = .ok a := by
  cases x with
  | error => cases h
  | ok a => exact ⟨a, rfl⟩

theorem except_bind_eq_ok {ε : Type*} {α β : Type u} {x : Except ε α} {f : α → Except ε β} {b : β} :
    x >>= f = .ok b ↔ ∃ a, x = .ok a ∧ f a = .ok b := by
  cases x with
  | error e => exact ⟨nofun, fun ⟨_, h, _⟩ => nomatch h⟩
  | ok a =>
    refine ⟨fun h => ⟨a, rfl, h⟩, ?_⟩
    rintro ⟨_, ⟨⟩, h⟩
    exact h

theorem mapM_except_ok {ε α β : Type*} {f : α → Except ε β} {l : List α} {ys : List β}
    (h : l.mapM f = .ok ys) : Forall₂ (fun x y => f x = .ok y) l ys := by
  induction l generalizing ys with
  | nil =>
    cases h
    exact .nil
  | cons a l ih =>
    rw [mapM_cons] at h
    obtain ⟨b, hb, h⟩ := except_bind_eq_ok.mp h
    obtain ⟨bs, hbs, h⟩ := except_bind_eq_ok.mp h
    cases h
    exact .cons hb (ih hbs)

theorem exists_mapM_ok {ε α β : Type*} {f : α → Except ε β} {l : List α}
    (h : ∀ a ∈ l, ∃ b, f a = .ok b) : ∃ bs, l.mapM f = .ok bs := by
  induction l with
  | nil => exact ⟨[], rfl⟩
  | cons a l ih =>
    obtain ⟨b, hb⟩ := h a mem_cons_self
    obtain ⟨bs, hbs⟩ := ih fun a' ha => h a' (mem_cons_of_mem _ ha)
    refine ⟨b :: bs, ?_⟩
    rw [mapM_cons, hb, hbs]
    rfl

theorem map_range_getD {α : Type*} (l : List α) (d : α) :
    (range l.length).map (fun i => l.getD i d) = l := by
  refine ext_getElem (by simp) fun i h h' => ?_
  rw [getElem_map, getElem_range, getD_eq_getElem _ _ h']

theorem map_range_eq_map {α β : Type*} {l : List α} (d : α) {f : ℕ → β} {g : α → β}
    (h : ∀ i < l.length, f i = g (l.getD i d)) : (range l.length).map f = l.map g := by
  conv_rhs => rw [← map_range_getD l d, map_map]
  exact map_congr_left fun i hi => h i (mem_range.mp hi)

end Mlrc
