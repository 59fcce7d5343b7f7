import Mathlib

/-!
# Scanning a list for the best admissible entry, and sorting with a comparator

* `scanBest_isSome_iff`, `scanBest_some`   a scan finds an entry when there is an admissible one,
  and what it finds is admissible;
* `StrictWeak`, `scanBest_best`   under a strict weak order no admissible entry is better than it;
* `StdSort`   what is known about a library sort: a permutation in comparator order, the order of
  equivalent entries open.
-/

namespace Mlrc

open List

variable {α : Type*}

/-- one turn of a scan: an admissible entry replaces a missing or worse one -/
def scanStep (ok : α → Bool) (better : α → α → Bool) (best : Option α) (x : α) : Option α :=
  if ok x then
    match best with
    | none => some x
    | some b => if better x b then some x else some b
  else best

/-- the best admissible entry of a list, the first one among equals -/
def scanBest (ok : α → Bool) (better : α → α → Bool) (l : List α) : Option α :=
  l.foldl (scanStep ok better) none

theorem find?_eq_some_of_unique {p : α → Bool} {l : List α} {a : α} (hmem : a ∈ l) (ha : p a = true)
    (hu : ∀ b ∈ l, p b = true → b = a) : l.find? p = some a := by
  cases h : l.find? p with
  | none => exact absurd ha (find?_eq_none.mp h a hmem)
  | some b => rw [hu b (mem_of_find?_eq_some h) (find?_some h)]

theorem perm_filter_not_mem_append [DecidableEq α] {l part : List α} (hl : l.Nodup)
    (hp : part.Nodup) (hsub : part ⊆ l) : l.Perm (l.filter (fun a => a ∉ part) ++ part) := by
  have hdisj : (l.filter (fun a => a ∉ part)).Disjoint part := by
    intro a ha hpart
    exact of_decide_eq_true (mem_filter.mp ha).2 hpart
  rw [perm_ext_iff_of_nodup hl (List.Nodup.append (hl.filter _) hp hdisj)]
  intro a
  rw [mem_append, mem_filter, decide_eq_true_iff]
  by_cases ha : a ∈ part
  · exact ⟨fun _ => .inr ha, fun _ => hsub ha⟩
  · exact ⟨fun h => .inl ⟨h, ha⟩, fun h => h.elim And.left (absurd · ha)⟩

section
variable (ok : α → Bool) (better : α → α → Bool)

theorem scanStep_isSome (best : Option α) (x : α) :
    (scanStep ok better best x).isSome ↔ best.isSome ∨ ok x = true := by
  unfold scanStep
  by_cases h : ok x = true
  · rw [if_pos h]
    cases best with
    | none => simp [h]
    | some b => by_cases hb : better x b <;> simp [hb]
  · rw [if_neg h]
    simp [h]

theorem scanStep_some {best : Option α} {x y : α} (h : scanStep ok better best x = some y) :
    best = some y ∨ (y = x ∧ ok x = true) := by
  unfold scanStep at h
  split at h
  · next hok =>
    cases best with
    | none => exact .inr ⟨(Option.some.inj h).symm, hok⟩
    | some b =>
      simp only at h
      split at h
      · exact .inr ⟨(Option.some.inj h).symm, hok⟩
      · exact .inl h
  · exact .inl h

theorem foldl_scanStep_isSome (l : List α) (best : Option α) :
    (l.foldl (scanStep ok better) best).isSome ↔ best.isSome ∨ ∃ x ∈ l, ok x = true := by
  induction l generalizing best with
  | nil => simp
  | cons x l ih =>
    rw [foldl_cons, ih, scanStep_isSome]
    simp only [mem_cons, exists_eq_or_imp, or_assoc]

theorem foldl_scanStep_some (l : List α) {best : Option α} {y : α}
    (h : l.foldl (scanStep ok better) best = some y) : best = some y ∨ (y ∈ l ∧ ok y = true) := by
  induction l generalizing best with
  | nil => exact .inl h
  | cons x l ih =>
    rcases ih h with h1 | ⟨h1, h2⟩
    · rcases scanStep_some ok better h1 with h2 | ⟨rfl, h2⟩
      · exact .inl h2
      · exact .inr ⟨mem_cons_self, h2⟩
    · exact .inr ⟨mem_cons_of_mem _ h1, h2⟩

theorem scanBest_isSome_iff (l : List α) :
    (scanBest ok better l).isSome ↔ ∃ x ∈ l, ok x = true := by
  rw [scanBest, foldl_scanStep_isSome]
  simp

theorem scanBest_some {l : List α} {y : α} (h : scanBest ok better l = some y) :
    y ∈ l ∧ ok y = true := by
  rcases foldl_scanStep_some ok better l h with h | h
  · cases h
  · exact h

end

/-! ## Strict weak orders -/

/-- a strict weak order, as a comparator for a sort must be -/
structure StrictWeak {α : Type} (lt : α → α → Bool) : Prop where
  asymm : ∀ a b, lt a b = true → lt b a = false
  neg_trans : ∀ a b c, lt a b = false → lt b c = false → lt a c = false

section
variable {α : Type} {ok : α → Bool} {better : α → α → Bool}

theorem StrictWeak.irrefl (h : StrictWeak better) (a : α) : better a a = false := by
  cases ha : better a a with
  | false => rfl
  | true => exact ha.symm.trans (h.asymm a a ha)

theorem strictWeak_of_lt (f : α → ℕ) : StrictWeak fun a b => decide (f a < f b) where
  asymm a b h := by
    rw [decide_eq_true_eq] at h
    rw [decide_eq_false_iff_not]
    omega
  neg_trans a b c hab hbc := by
    rw [decide_eq_false_iff_not] at hab hbc ⊢
    omega

theorem scanStep_best (h : StrictWeak better) {best : Option α} {x b : α}
    (hs : scanStep ok better best x = some b) :
    (∀ a, best = some a → better a b = false) ∧ (ok x = true → better x b = false) := by
  unfold scanStep at hs
  split at hs
  · cases best with
    | none =>
      cases hs
      exact ⟨fun a ha => (by cases ha), fun _ => h.irrefl x⟩
    | some a =>
      simp only at hs
      split at hs
      · next hlt =>
        cases hs
        refine ⟨fun a' ha => ?_, fun _ => h.irrefl x⟩
        cases ha
        exact h.asymm x a hlt
      · next hge =>
        cases hs
        refine ⟨fun a' ha => ?_, fun _ => Bool.eq_false_iff.mpr hge⟩
        cases ha
        exact h.irrefl _
  · next hno =>
    refine ⟨fun a ha => ?_, fun hok => absurd hok hno⟩
    cases ha.symm.trans hs
    exact h.irrefl b

theorem foldl_scanStep_best (h : StrictWeak better) (l : List α) {best : Option α} {y : α}
    (hs : l.foldl (scanStep ok better) best = some y) :
    (∀ a, best = some a → better a y = false) ∧ ∀ x ∈ l, ok x = true → better x y = false := by
  induction l generalizing best with
  | nil =>
    refine ⟨fun a ha => ?_, fun x hx => absurd hx not_mem_nil⟩
    cases ha.symm.trans hs
    exact h.irrefl y
  | cons x l ih =>
    obtain ⟨hbest, hrest⟩ := ih hs
    cases hstep : scanStep ok better best x with
    | none =>
      -- nothing is kept, so nothing was there and `x` is not admissible
      have hnone := mt (scanStep_isSome ok better best x).mpr (by rw [hstep]; simp)
      rw [not_or] at hnone
      refine ⟨fun a ha => absurd (by rw [ha]; rfl) hnone.1, fun w hw hok => ?_⟩
      rcases mem_cons.mp hw with rfl | hw
      · exact absurd hok hnone.2
      · exact hrest w hw hok
    | some b =>
      have hby := hbest b hstep
      obtain ⟨hold, hnew⟩ := scanStep_best h hstep
      refine ⟨fun a ha => h.neg_trans a b y (hold a ha) hby, fun w hw hok => ?_⟩
      rcases mem_cons.mp hw with rfl | hw
      · exact h.neg_trans w b y (hnew hok) hby
      · exact hrest w hw hok

theorem scanBest_best (h : StrictWeak better) {l : List α} {y : α}
    (hs : scanBest ok better l = some y) {x : α} (hx : x ∈ l) (hok : ok x = true) :
    better x y = false :=
  (foldl_scanStep_best h l hs).2 x hx hok

end

/-! ## Sorting -/

/-- a sort with a comparator; entries the comparator does not separate may come in any order -/
structure StdSort where
  sort : {α : Type} → (α → α → Bool) → List α → List α
  perm : ∀ {α : Type} (lt : α → α → Bool) (l : List α), StrictWeak lt → (sort lt l).Perm l
  sorted : ∀ {α : Type} (lt : α → α → Bool) (l : List α), StrictWeak lt →
    (sort lt l).Pairwise fun a b => lt b a = false

theorem findSome?_sorted {α β : Type} {lt : α → α → Bool} (hlt : StrictWeak lt) {l : List α}
    (hl : l.Pairwise fun a b => lt b a = false) {f : α → Option β} {y : β} (h : l.findSome? f = some y) :
    ∃ a ∈ l, f a = some y ∧ ∀ b ∈ l, (f b).isSome → lt b a = false := by
  induction l with
  | nil => cases h
  | cons a l ih =>
    rw [pairwise_cons] at hl
    rw [findSome?_cons] at h
    cases ha : f a with
    | some y' =>
      rw [ha] at h
      cases h
      refine ⟨a, mem_cons_self, ha, fun b hb _ => ?_⟩
      rcases mem_cons.mp hb with rfl | hb
      · exact hlt.irrefl b
      · exact hl.1 b hb
    | none =>
      rw [ha] at h
      obtain ⟨a', ha', hfa', hfirst⟩ := ih hl.2 h
      refine ⟨a', mem_cons_of_mem _ ha', hfa', fun b hb hfb => ?_⟩
      rcases mem_cons.mp hb with rfl | hb
      · rw [ha] at hfb
        cases hfb
      · exact hfirst b hb hfb

def StdSort.insertion : StdSort where
  sort lt l := l.insertionSort fun a b => lt b a = false
  perm lt l _ := perm_insertionSort _ l
  sorted lt l h := by
    let r := fun a b => lt b a = false
    have : Std.Total r := ⟨fun a b => by
      cases hab : lt b a with
      | false => exact .inl hab
      | true => exact .inr (h.asymm b a hab)⟩
    have : IsTrans _ r := ⟨fun a b c hab hbc => h.neg_trans c b a hbc hab⟩
    exact pairwise_insertionSort r l

end Mlrc
