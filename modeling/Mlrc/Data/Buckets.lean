import Mathlib

/-!
# Buckets

A table of lists under keys, filled one item at a time: the first item of a key opens its bucket.

* `bucket_collect`   the bucket of a key holds the items sent to it, in the order of the input;
* `mem_collect_values`, `collect_flatten_perm`   the buckets of a table;
* `length_collect`   there are as many buckets as keys that occur;
* `length_collect_range`  when the keys are `0, .., m - 1` there are `m` of them;
* `flatMap_filter_of_sorted`, `flatMap_filter_perm`   all buckets, one behind the other;
* `filter_range_intervals`  a bucket made of three intervals.
-/

namespace Mlrc

open List

variable {κ α : Type*} [DecidableEq κ]

/-- put `a` into the bucket of `key` -/
def addTo (key : κ) (a : α) : List (κ × List α) → List (κ × List α)
  | [] => [(key, [a])]
  | (c, as) :: m => if c = key then (c, as ++ [a]) :: m else (c, as) :: addTo key a m

/-- the bucket of a key, empty when the key does not occur -/
def bucket (m : List (κ × List α)) (key : κ) : List α := (m.lookup key).getD []

/-- the items of a list, each in the bucket of its key -/
def collect (f : α → κ) (l : List α) : List (κ × List α) :=
  l.foldl (fun m a => addTo (f a) a m) []

theorem bucket_nil (key : κ) : bucket ([] : List (κ × List α)) key = [] := rfl

theorem bucket_cons (c key : κ) (as : List α) (m : List (κ × List α)) :
    bucket ((c, as) :: m) key = if key = c then as else bucket m key := by
  unfold bucket
  rw [lookup_cons]
  by_cases h : key = c
  · rw [if_pos h, h, beq_self_eq_true]
    rfl
  · rw [if_neg h, beq_eq_false_iff_ne.mpr h]

theorem bucket_addTo (key c : κ) (a : α) (m : List (κ × List α)) :
    bucket (addTo key a m) c = if c = key then bucket m c ++ [a] else bucket m c := by
  induction m with
  | nil =>
    show bucket [(key, [a])] c = _
    rw [bucket_cons, bucket_nil]
    rfl
  | cons entry m ih =>
    obtain ⟨d, as⟩ := entry
    unfold addTo
    by_cases hd : d = key
    · subst hd
      rw [if_pos rfl, bucket_cons, bucket_cons]
      split <;> rfl
    · rw [if_neg hd, bucket_cons, bucket_cons, ih]
      by_cases hc : c = d
      · rw [if_pos hc, if_pos hc, if_neg (fun h => hd (hc.symm.trans h))]
      · rw [if_neg hc, if_neg hc]

theorem keys_addTo (key : κ) (a : α) (m : List (κ × List α)) : (addTo key a m).map Prod.fst =
      if key ∈ m.map Prod.fst then m.map Prod.fst else m.map Prod.fst ++ [key] := by
  induction m with
  | nil => rfl
  | cons entry m ih =>
    obtain ⟨d, as⟩ := entry
    unfold addTo
    by_cases hd : d = key
    · subst hd
      rw [if_pos rfl, map_cons, map_cons, if_pos mem_cons_self]
    · rw [if_neg hd, map_cons, map_cons, ih]
      by_cases hk : key ∈ m.map Prod.fst
      · rw [if_pos hk, if_pos (mem_cons_of_mem _ hk)]
      · have hkd : key ∉ d :: m.map Prod.fst := by
          intro h
          rcases mem_cons.mp h with h | h
          · exact hd h.symm
          · exact hk h
        rw [if_neg hk, if_neg hkd]
        rfl

section
variable (f : α → κ)

theorem collect_append (l : List α) (a : α) : collect f (l ++ [a]) = addTo (f a) a (collect f l) := by
  unfold collect
  rw [foldl_append]
  rfl

theorem bucket_collect (l : List α) (key : κ) :
    bucket (collect f l) key = l.filter fun a => f a = key := by
  induction l using reverseRecOn with
  | nil => rfl
  | append_singleton l a ih =>
    rw [collect_append, bucket_addTo, ih, filter_append, filter_singleton]
    by_cases h : key = f a
    · rw [if_pos h, decide_eq_true h.symm]
      rfl
    · rw [if_neg h, decide_eq_false (fun h' => h h'.symm)]
      exact (append_nil _).symm

theorem keys_collect (l : List α) : ((collect f l).map Prod.fst).Nodup ∧
      ((collect f l).map Prod.fst).toFinset = (l.map f).toFinset := by
  induction l using reverseRecOn with
  | nil => exact ⟨nodup_nil, rfl⟩
  | append_singleton l a ih =>
    obtain ⟨hnd, hset⟩ := ih
    rw [collect_append, keys_addTo]
    have hmem : f a ∈ (collect f l).map Prod.fst ↔ f a ∈ (l.map f).toFinset := by
      rw [← hset, mem_toFinset]
    rw [map_append, toFinset_append, ← hset]
    split
    · rename_i h
      refine ⟨hnd, ?_⟩
      ext c
      simp only [map_cons, map_nil, Finset.mem_union, mem_toFinset,
        mem_singleton]
      exact ⟨.inl, fun hc => hc.elim id (fun hc => hc ▸ h)⟩
    · rename_i h
      refine ⟨nodup_append.mpr ⟨hnd, nodup_singleton _, ?_⟩, ?_⟩
      · intro c hc d hd
        rw [mem_singleton] at hd
        rintro rfl
        exact h (hd ▸ hc)
      · rw [toFinset_append]
        rfl

theorem bucket_of_mem {m : List (κ × List α)} (hnd : (m.map Prod.fst).Nodup) {entry : κ × List α}
    (h : entry ∈ m) : bucket m entry.1 = entry.2 := by
  induction m with
  | nil => cases h
  | cons head m ih =>
    rw [map_cons, nodup_cons] at hnd
    obtain ⟨key, as⟩ := head
    rw [bucket_cons]
    rcases mem_cons.mp h with rfl | hm
    · exact if_pos rfl
    · have hne : entry.1 ≠ key := fun heq => hnd.1 (mem_map.mpr ⟨entry, hm, heq⟩)
      rw [if_neg hne, ih hnd.2 hm]

theorem mem_collect_values (l : List α) (as : List α) :
    as ∈ (collect f l).map Prod.snd ↔ ∃ a ∈ l, as = l.filter fun b => f b = f a := by
  obtain ⟨hnd, hset⟩ := keys_collect f l
  have hkeys : ∀ key, key ∈ (collect f l).map Prod.fst ↔ key ∈ l.map f := by
    intro key
    rw [← mem_toFinset, hset, mem_toFinset]
  constructor
  · intro h
    obtain ⟨entry, hentry, rfl⟩ := mem_map.mp h
    obtain ⟨a, ha, hkey⟩ := mem_map.mp ((hkeys entry.1).mp (mem_map_of_mem hentry))
    refine ⟨a, ha, ?_⟩
    rw [← bucket_of_mem hnd hentry, bucket_collect, hkey]
  · rintro ⟨a, ha, rfl⟩
    obtain ⟨entry, hentry, hkey⟩ := mem_map.mp ((hkeys (f a)).mpr (mem_map_of_mem ha))
    refine mem_map.mpr ⟨entry, hentry, ?_⟩
    rw [← bucket_of_mem hnd hentry, bucket_collect, hkey]

theorem flatten_addTo (key : κ) (a : α) (m : List (κ × List α)) :
    ((addTo key a m).map Prod.snd).flatten.Perm ((m.map Prod.snd).flatten ++ [a]) := by
  induction m with
  | nil => exact List.Perm.refl _
  | cons entry m ih =>
    obtain ⟨d, as⟩ := entry
    unfold addTo
    split
    · rw [map_cons, map_cons, flatten_cons, flatten_cons, append_assoc,
        append_assoc]
      exact perm_append_comm.append_left as
    · rw [map_cons, map_cons, flatten_cons, flatten_cons, append_assoc]
      exact ih.append_left as

theorem collect_flatten_perm (l : List α) : ((collect f l).map Prod.snd).flatten.Perm l := by
  induction l using reverseRecOn with
  | nil => exact List.Perm.refl _
  | append_singleton l a ih =>
    rw [collect_append]
    exact (flatten_addTo (f a) a _).trans (ih.append_right [a])

theorem length_collect (l : List α) : (collect f l).length = (l.map f).toFinset.card := by
  obtain ⟨hnd, hset⟩ := keys_collect f l
  rw [← hset, toFinset_card_of_nodup hnd, length_map]

end

theorem length_collect_range {f : α → ℤ} {l : List α} {m : ℕ}
    (hlt : ∀ a ∈ l, 0 ≤ f a ∧ f a < m) (hall : ∀ g : ℕ, g < m → ∃ a ∈ l, f a = g) :
    (collect f l).length = m := by
  have hset : (l.map f).toFinset = (Finset.range m).image (fun g : ℕ => (g : ℤ)) := by
    ext c
    simp only [mem_toFinset, mem_map, Finset.mem_image, Finset.mem_range]
    constructor
    · rintro ⟨a, ha, rfl⟩
      obtain ⟨h0, h1⟩ := hlt a ha
      exact ⟨(f a).toNat, by omega, by omega⟩
    · rintro ⟨g, hg, rfl⟩
      exact hall g hg
  rw [length_collect, hset, Finset.card_image_of_injective _ (fun _ _ h => Int.ofNat_inj.mp h),
    Finset.card_range]

theorem key_bounds_of_buckets {f : α → ℤ} {l : List α}
    (hall : ∀ g : ℕ, g < (collect f l).length → ∃ a ∈ l, f a = g) :
    ∀ a ∈ l, 0 ≤ f a ∧ f a < (collect f l).length := by
  intro a ha
  have hsub : (Finset.range (collect f l).length).image (fun g : ℕ => (g : ℤ)) ⊆ (l.map f).toFinset := by
    intro c hc
    rw [Finset.mem_image] at hc
    obtain ⟨g, hg, rfl⟩ := hc
    obtain ⟨b, hb, hbg⟩ := hall g (Finset.mem_range.mp hg)
    rw [mem_toFinset]
    exact mem_map.mpr ⟨b, hb, hbg⟩
  have hcard : (l.map f).toFinset.card ≤
      ((Finset.range (collect f l).length).image (fun g : ℕ => (g : ℤ))).card := by
    rw [Finset.card_image_of_injective _ fun _ _ h => Int.ofNat_inj.mp h, Finset.card_range,
      length_collect]
  have hmem : f a ∈ (l.map f).toFinset := mem_toFinset.mpr (mem_map.mpr ⟨a, ha, rfl⟩)
  rw [← Finset.eq_of_subset_of_card_le hsub hcard, Finset.mem_image] at hmem
  obtain ⟨g, hlt, hg⟩ := hmem
  rw [← hg]
  exact ⟨Int.natCast_nonneg g, Int.ofNat_lt.mpr (Finset.mem_range.mp hlt)⟩

/-! ## Bucket after bucket -/

section
variable {f : α → ℤ} {l : List α}

theorem filter_append_filter {p q : α → Prop} [DecidablePred p] [DecidablePred q]
    (hdis : ∀ a, p a → ¬ q a) (h : l.Pairwise fun a b => q a → ¬ p b) :
    l.filter (fun a => p a) ++ l.filter (fun a => q a) = l.filter fun a => p a ∨ q a := by
  induction l with
  | nil => rfl
  | cons a l ih =>
    obtain ⟨ha, hl⟩ := pairwise_cons.mp h
    have ih := ih hl
    by_cases hp : p a
    · rw [filter_cons_of_pos (by simpa using hp),
        filter_cons_of_neg (by simpa using hdis a hp),
        filter_cons_of_pos (by simp [hp]), cons_append, ih]
    · by_cases hq : q a
      · -- nothing of the first part is left
        have hnil : l.filter (fun a => p a) = [] := by
          rw [filter_eq_nil_iff]
          intro b hb
          rw [decide_eq_true_eq]
          exact ha b hb hq
        rw [hnil, nil_append] at ih
        rw [filter_cons_of_neg (by simpa using hp), hnil, nil_append,
          filter_cons_of_pos (by simpa using hq),
          filter_cons_of_pos (by simp [hq]), ih]
      · rw [filter_cons_of_neg (by simpa using hp), filter_cons_of_neg (by simpa using hq),
          filter_cons_of_neg (by simp [hp, hq]), ih]

theorem flatMap_filter_of_sorted (hsorted : l.Pairwise fun a b => f a ≤ f b)
    (hpos : ∀ a ∈ l, 0 ≤ f a) (m : ℕ) : (range m).flatMap (fun g : ℕ => l.filter fun a => f a = g) =
      l.filter fun a => f a < m := by
  induction m with
  | zero =>
    refine (filter_eq_nil_iff.mpr fun a ha => ?_).symm
    rw [decide_eq_true_eq]
    exact not_lt.mpr (hpos a ha)
  | succ m ih =>
    rw [range_succ, flatMap_append, ih, flatMap_cons, flatMap_nil,
      append_nil, filter_append_filter]
    · refine filter_congr fun a _ => ?_
      rw [decide_eq_decide]
      omega
    · intro a hlt
      omega
    · refine hsorted.imp fun {a b} hab heq => ?_
      omega

theorem flatMap_filter_perm [DecidableEq α] {m : ℕ} (hnd : l.Nodup)
    (hlt : ∀ a ∈ l, 0 ≤ f a ∧ f a < m) :
    ((range m).flatMap fun g : ℕ => l.filter fun a => f a = g).Perm l := by
  refine (perm_ext_iff_of_nodup ?_ hnd).mpr fun a => ?_
  · rw [nodup_flatMap]
    refine ⟨fun g _ => hnd.filter _, nodup_range.imp fun {g h} hgh a ha hb => ?_⟩
    rw [mem_filter, decide_eq_true_eq] at ha hb
    exact hgh (Int.ofNat_inj.mp (ha.2.symm.trans hb.2))
  · rw [mem_flatMap]
    constructor
    · rintro ⟨g, -, ha⟩
      exact (mem_filter.mp ha).1
    · intro ha
      obtain ⟨h0, h1⟩ := hlt a ha
      refine ⟨(f a).toNat, mem_range.mpr (by omega), mem_filter.mpr ⟨ha, ?_⟩⟩
      rw [decide_eq_true_eq]
      omega

end

theorem filter_range_intervals {p : ℕ → Prop} [DecidablePred p] {n a₁ b₁ a₂ b₂ a₃ b₃ : ℕ}
    (h₁ : b₁ ≤ a₂) (h₂ : b₂ ≤ a₃) (h₁₃ : b₁ ≤ a₃) (hn₁ : b₁ ≤ n) (hn₂ : b₂ ≤ n) (hn₃ : b₃ ≤ n)
    (hp : ∀ i < n, p i ↔ (a₁ ≤ i ∧ i < b₁) ∨ (a₂ ≤ i ∧ i < b₂) ∨ (a₃ ≤ i ∧ i < b₃)) :
    (range n).filter (fun i => p i) =
      range' a₁ (b₁ - a₁) ++ range' a₂ (b₂ - a₂) ++ range' a₃ (b₃ - a₃) := by
  have hmem : ∀ i, i ∈ (range n).filter (fun i => p i) ↔
      i ∈ range' a₁ (b₁ - a₁) ++ range' a₂ (b₂ - a₂) ++ range' a₃ (b₃ - a₃) := by
    intro i
    simp only [mem_filter, mem_range, decide_eq_true_eq, mem_append,
      mem_range'_1]
    constructor
    · rintro ⟨hi, hpi⟩
      rcases (hp i hi).mp hpi with h | h | h
      · exact .inl (.inl (by omega))
      · exact .inl (.inr (by omega))
      · exact .inr (by omega)
    · intro h
      have hi : i < n := by omega
      exact ⟨hi, (hp i hi).mpr (by omega)⟩
  have hsorted₁ : ((range n).filter (fun i => p i)).Pairwise (· < ·) :=
    pairwise_lt_range.filter _
  have hsorted₂ : (range' a₁ (b₁ - a₁) ++ range' a₂ (b₂ - a₂) ++
      range' a₃ (b₃ - a₃)).Pairwise (· < ·) := by
    rw [pairwise_append, pairwise_append]
    refine ⟨⟨pairwise_lt_range', pairwise_lt_range', ?_⟩, pairwise_lt_range', ?_⟩
    · intro i hi j hj
      rw [mem_range'_1] at hi hj
      omega
    · intro i hi j hj
      rw [mem_append, mem_range'_1, mem_range'_1] at hi
      rw [mem_range'_1] at hj
      omega
  refine List.Perm.eq_of_pairwise (fun i j _ _ hij hji => absurd hij (lt_asymm hji))
    hsorted₁ hsorted₂ ?_
  refine (perm_ext_iff_of_nodup ?_ ?_).mpr hmem
  · exact hsorted₁.imp ne_of_lt
  · exact hsorted₂.imp ne_of_lt

end Mlrc
