import Mathlib

/-!
# Numbers as bytes

* `le32`, `readLe32`   four bytes, the lowest one first;
* `narrowed`   a size of 64 bits that was passed on as an `int`;
* `toDecimal`   the decimal digits of an integer, with its sign;
* `append_sep_inj`   a word up to its first separator.
-/

namespace Mlrc

open List

/-! ## Words of four bytes -/

def le32 (n : ℕ) : List UInt8 :=
  [UInt8.ofNat n, UInt8.ofNat (n / 2 ^ 8), UInt8.ofNat (n / 2 ^ 16), UInt8.ofNat (n / 2 ^ 24)]

/-- the number in the first four bytes, and the bytes behind it -/
def readLe32 : List UInt8 → Option (ℕ × List UInt8)
  | a :: b :: c :: d :: rest =>
    some (a.toNat + 2 ^ 8 * b.toNat + 2 ^ 16 * c.toNat + 2 ^ 24 * d.toNat, rest)
  | _ => none

theorem readLe32_le32 {n : ℕ} (hn : n < 2 ^ 32) (rest : List UInt8) :
    readLe32 (le32 n ++ rest) = some (n, rest) := by
  have hval : (UInt8.ofNat n).toNat + 2 ^ 8 * (UInt8.ofNat (n / 2 ^ 8)).toNat +
      2 ^ 16 * (UInt8.ofNat (n / 2 ^ 16)).toNat + 2 ^ 24 * (UInt8.ofNat (n / 2 ^ 24)).toNat = n := by
    simp only [UInt8.toNat_ofNat']
    omega
  exact congrArg (fun m => some (m, rest)) hval

theorem eq_le32_of_readLe32 {bytes rest : List UInt8} {n : ℕ} (h : readLe32 bytes = some (n, rest)) :
    bytes = le32 n ++ rest := by
  match bytes, h with
  | a :: b :: c :: d :: tail, h =>
    obtain ⟨rfl, rfl⟩ := Prod.mk.inj (Option.some.inj h)
    have ha := a.toNat_lt
    have hb := b.toNat_lt
    have hc := c.toNat_lt
    have hd := d.toNat_lt
    have hbyte : ∀ (x : UInt8) (m : ℕ), m % 256 = x.toNat → UInt8.ofNat m = x := by
      intro x m hm
      apply UInt8.toNat_inj.mp
      rw [UInt8.toNat_ofNat']
      exact hm
    unfold le32
    rw [hbyte a _ (by omega), hbyte b _ (by omega), hbyte c _ (by omega), hbyte d _ (by omega)]
    rfl

/-! ## Sizes of 64 bits as `int` -/

/-- the `size_t` of an `int` that was made from a size; a negative `int` becomes a huge size -/
def narrowed (n : ℕ) : ℕ := ((n : ℤ).bmod (2 ^ 32) % 2 ^ 64).toNat

theorem le_narrowed {n : ℕ} (hn : n < 2 ^ 32) : n ≤ narrowed n := by
  unfold narrowed
  rw [Int.bmod_def]
  split <;> omega

/-! ## Decimal numbers -/

/-- the digits of a number, the highest one first -/
def decimal (n : ℕ) : List UInt8 :=
  if n = 0 then [48] else (Nat.digits 10 n).reverse.map fun d => UInt8.ofNat (48 + d)

/-- `std::to_string` -/
def toDecimal (n : ℤ) : List UInt8 :=
  if n < 0 then 45 :: decimal n.natAbs else decimal n.natAbs

theorem toNat_digit {d : ℕ} (hd : d < 10) : (UInt8.ofNat (48 + d)).toNat = 48 + d := by
  rw [UInt8.toNat_ofNat']
  omega

theorem mem_decimal {n : ℕ} {b : UInt8} (h : b ∈ decimal n) : 48 ≤ b.toNat ∧ b.toNat < 58 := by
  unfold decimal at h
  split at h
  · rw [mem_singleton.mp h]
    decide
  · obtain ⟨d, hd, rfl⟩ := mem_map.mp h
    have hlt := Nat.digits_lt_base (by decide) (mem_reverse.mp hd)
    rw [toNat_digit hlt]
    omega

theorem mem_toDecimal {n : ℤ} {b : UInt8} (h : b ∈ toDecimal n) : 45 ≤ b.toNat ∧ b.toNat < 58 := by
  unfold toDecimal at h
  split at h
  · rcases mem_cons.mp h with rfl | h
    · decide
    · have := mem_decimal h
      omega
  · have := mem_decimal h
    omega

theorem digits_of_map {l l' : List ℕ} (hl : ∀ d ∈ l, d < 10) (hl' : ∀ d ∈ l', d < 10)
    (h : l.map (fun d => UInt8.ofNat (48 + d)) = l'.map fun d => UInt8.ofNat (48 + d)) : l = l' := by
  have hback : ∀ l : List ℕ, (∀ d ∈ l, d < 10) →
      (l.map fun d => UInt8.ofNat (48 + d)).map (fun b => b.toNat - 48) = l := by
    intro l hl
    rw [map_map]
    refine (map_congr_left fun d hd => ?_).trans (map_id l)
    show (UInt8.ofNat (48 + d)).toNat - 48 = d
    rw [toNat_digit (hl d hd), Nat.add_sub_cancel_left]
  rw [← hback l hl, h, hback l' hl']

theorem decimal_injective : Function.Injective decimal := by
  -- no number but 0 has the single digit 0
  have hzero : ∀ n, n ≠ 0 → decimal n ≠ [48] := by
    intro n hn h
    unfold decimal at h
    rw [if_neg hn] at h
    have hdigits := digits_of_map
      (fun d hd => Nat.digits_lt_base (by decide) (mem_reverse.mp hd))
      (show ∀ d ∈ [0], d < 10 by decide) h
    rw [reverse_eq_iff] at hdigits
    have hval := congrArg (Nat.ofDigits 10) hdigits
    rw [Nat.ofDigits_digits] at hval
    exact hn hval
  intro n m h
  by_cases hn : n = 0
  · by_cases hm : m = 0
    · rw [hn, hm]
    · rw [hn] at h
      exact absurd h.symm (hzero m hm)
  · by_cases hm : m = 0
    · rw [hm] at h
      exact absurd h (hzero n hn)
    · unfold decimal at h
      rw [if_neg hn, if_neg hm] at h
      have hdigits := digits_of_map
        (fun d hd => Nat.digits_lt_base (by decide) (mem_reverse.mp hd))
        (fun d hd => Nat.digits_lt_base (by decide) (mem_reverse.mp hd)) h
      exact Nat.digits_inj_iff.mp (reverse_injective hdigits)

theorem toDecimal_injective : Function.Injective toDecimal := by
  -- a sign is not a digit
  have hsign : ∀ (n m : ℕ), 45 :: decimal n ≠ decimal m := by
    intro n m h
    have hmem : (45 : UInt8) ∈ decimal m := by
      rw [← h]
      exact mem_cons_self
    exact absurd (mem_decimal hmem).1 (by decide)
  intro n m h
  unfold toDecimal at h
  by_cases hn : n < 0 <;> by_cases hm : m < 0
  · rw [if_pos hn, if_pos hm] at h
    have habs := decimal_injective (tail_eq_of_cons_eq h)
    omega
  · rw [if_pos hn, if_neg hm] at h
    exact absurd h (hsign _ _)
  · rw [if_neg hn, if_pos hm] at h
    exact absurd h.symm (hsign _ _)
  · rw [if_neg hn, if_neg hm] at h
    have habs := decimal_injective h
    omega

/-! ## Separators -/

theorem append_sep_inj {α : Type*} {sep : α} {x x' y y' : List α} (hx : sep ∉ x) (hx' : sep ∉ x')
    (h : x ++ sep :: y = x' ++ sep :: y') : x = x' ∧ y = y' := by
  induction x generalizing x' with
  | nil =>
    cases x' with
    | nil => exact ⟨rfl, tail_eq_of_cons_eq h⟩
    | cons a x' =>
      rw [nil_append, cons_append, cons.injEq] at h
      exact absurd (h.1 ▸ mem_cons_self) hx'
  | cons a x ih =>
    cases x' with
    | nil =>
      rw [nil_append, cons_append, cons.injEq] at h
      exact absurd (h.1 ▸ mem_cons_self) hx
    | cons a' x' =>
      rw [cons_append, cons_append, cons.injEq] at h
      obtain ⟨rfl, hrest⟩ := ih (fun hmem => hx (mem_cons_of_mem _ hmem))
        (fun hmem => hx' (mem_cons_of_mem _ hmem)) h.2
      exact ⟨by rw [h.1], hrest⟩

end Mlrc
