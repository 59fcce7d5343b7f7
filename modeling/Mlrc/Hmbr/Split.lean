import Mathlib

/-!
# The split of a block between two repairs

HMBR repairs a prefix of every lost block with the pipeline and the rest at one proxy.  The cut is
computed in floating point from the bandwidths, or given as a number of shards.

* `glrcHmbrBuildShardSplit`   the split;
* `GlrcHmbrShardSplit.Proper`   two non-empty parts that make up the block;
* `glrcHmbrBuildShardSplit_ok`   every split that is returned is proper.

The arithmetic of `double` is a parameter: no operation on it decides whether a split is proper.
-/

namespace Mlrc

/-! ## Numbers -/

/-- `isspace` in the C locale -/
def isSpaceC (c : Char) : Bool := c = ' ' || (9 ≤ c.toNat && c.toNat ≤ 13)

/-- the digits behind an optional sign, and whether they are negated -/
def splitSign : List Char → Bool × ℕ × List Char
  | '-' :: cs => (true, 1, cs)
  | '+' :: cs => (false, 1, cs)
  | cs => (false, 0, cs)

/-- `std::stoi`: the number and how many characters it took; `none` is an exception -/
def stoi (s : String) : Option (ℤ × ℕ) :=
  let blanks := s.toList.takeWhile isSpaceC
  let (neg, sign, rest) := splitSign (s.toList.drop blanks.length)
  let digits := rest.takeWhile Char.isDigit
  let magnitude : ℤ := digits.foldl (fun n c => n * 10 + (c.toNat - '0'.toNat : ℕ)) 0
  let value := if neg then -magnitude else magnitude
  if digits = [] ∨ value < -2 ^ 31 ∨ 2 ^ 31 ≤ value then none
  else some (value, blanks.length + sign + digits.length)

/-- `std::lround` on exact numbers -/
def lroundRat (q : ℚ) : ℤ := if 0 ≤ q then ⌊q + 1 / 2⌋ else ⌈q - 1 / 2⌉

/-! ## The split -/

structure GlrcHmbrShardSplit (δ : Type) where
  globalShardCount : ℕ
  stripeByteLen : ℕ
  rpShardBegin : ℕ
  rpShardCount : ℕ
  convShardBegin : ℕ
  convShardCount : ℕ
  rpFraction : δ
  rpContinuousShards : δ
  rpEstimatedTime : δ
  convEstimatedTime : δ
deriving DecidableEq, Repr

namespace GlrcHmbrShardSplit
variable {δ : Type} (split : GlrcHmbrShardSplit δ)

def rpByteOffset : ℕ := split.rpShardBegin * split.stripeByteLen
def rpByteSize : ℕ := split.rpShardCount * split.stripeByteLen
def convByteOffset : ℕ := split.convShardBegin * split.stripeByteLen
def convByteSize : ℕ := split.convShardCount * split.stripeByteLen

end GlrcHmbrShardSplit

section
variable {δ : Type} [Add δ] [Sub δ] [Mul δ] [Div δ] [IntCast δ] [LE δ] [DecidableLE δ]
  (lround : δ → ℤ)

/-- the number of pipeline shards and its continuous value; `auto` is clamped afterwards, a fixed
number has to be in range -/
def rpShards (globalShardCount helperCount failedCount : ℕ) (rpBandwidthMbps convBandwidthMbps : δ)
    (rpShardConfig : String) : Except String (ℤ × δ) :=
  if rpShardConfig = "" ∨ rpShardConfig = "auto" ∨ rpShardConfig = "AUTO" then
    let rpCoef := ((failedCount : ℤ) : δ) / rpBandwidthMbps
    let convCoef := (((helperCount + failedCount : ℕ) - 1 : ℤ) : δ) / convBandwidthMbps
    let continuous := convCoef / (rpCoef + convCoef) * ((globalShardCount : ℤ) : δ)
    .ok (max 1 (min ((globalShardCount : ℤ) - 1) (lround continuous)), continuous)
  else
    match stoi rpShardConfig with
    | none => .error "GlrcHmbrP must be auto or an integer"
    | some (value, used) =>
      if used ≠ rpShardConfig.length then .error "GlrcHmbrP must be auto or an integer"
      else if value < 1 ∨ (globalShardCount : ℤ) ≤ value then
        .error "fixed GlrcHmbrP must be in [1, GlrcShardCount-1]"
      else .ok (value, (value : δ))

def glrcHmbrBuildShardSplit (globalShardCount blockSize helperCount failedCount : ℕ)
    (rpBandwidthMbps convBandwidthMbps : δ) (rpShardConfig : String) :
    Except String (GlrcHmbrShardSplit δ) :=
  if globalShardCount < 2 then .error "HMBR-LRC requires GlrcShardCount >= 2"
  else if blockSize < 1 ∨ blockSize % globalShardCount ≠ 0 then
    .error "HMBR-LRC requires BlockSize divisible by GlrcShardCount"
  else if helperCount < 1 ∨ failedCount < 1 ∨ rpBandwidthMbps ≤ ((0 : ℤ) : δ) ∨
      convBandwidthMbps ≤ ((0 : ℤ) : δ) then
    .error "HMBR-LRC requires positive helper, failure, and bandwidth values"
  else do
    let (rpShardCount, continuous) ← rpShards lround globalShardCount helperCount failedCount
      rpBandwidthMbps convBandwidthMbps rpShardConfig
    let rpFraction := (rpShardCount : δ) / ((globalShardCount : ℤ) : δ)
    let blockMegabytes := ((blockSize : ℤ) : δ) / ((1024 * 1024 : ℤ) : δ)
    return {
      globalShardCount := globalShardCount
      stripeByteLen := blockSize / globalShardCount
      rpShardBegin := 0
      rpShardCount := rpShardCount.toNat
      convShardBegin := rpShardCount.toNat
      convShardCount := globalShardCount - rpShardCount.toNat
      rpFraction := rpFraction
      rpContinuousShards := continuous
      rpEstimatedTime := rpFraction * ((failedCount : ℤ) : δ) * blockMegabytes / rpBandwidthMbps
      convEstimatedTime := (((1 : ℤ) : δ) - rpFraction) *
        (((helperCount + failedCount : ℕ) - 1 : ℤ) : δ) / convBandwidthMbps * blockMegabytes }

/-- the pipeline repairs a non-empty prefix of shards and leaves a non-empty rest -/
structure GlrcHmbrShardSplit.Proper (split : GlrcHmbrShardSplit δ) (globalShardCount blockSize : ℕ) :
    Prop where
  size_pos : 0 < blockSize
  dvd : globalShardCount ∣ blockSize
  len : split.stripeByteLen = blockSize / globalShardCount
  rpBegin : split.rpShardBegin = 0
  rp_pos : 0 < split.rpShardCount
  rp_lt : split.rpShardCount < globalShardCount
  convBegin : split.convShardBegin = split.rpShardCount
  convCount : split.convShardCount = globalShardCount - split.rpShardCount

variable {lround} {S blockSize helperCount failedCount : ℕ} {rpBw convBw : δ} {config : String}

omit [Sub δ] [LE δ] [DecidableLE δ] in
theorem rpShards_range {p : ℤ × δ} (hS : 2 ≤ S)
    (h : rpShards lround S helperCount failedCount rpBw convBw config = .ok p) :
    1 ≤ p.1 ∧ p.1 < S := by
  unfold rpShards at h
  split at h
  · cases h
    simp only
    omega
  · split at h
    · cases h
    · next value used _ =>
      split at h
      · cases h
      · split at h
        · cases h
        · cases h
          simp only
          omega

theorem glrcHmbrBuildShardSplit_ok {split : GlrcHmbrShardSplit δ}
    (h : glrcHmbrBuildShardSplit lround S blockSize helperCount failedCount rpBw convBw config =
      .ok split) : split.Proper S blockSize ∧ 0 < helperCount ∧ 0 < failedCount := by
  unfold glrcHmbrBuildShardSplit at h
  split at h
  · cases h
  · next hS =>
    split at h
    · cases h
    · next hsize =>
      split at h
      · cases h
      · next hpos =>
        simp only [not_or, not_lt] at hsize hpos
        cases hp : rpShards lround S helperCount failedCount rpBw convBw config with
        | error msg =>
          rw [hp] at h
          cases h
        | ok p =>
          rw [hp] at h
          cases h
          have hrange := rpShards_range (by omega) hp
          refine ⟨?_, hpos.1, hpos.2.1⟩
          exact {
            size_pos := hsize.1
            dvd := Nat.dvd_of_mod_eq_zero (not_not.mp hsize.2)
            len := rfl
            rpBegin := rfl
            rp_pos := by simp only; omega
            rp_lt := by simp only; omega
            convBegin := rfl
            convCount := rfl }

end

namespace GlrcHmbrShardSplit.Proper
variable {δ : Type} {split : GlrcHmbrShardSplit δ} {S blockSize : ℕ}

section
variable (h : split.Proper S blockSize)
include h

theorem mul_len : S * split.stripeByteLen = blockSize := by
  rw [h.len]
  exact Nat.mul_div_cancel' h.dvd

theorem len_pos : 0 < split.stripeByteLen := by
  refine pos_of_ne_zero fun h0 => ?_
  have hmul := h.mul_len
  rw [h0, mul_zero] at hmul
  exact ne_of_lt h.size_pos hmul

theorem rpByteSize_pos : 0 < split.rpByteSize :=
  mul_pos h.rp_pos h.len_pos

theorem convByteSize_pos : 0 < split.convByteSize := by
  have hlt := h.rp_lt
  refine mul_pos ?_ h.len_pos
  rw [h.convCount]
  omega

theorem convByteOffset_eq : split.convByteOffset = split.rpByteSize := by
  rw [convByteOffset, h.convBegin]
  rfl

theorem bytes_add : split.rpByteSize + split.convByteSize = blockSize := by
  have hlt := h.rp_lt
  rw [rpByteSize, convByteSize, ← add_mul, h.convCount, Nat.add_sub_cancel' (le_of_lt hlt),
    h.mul_len]

end

end GlrcHmbrShardSplit.Proper

end Mlrc
