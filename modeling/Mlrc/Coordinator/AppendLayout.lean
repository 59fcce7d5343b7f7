import Mlrc.Coordinator.Upload
import Mlrc.Data.Interleave

/-!
# The layout of appends

The bytes of a stripe are dealt out to the data blocks in units of `UnitSize`.  An append gets one slice
in each block it touches; the round-robin loop adds up their sizes, and the slice of a parity covers the
positions that the append touches in any block.

* `dataSlices_eq`   the slices found by the loop;
* `paritySlice_covers`   the slice of a parity;
* `AppendLayout`   what the plans of one append say;
* `append_layout_iff`   when the plans of successive appends tile the blocks of the stripe.
-/

namespace Mlrc

open Option Function Nat List

variable {x size i b p : ℕ} {plan : AppendStripeDataPlacement}
  {plans : List AppendStripeDataPlacement} {planss : List (List AppendStripeDataPlacement)}
  {draws : List ℕ}

/-! ## The slices of the data blocks -/

/-- the slice of block `b` for the bytes from `o` to `t` -/
def sliceUpTo (U k o t b : ℕ) : Option (ℕ × ℤ) :=
  let filled := Nat.count (column U k · = b)
  if b < k ∧ filled o < filled t then some (filled t - filled o, (filled o : ℤ)) else none

section
variable {U k o s t : ℕ}

theorem sliceUpTo_add (hU : 0 < U) (hk : 0 < k) (hot : o ≤ t) {sub : ℕ} (hpos : 0 < sub)
    (hsub : sub ≤ U - t % U) :
    sliceUpTo U k o (t + sub) = update (sliceUpTo U k o t) (column U k t)
      (some (match sliceUpTo U k o t (column U k t) with
        | none => (sub, (place U k t : ℤ))
        | some (size, offset) => (size + sub, offset))) := by
  funext b
  have hmono : Nat.count (column U k · = b) o ≤ Nat.count (column U k · = b) t :=
    count_monotone _ hot
  by_cases hb : b = column U k t
  · subst hb
    have hlt : column U k t < k := column_lt U hk t
    have hself := count_column_self hU hk t
    rw [update_self]
    unfold sliceUpTo
    simp only [count_column_add hU hsub, if_true]
    rw [if_pos ⟨hlt, by omega⟩]
    by_cases hold : Nat.count (column U k · = column U k t) o <
        Nat.count (column U k · = column U k t) t
    · rw [if_pos ⟨hlt, hold⟩]
      exact congrArg some (Prod.ext (by simp only; omega) rfl)
    · -- the first piece of the block starts where the earlier bytes end
      rw [if_neg fun h => hold h.2]
      refine congrArg some (Prod.ext ?_ ?_)
      · simp only
        omega
      · simp only
        omega
  · rw [update_of_ne hb]
    unfold sliceUpTo
    simp only [count_column_add hU hsub]
    rw [if_neg (Ne.symm hb), add_zero]

theorem subSlice_eq (hs : 0 < s) (hot : o ≤ t) (hstart : t = o ∨ t % U = 0) :
    (if o + s - t = s ∧ o % U ≠ 0 then min (U - o % U) s else min U (o + s - t)) =
      min (U - t % U) (o + s - t) := by
  rcases Nat.eq_or_lt_of_le hot with rfl | hlt
  · rw [Nat.add_sub_cancel_left]
    split_ifs with h
    · rfl
    · rw [show o % U = 0 by tauto, Nat.sub_zero]
  · rw [if_neg (by omega)]
    rcases hstart with rfl | h0
    · omega
    · rw [h0, Nat.sub_zero]

theorem dataSlices_eq (hU : 0 < U) (hk : 0 < k) (hs : 0 < s) (fuel cur : ℕ) (hot : o ≤ t)
    (hts : t ≤ o + s) (hfuel : o + s - t ≤ fuel) (hstart : t = o ∨ t = o + s ∨ t % U = 0)
    (hcur : t < o + s → cur = column U k t) :
    dataSlices U k o s fuel (o + s - t) t cur (sliceUpTo U k o t) = sliceUpTo U k o (o + s) := by
  induction fuel generalizing t cur with
  | zero =>
    rw [show t = o + s by omega]
    rfl
  | succ fuel ih =>
    unfold dataSlices
    by_cases hend : o + s - t = 0
    · rw [if_pos hend, show t = o + s by omega]
    · have hstart' : t = o ∨ t % U = 0 := by omega
      have hmod := mod_lt t hU
      rw [if_neg hend]
      simp only [subSlice_eq hs hot hstart']
      rw [hcur (by omega)]
      set sub := min (U - t % U) (o + s - t) with hsub
      have hstep := sliceUpTo_add hU hk hot (show 0 < sub by omega) (by omega)
      -- a piece that does not end the append ends its unit
      have hunit : t + sub < o + s → (t + sub) / U = t / U + 1 ∧ (t + sub) % U = 0 := by
        intro hlt
        have hnext : t + sub = U * (t / U + 1) := by
          have := div_add_mod t U
          rw [Nat.mul_add_one]
          omega
        rw [hnext]
        exact ⟨Nat.mul_div_cancel_left _ hU, mul_mod_right U _⟩
      rw [show o + s - t - sub = o + s - (t + sub) by omega]
      have hrest := ih (t := t + sub) ((column U k t + 1) % k) (by omega) (by omega) (by omega)
        (by
          by_cases hlt : t + sub < o + s
          · exact .inr (.inr (hunit hlt).2)
          · omega)
        (fun hlt => by
          unfold column
          rw [(hunit hlt).1, mod_add_mod])
      rw [hstep] at hrest
      exact hrest

end

/-! ## The slice of a parity -/

section
variable {U k o s B : ℕ}

theorem lastRow_le (hdvd : U ∣ B) (hs : 0 < s) (hfit : o + s ≤ k * B) :
    U * ((o + s - 1) / (k * U)) + U ≤ B := by
  obtain ⟨c, rfl⟩ := hdvd
  have hlt : (o + s - 1) / (k * U) < c := by
    refine Nat.div_lt_of_lt_mul ?_
    rw [mul_assoc]
    omega
  calc U * ((o + s - 1) / (k * U)) + U = U * ((o + s - 1) / (k * U) + 1) := (mul_succ ..).symm
    _ ≤ U * c := Nat.mul_le_mul_left U hlt

theorem place_mem_rows (hU : 0 < U) (hox : o ≤ x) (hxs : x < o + s) :
    U * (o / (k * U)) ≤ place U k x ∧ place U k x < U * ((o + s - 1) / (k * U)) + U := by
  have hrow := place_row (k := k) hU x
  have hfirst : U * (o / (k * U)) ≤ U * (x / (k * U)) :=
    Nat.mul_le_mul_left U (Nat.div_le_div_right hox)
  have hlast : U * (x / (k * U)) ≤ U * ((o + s - 1) / (k * U)) :=
    Nat.mul_le_mul_left U (Nat.div_le_div_right (by omega))
  omega

theorem rows_before_last (hs : 0 < s) :
    o / (U * k) * U + ((o + s - 1) / (U * k) + 1 - o / (U * k) - 1) * U =
      U * ((o + s - 1) / (k * U)) := by
  have hle : o / (U * k) ≤ (o + s - 1) / (U * k) := Nat.div_le_div_right (by omega)
  rw [← add_mul, mul_comm k U, show o / (U * k) + ((o + s - 1) / (U * k) + 1 - o / (U * k) -
    1) = (o + s - 1) / (U * k) by omega, mul_comm]

theorem rows_end (hs : 0 < s) : o / (U * k) * U + ((o + s - 1) / (U * k) + 1 - o / (U * k)) * U =
      U * ((o + s - 1) / (k * U)) + U := by
  have hle : o / (U * k) ≤ (o + s - 1) / (U * k) := Nat.div_le_div_right (by omega)
  rw [← rows_before_last hs, add_assoc, ← succ_mul, succ_eq_add_one,
    Nat.sub_add_cancel (by omega)]

theorem place_of_unit (hox : o ≤ x) (hunit : x / U = o / U) :
    place U k x = U * (o / (k * U)) + o % U + (x - o) := by
  have hx := div_add_mod x U
  have ho := div_add_mod o U
  rw [hunit] at hx
  unfold place
  rw [mul_comm k U, ← Nat.div_div_eq_div_mul, ← Nat.div_div_eq_div_mul, hunit]
  omega

theorem place_of_lastRow (hU : 0 < U) {e : ℕ} (hxe : x ≤ e) (hlast : e % (k * U) < U) :
    place U k x < U * (e / (k * U)) + e % (k * U) + 1 := by
  have hle : x / (k * U) ≤ e / (k * U) := Nat.div_le_div_right hxe
  rcases Nat.eq_or_lt_of_le hle with heq | hlt
  · have hx := div_add_mod x (k * U)
    have he := div_add_mod e (k * U)
    rw [heq] at hx
    have hmod : x % U = x % (k * U) := by
      rw [← mod_mod_of_dvd x (dvd_mul_left U k), mod_eq_of_lt]
      omega
    unfold place
    rw [heq, hmod]
    omega
  · have hrow := (place_row (k := k) hU x).2
    have hmul : U * (x / (k * U) + 1) ≤ U * (e / (k * U)) := Nat.mul_le_mul_left U hlt
    rw [mul_succ] at hmul
    omega

theorem paritySlice_covers {mode : AppendMode} (hmode : mode = .UNILRC_MODE ∨ mode = .CACHED_MODE)
    (hU : 0 < U) (hdvd : U ∣ B) (hs : 0 < s) (hfit : o + s ≤ k * B) :
    ∃ size offset : ℕ, paritySlice mode U k o s = some (size, (offset : ℤ)) ∧
      (∀ x, o ≤ x → x < o + s → offset ≤ place U k x ∧ place U k x < offset + size) ∧
      offset + size ≤ B := by
  have hbefore := rows_before_last (U := U) (k := k) (o := o) hs
  have hend := rows_end (U := U) (k := k) (o := o) hs
  have hstart : o / (U * k) * U = U * (o / (k * U)) := by rw [mul_comm, mul_comm U k]
  have hB := lastRow_le hdvd hs hfit
  -- whole rows, the choice that both modes share
  have hrows : (∀ x, o ≤ x → x < o + s → o / (U * k) * U ≤ place U k x ∧ place U k x <
        o / (U * k) * U + ((o + s - 1) / (U * k) + 1 - o / (U * k)) * U) ∧
      o / (U * k) * U + ((o + s - 1) / (U * k) + 1 - o / (U * k)) * U ≤ B := by
    rw [hend, hstart]
    exact ⟨fun x hox hxs => place_mem_rows hU hox hxs, hB⟩
  rcases hmode with rfl | rfl
  · unfold paritySlice
    simp only
    by_cases htail : 1 < (o + s - 1) / (U * k) + 1 - o / (U * k) ∧ (o + s - 1) % (U * k) + 1 < U
    · rw [if_pos htail]
      have hunits : (o + s - 1) / U + 1 - o / U ≠ 1 := by
        intro hone
        have hsame : (o + s - 1) / U = o / U := by
          have : o / U ≤ (o + s - 1) / U := Nat.div_le_div_right (by omega)
          omega
        rw [← Nat.div_div_eq_div_mul, ← Nat.div_div_eq_div_mul, hsame] at htail
        omega
      simp only [if_neg hunits]
      refine ⟨_, _, rfl, fun x hox hxs => ⟨(hrows.1 x hox hxs).1, ?_⟩, ?_⟩
      · have hlast := place_of_lastRow (k := k) hU (show x ≤ o + s - 1 by omega)
          (by rw [mul_comm k U]; omega)
        rw [← hbefore, mul_comm k U] at hlast
        omega
      · rw [← hbefore] at hB
        omega
    · rw [if_neg htail]
      by_cases hone : (o + s - 1) / U + 1 - o / U = 1
      · simp only [if_pos hone]
        have hsame : ∀ x, o ≤ x → x < o + s → x / U = o / U := by
          intro x hox hxs
          have hlow : o / U ≤ x / U := Nat.div_le_div_right hox
          have hhigh : x / U ≤ (o + s - 1) / U := Nat.div_le_div_right (by omega)
          omega
        refine ⟨_, _, rfl, fun x hox hxs => ?_, ?_⟩
        · rw [hstart, place_of_unit hox (hsame x hox hxs)]
          omega
        · -- the last byte is the last position of the slice
          have hlast := place_of_unit (k := k) (show o ≤ o + s - 1 by omega)
            (hsame (o + s - 1) (by omega) (by omega))
          have hrow := (hrows.1 (o + s - 1) (by omega) (by omega)).2
          rw [hend, hlast] at hrow
          rw [hstart]
          omega
      · simp only [if_neg hone]
        exact ⟨_, _, rfl, hrows⟩
  · exact ⟨_, _, rfl, hrows⟩

end

/-! ## The blocks of a plan -/

/-- the blocks of one kind in group `i` -/
def groupInterval (z size i : ℕ) : List ℕ :=
  range' (i * size / z) ((i + 1) * size / z - i * size / z)

/-- the blocks in the plan of group `i`: data blocks, global parities, local parity -/
def appendBlockIds (cfg : SysConfig) (i : ℕ) : List ℕ :=
  groupInterval cfg.z cfg.k i ++ (groupInterval cfg.z cfg.r i).map (cfg.k + ·) ++
    (groupInterval cfg.z cfg.z i).map (cfg.k + cfg.r + ·)

theorem groupInterval_mul {z : ℕ} (hz : 0 < z) (m i : ℕ) :
    groupInterval z (z * m) i = range' (i * m) m := by
  unfold groupInterval
  rw [mul_left_comm i, mul_left_comm (i + 1), Nat.mul_div_cancel_left _ hz,
    Nat.mul_div_cancel_left _ hz, succ_mul, Nat.add_sub_cancel_left]

theorem flatMap_groupInterval {z : ℕ} (hz : 0 < z) (hdvd : z ∣ size) :
    (range z).flatMap (groupInterval z size) = range size := by
  obtain ⟨m, rfl⟩ := hdvd
  have hall : ∀ c, (range c).flatMap (groupInterval z (z * m)) = range (c * m) := by
    intro c
    induction c with
    | zero => rw [zero_mul]; rfl
    | succ c ih =>
      rw [range_succ, flatMap_append, ih, flatMap_singleton, groupInterval_mul hz,
        succ_mul, range_add, range'_eq_map_range]
  exact hall z

section
variable {cfg : SysConfig}

theorem appendBlockIds_perm (hz : 0 < cfg.z) (hk : cfg.z ∣ cfg.k) (hr : cfg.z ∣ cfg.r) :
    ((range cfg.z).flatMap (appendBlockIds cfg)).Perm (range cfg.n) := by
  have hdata := flatMap_groupInterval hz hk
  have hglobal := flatMap_groupInterval hz hr
  have hlocal := flatMap_groupInterval hz (Nat.dvd_refl cfg.z)
  unfold appendBlockIds
  refine (flatMap_append_perm _ _ _).symm.trans ?_
  refine ((flatMap_append_perm _ _ _).symm.append_right _).trans ?_
  rw [← map_flatMap, ← map_flatMap, hdata, hglobal, hlocal, ← range_add,
    ← range_add]
  rfl

theorem appendBlockIds_lt (hz : 0 < cfg.z) (hk : cfg.z ∣ cfg.k) (hr : cfg.z ∣ cfg.r)
    (hi : i < cfg.z) (hb : b ∈ appendBlockIds cfg i) : b < cfg.n := by
  rw [← mem_range, ← (appendBlockIds_perm hz hk hr).mem_iff]
  exact mem_flatMap.mpr ⟨i, mem_range.mpr hi, hb⟩

/-- the plan of group `i` lists the slices of its blocks -/
structure AppendPlanOf (cfg : SysConfig) (sizes : ℕ → Option (ℕ × ℤ)) (paritySize i : ℕ)
    (plan : AppendStripeDataPlacement) : Prop where
  slices : Forall₂ (fun b slice => slice.blockId = b ∧ sizes b = some (slice.size, slice.offset))
    ((appendBlockIds cfg i).filter fun b => (sizes b).isSome) plan.slices
  size_eq : plan.appendSize = getClusterAppendSize cfg.k cfg.r cfg.z sizes i paritySize

theorem AppendPlanOf.ids_eq {sizes : ℕ → Option (ℕ × ℤ)} (h : AppendPlanOf cfg sizes p i plan) :
    plan.slices.map Slice.blockId = (appendBlockIds cfg i).filter fun b => (sizes b).isSome := by
  rw [← forall₂_eq_eq_eq, forall₂_map_left_iff]
  exact h.slices.flip.imp fun slice b hb => hb.1

theorem AppendPlanOf.sizes_eq {sizes : ℕ → Option (ℕ × ℤ)} (h : AppendPlanOf cfg sizes p i plan) :
    plan.slices.map Slice.size =
      ((appendBlockIds cfg i).filter fun b => (sizes b).isSome).map fun b =>
        ((sizes b).map Prod.fst).getD 0 := by
  rw [← forall₂_eq_eq_eq, forall₂_map_left_iff, forall₂_map_right_iff]
  exact h.slices.flip.imp fun slice b hb => by rw [hb.2]; rfl

theorem AppendInRange.of_plans {stripe : Stripe} {o s : ℕ}
    (h : generateAppendPlan cfg stripe o s = some plans) : AppendInRange cfg o s := by
  unfold generateAppendPlan at h
  rw [ite_none_left_eq_some, not_not] at h
  exact h.1

/-- a stripe whose blocks are numbered and whose groups are not empty -/
structure Plannable (cfg : SysConfig) (stripe : Stripe) : Prop where
  block : ∀ b < cfg.n, ∃ block, stripe.blocks[b]? = some block ∧ block.blockId = b
  first : ∀ i < cfg.z, ∃ block, stripe.firstBlock i = some block

theorem generateAppendPlan_plans {stripe : Stripe} {o s : ℕ} {parity : ℕ × ℤ}
    (hstripe : Plannable cfg stripe) (hz : 0 < cfg.z) (hk : cfg.z ∣ cfg.k) (hr : cfg.z ∣ cfg.r)
    (hrange : AppendInRange cfg o s)
    (hparity : paritySlice cfg.appendMode cfg.unitSize cfg.k o s = some parity) :
    ∃ plans, generateAppendPlan cfg stripe o s = some plans ∧
      Forall₂ (AppendPlanOf cfg (blockToSliceSizes cfg o s parity) parity.1)
        (range cfg.z) plans := by
  unfold generateAppendPlan
  rw [if_neg (not_not.mpr hrange), hparity]
  simp only
  refine exists_mapM fun i hi => ?_
  obtain ⟨first, hfirst⟩ := hstripe.first i (mem_range.mp hi)
  have hids : ∀ b ∈ appendBlockIds cfg i, b < cfg.n :=
    fun b => appendBlockIds_lt hz hk hr (mem_range.mp hi)
  obtain ⟨slices, hslices, hall⟩ := exists_mapM
    (f := fun b => do
      let block ← stripe.blocks[b]?
      let sliceInfo ← blockToSliceSizes cfg o s parity b
      some (addBlockToAppendPlan block sliceInfo))
    (P := fun b (slice : Slice) => slice.blockId = b ∧
      blockToSliceSizes cfg o s parity b = some (slice.size, slice.offset))
    (l := (appendBlockIds cfg i).filter fun b => (blockToSliceSizes cfg o s parity b).isSome)
    (fun b hb => by
      obtain ⟨hmem, hsome⟩ := mem_filter.mp hb
      obtain ⟨block, hblock, hid⟩ := hstripe.block b (hids b hmem)
      obtain ⟨info, hinfo⟩ := isSome_iff_exists.mp hsome
      refine ⟨addBlockToAppendPlan block info, ?_, hid, hinfo⟩
      rw [hblock, hinfo]
      rfl)
  rw [hfirst]
  exact ⟨_, congrArg (Option.bind · _) hslices, hall, rfl⟩

end

/-! ## The plans of one append -/

/-- the slices of block `b` in the plans of an append -/
def blockSlices (plans : List AppendStripeDataPlacement) (b : ℕ) : List Slice :=
  (plans.flatMap (·.slices)).filter (·.blockId = b)

/-- what the plans of an append of the bytes from `o` to `o + s` say: a data block that the append
touches has one slice, of exactly the positions of its bytes; a parity has one slice, which covers all
positions; and each plan announces the bytes of its slices -/
structure AppendLayout (cfg : SysConfig) (o s : ℕ) (plans : List AppendStripeDataPlacement) :
    Prop where
  data : ∀ b < cfg.k, (∃ x, o ≤ x ∧ x < o + s ∧ column cfg.unitSize cfg.k x = b) →
    ∃ slice, blockSlices plans b = [slice] ∧
      ∀ p : ℤ, slice.offset ≤ p ∧ p < slice.offset + slice.size ↔
        ∃ x, o ≤ x ∧ x < o + s ∧ column cfg.unitSize cfg.k x = b ∧ place cfg.unitSize cfg.k x = p
  untouched : ∀ b < cfg.k, (¬ ∃ x, o ≤ x ∧ x < o + s ∧ column cfg.unitSize cfg.k x = b) →
    blockSlices plans b = []
  parity : ∀ b, cfg.k ≤ b → b < cfg.n → ∃ slice, blockSlices plans b = [slice] ∧
    (∀ x, o ≤ x → x < o + s → slice.offset ≤ (place cfg.unitSize cfg.k x : ℤ) ∧
      (place cfg.unitSize cfg.k x : ℤ) < slice.offset + slice.size) ∧
    0 ≤ slice.offset ∧ slice.offset + slice.size ≤ cfg.blockSize
  size : ∀ plan ∈ plans, plan.appendSize = (plan.slices.map Slice.size).sum

theorem sum_map_filter_of_zero {α : Type*} {p : α → Bool} {f : α → ℕ}
    (h : ∀ a, p a = false → f a = 0) (l : List α) : ((l.filter p).map f).sum = (l.map f).sum := by
  induction l with
  | nil => rfl
  | cons a l ih =>
    rw [map_cons, sum_cons, ← ih]
    cases hp : p a with
    | true => rw [filter_cons_of_pos hp, map_cons, sum_cons]
    | false => rw [filter_cons_of_neg (by simp [hp]), h a hp, zero_add]

section
variable {cfg : SysConfig} {sizes : ℕ → Option (ℕ × ℤ)} {parity : ℕ × ℤ}

theorem blockSlices_plans (hz : 0 < cfg.z) (hk : cfg.z ∣ cfg.k) (hr : cfg.z ∣ cfg.r)
    (h : Forall₂ (AppendPlanOf cfg sizes p) (range cfg.z) plans) (hb : b < cfg.n) :
    sizes b = none ∧ blockSlices plans b = [] ∨
      ∃ slice, blockSlices plans b = [slice] ∧ sizes b = some (slice.size, slice.offset) := by
  -- all slices, in the order of the plans
  have hall : Forall₂
      (fun b (slice : Slice) => slice.blockId = b ∧ sizes b = some (slice.size, slice.offset))
      ((range cfg.z).flatMap fun i => (appendBlockIds cfg i).filter fun b => (sizes b).isSome)
      (plans.flatMap (·.slices)) :=
    rel_flatMap h fun {i plan} hplan => hplan.slices
  have hids : (((range cfg.z).flatMap fun i => (appendBlockIds cfg i).filter fun b =>
      (sizes b).isSome).filter fun c => c = b) = if (sizes b).isSome then [b] else [] := by
    have hperm := appendBlockIds_perm hz hk hr
    have hone : ((range cfg.z).flatMap (appendBlockIds cfg)).filter (fun c => c = b) = [b] := by
      rw [filter_eq, count_eq_one_of_mem (hperm.nodup_iff.mpr nodup_range)
        (hperm.mem_iff.mpr (mem_range.mpr hb))]
      rfl
    rw [← filter_flatMap, filter_comm, hone, filter_singleton,
      cond_eq_ite]
  have hslices : Forall₂
      (fun b (slice : Slice) => slice.blockId = b ∧ sizes b = some (slice.size, slice.offset))
      (if (sizes b).isSome then [b] else []) (blockSlices plans b) := by
    rw [← hids]
    refine rel_filter (fun {c slice} hc => ?_) hall
    show decide (c = b) = true ↔ decide (slice.blockId = b) = true
    rw [hc.1]
  cases hb : sizes b with
  | none =>
    rw [hb, isSome_none, if_neg (by decide), forall₂_nil_left_iff] at hslices
    exact .inl ⟨rfl, hslices⟩
  | some info =>
    rw [hb, isSome_some, if_pos rfl, forall₂_cons_left_iff] at hslices
    obtain ⟨slice, rest, hslice, hrest, heq⟩ := hslices
    rw [forall₂_nil_left_iff.mp hrest] at heq
    exact .inr ⟨slice, heq, hb ▸ hslice.2⟩

theorem appendPlanOf_size (hz : 0 < cfg.z) (hk : cfg.z ∣ cfg.k) (hr : cfg.z ∣ cfg.r)
    (hparity : ∀ b, cfg.k ≤ b → b < cfg.n → sizes b = some parity) (hi : i < cfg.z)
    (h : AppendPlanOf cfg sizes parity.1 i plan) :
    plan.appendSize = (plan.slices.map Slice.size).sum := by
  have hzero : ∀ b, (sizes b).isSome = false → ((sizes b).map Prod.fst).getD 0 = 0 := by
    intro b hb
    rw [isSome_eq_false_iff, isNone_iff_eq_none] at hb
    rw [hb]
    rfl
  have hconst : ∀ l : List ℕ, (∀ b ∈ l, cfg.k ≤ b ∧ b < cfg.n) →
      (l.map fun b => ((sizes b).map Prod.fst).getD 0).sum = l.length * parity.1 := by
    intro l hl
    rw [map_congr_left (g := fun _ => parity.1) fun b hb => by
      rw [hparity b (hl b hb).1 (hl b hb).2]; rfl]
    rw [map_const', sum_replicate_nat]
  have hbound : ∀ b ∈ appendBlockIds cfg i, b < cfg.n := fun b => appendBlockIds_lt hz hk hr hi
  rw [h.size_eq, h.sizes_eq, sum_map_filter_of_zero hzero]
  unfold appendBlockIds at hbound ⊢
  rw [map_append, map_append, List.sum_append, List.sum_append, add_assoc]
  refine congrArg (_ + ·) ?_
  rw [hconst _ fun b hb => ?_, hconst _ fun b hb => ?_]
  · obtain ⟨alpha, hr⟩ := hr
    have hone := groupInterval_mul hz 1 i
    rw [mul_one] at hone
    rw [length_map, length_map, hone, hr, groupInterval_mul hz, length_range',
      length_range', ← Nat.mul_add_one, mul_left_comm, Nat.mul_div_cancel_left _ hz]
    ring
  · obtain ⟨l, -, rfl⟩ := List.mem_map.mp hb
    exact ⟨by omega, hbound _ (mem_append_right _ hb)⟩
  · obtain ⟨l, -, rfl⟩ := List.mem_map.mp hb
    exact ⟨by omega, hbound _ (mem_append_left _ (mem_append_right _ hb))⟩

end

/-- the slice of data block `b` runs from the bytes appended before to those appended now -/
def GrowsTo (cfg : SysConfig) (o s b : ℕ) (slices : List Slice) : Prop :=
  let filled := Nat.count (column cfg.unitSize cfg.k · = b)
  slices = [] ∧ filled (o + s) = filled o ∨
    ∃ slice, slices = [slice] ∧ 0 < slice.size ∧ slice.offset = filled o ∧
      slice.offset + slice.size = filled (o + s)

section
variable {cfg : SysConfig} {stripe : Stripe} {o s : ℕ}

theorem blockToSliceSizes_data (hU : 0 < cfg.unitSize) (hk : 0 < cfg.k) (hs : 0 < s) (parity : ℕ × ℤ)
    (hb : b < cfg.k) :
    blockToSliceSizes cfg o s parity b = sliceUpTo cfg.unitSize cfg.k o (o + s) b := by
  have hempty : (fun _ => none) = sliceUpTo cfg.unitSize cfg.k o o := by
    funext b
    exact (if_neg fun h => lt_irrefl _ h.2).symm
  have hloop := dataSlices_eq (t := o) hU hk hs s (column cfg.unitSize cfg.k o) le_rfl
    (Nat.le_add_right o s) (by omega) (.inl rfl) fun _ => rfl
  rw [Nat.add_sub_cancel_left] at hloop
  unfold blockToSliceSizes
  rw [if_neg (by omega), hempty]
  exact congrFun hloop b

theorem blockToSliceSizes_parity (o s : ℕ) (parity : ℕ × ℤ) (hkb : cfg.k ≤ b)
    (hb : b < cfg.n) : blockToSliceSizes cfg o s parity b = some parity := if_pos ⟨hkb, hb⟩

theorem growsTo_of_slice (hb : b < cfg.k) {slices : List Slice}
    (h : sliceUpTo cfg.unitSize cfg.k o (o + s) b = none ∧ slices = [] ∨ ∃ slice, slices = [slice] ∧
        sliceUpTo cfg.unitSize cfg.k o (o + s) b = some (slice.size, slice.offset)) :
    GrowsTo cfg o s b slices := by
  have hmono : Nat.count (column cfg.unitSize cfg.k · = b) o ≤
      Nat.count (column cfg.unitSize cfg.k · = b) (o + s) :=
    count_monotone _ (Nat.le_add_right o s)
  unfold sliceUpTo at h
  rcases h with ⟨hnone, hnil⟩ | ⟨slice, hone, hslice⟩
  · refine .inl ⟨hnil, ?_⟩
    by_contra hne
    exact absurd (ite_eq_right_iff.mp hnone ⟨hb, by omega⟩) (some_ne_none _)
  · rw [ite_none_right_eq_some, some.injEq, Prod.mk.injEq] at hslice
    obtain ⟨⟨-, hlt⟩, hsize, hoffset⟩ := hslice
    exact .inr ⟨slice, hone, by omega, hoffset.symm, by omega⟩

theorem touched_iff (hU : 0 < cfg.unitSize) (hk : 0 < cfg.k) (b : ℕ) :
    (∃ x, o ≤ x ∧ x < o + s ∧ column cfg.unitSize cfg.k x = b) ↔
      Nat.count (column cfg.unitSize cfg.k · = b) o <
        Nat.count (column cfg.unitSize cfg.k · = b) (o + s) := by
  constructor
  · rintro ⟨x, hox, hxs, hx⟩
    have h := (mem_column_interval hU hk b o s _).mpr ⟨x, hox, hxs, hx, rfl⟩
    omega
  · intro hlt
    obtain ⟨x, hox, hxs, hx, -⟩ := (mem_column_interval hU hk b o s _).mp ⟨le_rfl, hlt⟩
    exact ⟨x, hox, hxs, hx⟩

theorem GrowsTo.positions (hU : 0 < cfg.unitSize) (hk : 0 < cfg.k) {slice : Slice}
    (hoffset : slice.offset = Nat.count (column cfg.unitSize cfg.k · = b) o)
    (hend : slice.offset + slice.size = Nat.count (column cfg.unitSize cfg.k · = b) (o + s)) (p : ℤ) :
    slice.offset ≤ p ∧ p < slice.offset + slice.size ↔
      ∃ x, o ≤ x ∧ x < o + s ∧ column cfg.unitSize cfg.k x = b ∧ place cfg.unitSize cfg.k x = p := by
  constructor
  · rintro ⟨hle, hlt⟩
    obtain ⟨q, rfl⟩ := Int.eq_ofNat_of_zero_le (show 0 ≤ p by omega)
    obtain ⟨x, hox, hxs, hx, hq⟩ := (mem_column_interval hU hk b o s q).mp ⟨by omega, by omega⟩
    exact ⟨x, hox, hxs, hx, by rw [hq]⟩
  · rintro ⟨x, hox, hxs, hx, rfl⟩
    have h := (mem_column_interval hU hk b o s _).mpr ⟨x, hox, hxs, hx, rfl⟩
    omega

theorem generateAppendPlan_layout (hstripe : Plannable cfg stripe) (hk : cfg.z ∣ cfg.k)
    (hr : cfg.z ∣ cfg.r) (hunit : cfg.unitSize ∣ cfg.blockSize)
    (hmode : cfg.appendMode = .UNILRC_MODE ∨ cfg.appendMode = .CACHED_MODE) (hs : 0 < s)
    (hfit : o + s ≤ cfg.k * cfg.blockSize) (hrange : AppendInRange cfg o s) :
    ∃ plans, generateAppendPlan cfg stripe o s = some plans ∧ AppendLayout cfg o s plans ∧
      ∀ b < cfg.k, GrowsTo cfg o s b (blockSlices plans b) := by
  have hprod : 0 < cfg.k * cfg.blockSize := by omega
  have hk0 : 0 < cfg.k := Nat.pos_of_mul_pos_right hprod
  have hU : 0 < cfg.unitSize := pos_of_dvd_of_pos hunit (Nat.pos_of_mul_pos_left hprod)
  have hz : 0 < cfg.z := pos_of_dvd_of_pos hk hk0
  obtain ⟨size, offset, hparity, hcover, hB⟩ := paritySlice_covers hmode hU hunit hs hfit
  obtain ⟨plans, hplans, hall⟩ := generateAppendPlan_plans hstripe hz hk hr hrange hparity
  have hgrows : ∀ b < cfg.k, GrowsTo cfg o s b (blockSlices plans b) := by
    intro b hb
    have hslices := blockSlices_plans hz hk hr hall (show b < cfg.n by unfold SysConfig.n; omega)
    rw [blockToSliceSizes_data hU hk0 hs _ hb] at hslices
    exact growsTo_of_slice hb hslices
  refine ⟨plans, hplans, ⟨fun b hb htouched => ?_, fun b hb htouched => ?_, fun b hkb hb => ?_,
    fun plan hplan => ?_⟩, hgrows⟩
  · rcases hgrows b hb with ⟨-, hsame⟩ | ⟨slice, hone, -, hoffset, hend⟩
    · rw [touched_iff hU hk0] at htouched
      omega
    · exact ⟨slice, hone, GrowsTo.positions hU hk0 hoffset hend⟩
  · rcases hgrows b hb with ⟨hnil, -⟩ | ⟨slice, -, hpos, hoffset, hend⟩
    · exact hnil
    · rw [touched_iff hU hk0] at htouched
      omega
  · rcases blockSlices_plans hz hk hr hall hb with ⟨hnone, -⟩ | ⟨slice, hone, hslice⟩
    · rw [blockToSliceSizes_parity o s _ hkb hb] at hnone
      cases hnone
    · rw [blockToSliceSizes_parity o s _ hkb hb, some.injEq, Prod.mk.injEq] at hslice
      obtain ⟨hsize, hoffset⟩ := hslice
      refine ⟨slice, hone, fun x hox hxs => ?_, by omega, by omega⟩
      have hx := hcover x hox hxs
      omega
  · obtain ⟨i, hi, hof⟩ := forall₂_mem_right hall hplan
    exact appendPlanOf_size hz hk hr (fun b => blockToSliceSizes_parity o s _) (mem_range.mp hi) hof

/-! ## Successive appends -/

/-- the plans of successive appends of the given sizes to one stripe -/
def appendPlans (cfg : SysConfig) (stripe : Stripe) (sizes : List ℕ) :
    Option (List (List AppendStripeDataPlacement)) :=
  (range sizes.length).mapM fun j =>
    generateAppendPlan cfg stripe (sizes.take j).sum (sizes.getD j 0)

/-- the end of the last slice of block `b` in the plans of earlier appends -/
def sliceEnd (planss : List (List AppendStripeDataPlacement)) (b : ℕ) : ℤ :=
  ((planss.flatMap fun plans => blockSlices plans b).getLast?.map fun slice =>
    slice.offset + (slice.size : ℤ)).getD 0

theorem sliceEnd_append (hgrows : GrowsTo cfg o s b (blockSlices plans b))
    (h : sliceEnd planss b = Nat.count (column cfg.unitSize cfg.k · = b) o) :
    sliceEnd (planss ++ [plans]) b = Nat.count (column cfg.unitSize cfg.k · = b) (o + s) := by
  unfold sliceEnd at h ⊢
  rw [flatMap_append, flatMap_singleton]
  rcases hgrows with ⟨hnil, hsame⟩ | ⟨slice, hone, -, -, hend⟩
  · rw [hnil, append_nil, hsame, h]
  · rw [hone, getLast?_concat]
    exact hend

theorem sum_take_getD (sizes : List ℕ) (j : ℕ) :
    (sizes.take (j + 1)).sum = (sizes.take j).sum + sizes.getD j 0 := by
  rw [take_add_one, List.sum_append, getD_eq_getElem?_getD]
  cases sizes[j]? <;> simp

theorem sliceEnd_take {sizes : List ℕ} (hlen : planss.length = sizes.length)
    (hgrows : ∀ j < sizes.length, GrowsTo cfg (sizes.take j).sum (sizes.getD j 0) b
      (blockSlices (planss.getD j []) b)) {j : ℕ} (hj : j ≤ sizes.length) :
    sliceEnd (planss.take j) b =
      Nat.count (column cfg.unitSize cfg.k · = b) (sizes.take j).sum := by
  induction j with
  | zero =>
    rw [take_zero, take_zero, sum_nil, count_zero]
    rfl
  | succ j ih =>
    have hlt : j < planss.length := by omega
    have hplans := hgrows j (by omega)
    rw [getD_eq_getElem _ _ hlt] at hplans
    rw [take_succ_eq_append_getElem hlt, sum_take_getD]
    exact sliceEnd_append hplans (ih (by omega))

theorem Placed.plannable {topo : Topology} {s s' : Coordinator} {stripeId : ℕ} {key : String}
    {group : ℕ → ℤ} {bs : List Block} (h : Placed cfg topo group s stripeId key bs s' stripe)
    (hfirst : ∀ i < cfg.z, ∃ b < cfg.n, group b = i) : Plannable cfg stripe where
  block := fun b hb => by
    obtain ⟨block, -, hblock, hid⟩ := h.exists_block hb
    exact ⟨block, hblock, hid⟩
  first := fun i hi => by
    obtain ⟨b, hb, hbi⟩ := hfirst i hi
    have hgroup : stripe.group i = (range cfg.n).filter fun c => group c = i := by
      unfold Stripe.group
      rw [h.stripe_eq]
      exact bucket_collect _ _ _
    have hmem : b ∈ stripe.group i := by
      rw [hgroup, mem_filter, mem_range]
      exact ⟨hb, decide_eq_true hbi⟩
    obtain ⟨c, hc⟩ := isSome_iff_exists.mp
      (isSome_head?.mpr (ne_nil_of_mem hmem))
    have hcn : c < cfg.n := by
      have := mem_of_head? hc
      rw [hgroup, mem_filter, mem_range] at this
      exact this.1
    obtain ⟨block, -, hblock, -⟩ := h.exists_block hcn
    refine ⟨block, ?_⟩
    unfold Stripe.firstBlock
    rw [hc]
    exact hblock

theorem unilrc_plannable (hcode : cfg.codeType = .UniLRC) (hzk : cfg.z ∣ cfg.k) (hzr : cfg.z ∣ cfg.r)
    {topo : Topology} {s s' : Coordinator} {stripeId : ℕ} {key : String} {rest : List ℕ}
    (hplaced : initializeUnilrcAndAzurelrcStripePlacement cfg topo s stripeId key draws =
      some (s', stripe, rest)) : Plannable cfg stripe := by
  obtain ⟨group, bs, hgroup, hp⟩ := initializeUnilrcAndAzurelrcStripePlacement_placed hplaced
  unfold map2group at hgroup
  simp only [hcode, ite_none_left_eq_some, some.injEq] at hgroup
  refine hp.plannable fun i hi => ?_
  obtain ⟨b, hb, hbi⟩ := (unilrc_covers hzk hzr).onto i hi
  exact ⟨b, hb, by rw [← hgroup.2]; exact hbi⟩

end

/-- **Main result.** Appends that fit one stripe of UniLRC get plans such that each append has the
layout above and every slice of a data block starts where the last one of that block ended, exactly when
the `int` arithmetic of every append stays in range. -/
theorem append_layout_iff {cfg : SysConfig} {alpha : ℕ} (hcode : cfg.codeType = .UniLRC)
    (hk : cfg.k = alpha * cfg.z * (cfg.z - 1)) (hr : cfg.r = alpha * cfg.z)
    (hunit : cfg.unitSize ∣ cfg.blockSize)
    (hmode : cfg.appendMode = .UNILRC_MODE ∨ cfg.appendMode = .CACHED_MODE)
    {topo : Topology} {s s' : Coordinator} {stripeId : ℕ} {key : String} {draws rest : List ℕ}
    {stripe : Stripe}
    (hplaced : initializeUnilrcAndAzurelrcStripePlacement cfg topo s stripeId key draws =
      some (s', stripe, rest))
    (sizes : List ℕ) (hpos : ∀ size ∈ sizes, 0 < size)
    (hfit : sizes.sum ≤ cfg.k * cfg.blockSize) :
    (∃ planss, appendPlans cfg stripe sizes = some planss ∧ planss.length = sizes.length ∧
      ∀ j < sizes.length,
        AppendLayout cfg (sizes.take j).sum (sizes.getD j 0) (planss.getD j []) ∧
        ∀ b < cfg.k, ∀ slice ∈ blockSlices (planss.getD j []) b,
          slice.offset = sliceEnd (planss.take j) b) ↔
      ∀ j < sizes.length, AppendInRange cfg (sizes.take j).sum (sizes.getD j 0) := by
  have hzk : cfg.z ∣ cfg.k := by
    rw [hk]
    exact Dvd.dvd.mul_right (dvd_mul_left _ _) _
  have hzr : cfg.z ∣ cfg.r := by
    rw [hr]
    exact dvd_mul_left _ _
  have hstripe : Plannable cfg stripe := unilrc_plannable hcode hzk hzr hplaced
  constructor
  · rintro ⟨planss, hplanss, -, -⟩ j hj
    obtain ⟨plans, -, hplans⟩ := forall₂_mem_left (mapM_option_some hplanss) (mem_range.mpr hj)
    exact .of_plans hplans
  intro hrange
  obtain ⟨planss, hplanss, hall⟩ := exists_mapM (l := range sizes.length)
    (f := fun j => generateAppendPlan cfg stripe (sizes.take j).sum (sizes.getD j 0))
    (P := fun j plans => AppendLayout cfg (sizes.take j).sum (sizes.getD j 0) plans ∧
      ∀ b < cfg.k, GrowsTo cfg (sizes.take j).sum (sizes.getD j 0) b (blockSlices plans b))
    (fun j hj => by
      rw [mem_range] at hj
      refine generateAppendPlan_layout hstripe hzk hzr hunit hmode ?_ ?_ (hrange j hj)
      · rw [getD_eq_getElem _ _ hj]
        exact hpos _ (getElem_mem hj)
      · have hsum := congrArg List.sum (take_append_drop (j + 1) sizes)
        rw [List.sum_append, sum_take_getD] at hsum
        omega)
  have hlen : planss.length = sizes.length := by rw [← hall.length_eq, length_range]
  have hget : ∀ j < sizes.length, AppendLayout cfg (sizes.take j).sum (sizes.getD j 0)
      (planss.getD j []) ∧ ∀ b < cfg.k, GrowsTo cfg (sizes.take j).sum (sizes.getD j 0) b
        (blockSlices (planss.getD j []) b) := by
    intro j hj
    have := forall₂_getD hall (j := j) (by rwa [length_range]) 0 []
    rwa [getD_eq_getElem _ _ (by rwa [length_range]), getElem_range] at this
  refine ⟨planss, hplanss, hlen, fun j hj => ⟨(hget j hj).1, fun b hb slice hslice => ?_⟩⟩
  rw [sliceEnd_take hlen (fun j hj => (hget j hj).2 b hb) (le_of_lt hj)]
  rcases (hget j hj).2 b hb with ⟨hnil, -⟩ | ⟨slice', hone, -, hoffset, -⟩
  · rw [hnil] at hslice
    cases hslice
  · rw [hone, mem_singleton] at hslice
    rw [hslice, hoffset]

theorem append_layout_three :
    ∃ s' stripe rest planss, initializeUnilrcAndAzurelrcStripePlacement unilrcConfig clustersOfFour {}
        0 "c" [0, 0, 1, 1, 2, 2] = some (s', stripe, rest) ∧
      appendPlans unilrcConfig stripe [1, 2, 1] = some planss ∧
      ∀ j < 3, AppendLayout unilrcConfig ([1, 2, 1].take j).sum ([1, 2, 1].getD j 0)
        (planss.getD j []) := by
  have hsome : (initializeUnilrcAndAzurelrcStripePlacement unilrcConfig clustersOfFour {} 0 "c"
      [0, 0, 1, 1, 2, 2]).isSome = true := by decide +kernel
  obtain ⟨⟨s', stripe, rest⟩, hplaced⟩ := isSome_iff_exists.mp hsome
  have hk : unilrcConfig.k = 1 * unilrcConfig.z * (unilrcConfig.z - 1) := rfl
  obtain ⟨planss, hplanss, -, hall⟩ := (append_layout_iff rfl hk rfl (Nat.one_dvd _) (.inl rfl) hplaced
    [1, 2, 1] (by decide) (by decide)).mpr (by decide +kernel)
  exact ⟨s', stripe, rest, planss, hplaced, hplanss, fun j hj => (hall j hj).1⟩

/-- in a stripe of 3 GiB `remain_size` is negative, and the first byte cannot be appended -/
theorem wide_append_aborts :
    validateConfig wideConfig = true ∧ 1 ≤ wideConfig.k * wideConfig.blockSize ∧
    ∃ s' stripe rest, initializeUnilrcAndAzurelrcStripePlacement wideConfig clustersOfFour {}
        0 "c" [0, 0, 1, 1, 2, 2] = some (s', stripe, rest) ∧
      ((wideConfig.k * wideConfig.blockSize : ℤ) - 0).bmod (2 ^ 32) = -1073741824 ∧
      appendPlans wideConfig stripe [1] = none ∧
      uploadAppendValue wideConfig clustersOfFour {} "c" 1 [0, 0, 1, 1, 2, 2] (fun _ => true) = none := by
  have hsome : (initializeUnilrcAndAzurelrcStripePlacement wideConfig clustersOfFour {} 0 "c"
      [0, 0, 1, 1, 2, 2]).isSome = true := by decide +kernel
  obtain ⟨⟨s', stripe, rest⟩, hplaced⟩ := isSome_iff_exists.mp hsome
  refine ⟨by decide, by decide, s', stripe, rest, hplaced, by decide, ?_, by decide +kernel⟩
  cases hplanss : appendPlans wideConfig stripe [1] with
  | none => rfl
  | some planss =>
    obtain ⟨plans, -, hplans⟩ := forall₂_mem_left (mapM_option_some hplanss) (show 0 ∈ range 1 by decide)
    exact absurd (AppendInRange.of_plans hplans) (by decide)

end Mlrc
