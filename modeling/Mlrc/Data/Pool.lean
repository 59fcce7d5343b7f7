import Mathlib

/-!
# A pool of resources with several clients

Clients reserve resources of a shared pool one by one and give resources back all at once when they
leave.  A client may give back fewer than it holds.

* `Pool.Act`   what one client can do to the pool;
* `Pool.Ok`   what clients hold is reserved, and no two hold the same resource;
* `Pool.Act.ok`   every action keeps this;
* `release_clears_iff`   a leaving client leaves nothing behind exactly when it gives back all it holds;
* `Pool.Alone`   the reserved resources are those of an earlier moment and those of one client;
* `Pool.Act.alone`   the actions of that client keep this until it leaves.
-/

namespace Mlrc

open Function

/-- the reserved resources, and those each client in the pool holds -/
@[ext]
structure Pool (ι ρ : Type*) where
  busy : Set ρ
  held : ι → Set ρ

namespace Pool
variable {ι ρ : Type*} [DecidableEq ι]

def reserve (p : Pool ι ρ) (i : ι) (x : ρ) : Pool ι ρ where
  busy := insert x p.busy
  held := update p.held i (insert x (p.held i))

/-- client `i` leaves and gives back the resources in `back` -/
def release (p : Pool ι ρ) (i : ι) (back : Set ρ) : Pool ι ρ where
  busy := p.busy \ back
  held := update p.held i ∅

/-- the actions of client `i`; the flag says whether it leaves -/
inductive Act (i : ι) (p : Pool ι ρ) : Bool → Pool ι ρ → Prop
  | idle : Act i p false p
  | reserve (x : ρ) (hx : x ∉ p.busy) : Act i p false (p.reserve i x)
  | release (back : Set ρ) (hback : back ⊆ p.held i) : Act i p true (p.release i back)

structure Ok (p : Pool ι ρ) : Prop where
  held_busy : ∀ i, p.held i ⊆ p.busy
  disjoint : ∀ i j, i ≠ j → Disjoint (p.held i) (p.held j)

section
variable {p q : Pool ι ρ} {i : ι}

/-- client `i` comes to hold `mine` -/
theorem Ok.hold (hp : p.Ok) {busy mine : Set ρ} (hmine : mine ⊆ busy)
    (hothers : ∀ j ≠ i, p.held j ⊆ busy ∧ Disjoint mine (p.held j)) :
    Ok ⟨busy, update p.held i mine⟩ := by
  constructor
  · exact (forall_update_iff p.held fun _ s => s ⊆ busy).mpr ⟨hmine, fun j hj => (hothers j hj).1⟩
  · intro j l hjl
    show Disjoint (update p.held i mine j) (update p.held i mine l)
    by_cases hj : j = i
    · subst hj
      rw [update_self, update_of_ne hjl.symm]
      exact (hothers l hjl.symm).2
    · rw [update_of_ne hj]
      by_cases hl : l = i
      · subst hl
        rw [update_self]
        exact (hothers j hj).2.symm
      · rw [update_of_ne hl]
        exact hp.disjoint j l hjl

theorem Ok.reserve (hp : p.Ok) {x : ρ} (hx : x ∉ p.busy) : (p.reserve i x).Ok := by
  refine hp.hold (Set.insert_subset_insert (hp.held_busy i)) fun j hj => ⟨?_, ?_⟩
  · exact (hp.held_busy j).trans (Set.subset_insert x _)
  · rw [Set.disjoint_insert_left]
    exact ⟨fun h => hx (hp.held_busy j h), hp.disjoint i j hj.symm⟩

theorem Ok.release (hp : p.Ok) {back : Set ρ} (hback : back ⊆ p.held i) : (p.release i back).Ok := by
  refine hp.hold (Set.empty_subset _) fun j hj => ⟨?_, Set.empty_disjoint _⟩
  exact Set.subset_sdiff.mpr ⟨hp.held_busy j, (hp.disjoint j i hj).mono_right hback⟩

theorem Act.ok {leaves : Bool} (h : Act i p leaves q) (hp : p.Ok) : q.Ok := by
  cases h with
  | idle => exact hp
  | reserve x hx => exact hp.reserve hx
  | release back hback => exact hp.release hback

theorem release_clears_iff (hp : p.Ok) (i : ι) (back : Set ρ) :
    Disjoint (p.held i) (p.release i back).busy ↔ p.held i ⊆ back := by
  rw [Set.disjoint_left]
  constructor
  · intro h x hx
    by_contra hb
    exact h hx ⟨hp.held_busy i hx, hb⟩
  · intro h x hx hbusy
    exact hbusy.2 (h hx)

/-! ## One client alone -/

/-- the reserved resources are those of `base` and those of client `i` -/
structure Alone (base : Set ρ) (i : ι) (p : Pool ι ρ) : Prop where
  busy : p.busy = base ∪ p.held i
  disjoint : Disjoint base (p.held i)

theorem Alone.reserve {base : Set ρ} (h : Alone base i p) {x : ρ} (hx : x ∉ p.busy) :
    Alone base i (p.reserve i x) := by
  have hheld : (p.reserve i x).held i = insert x (p.held i) := update_self ..
  constructor
  · rw [hheld, Set.union_insert, ← h.busy]
    rfl
  · rw [hheld, Set.disjoint_insert_right]
    refine ⟨fun hb => hx ?_, h.disjoint⟩
    rw [h.busy]
    exact .inl hb

theorem Act.alone {base : Set ρ} (h : Act i p false q) (hp : Alone base i p) : Alone base i q := by
  cases h with
  | idle => exact hp
  | reserve x hx => exact hp.reserve hx

theorem Alone.release {base back : Set ρ} (h : Alone base i p) (hback : back = p.held i) :
    (p.release i back).busy = base := by
  show p.busy \ back = base
  rw [h.busy, hback, Set.union_sdiff_right]
  exact h.disjoint.sdiff_eq_left

end
end Pool

end Mlrc
