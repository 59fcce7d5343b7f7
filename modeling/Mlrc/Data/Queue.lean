import Mathlib.Data.List.Basic

/-!
# Bounded queues that can be closed

A queue between two threads.  A push waits for room and a pop for an item; both stop waiting when the
queue is closed.  A closed queue takes nothing more, and can be emptied.

* `push_cases`, `pop_cases`   what an operation that does not wait has done;
* `push_eq_none`, `pop_eq_none`   when an operation waits.
-/

namespace Mlrc

structure BoundedQueue (α : Type*) where
  items : List α := []
  closed : Bool := false

namespace BoundedQueue
variable {α : Type*}

/-- `none` while there is no room; a closed queue drops the item -/
def push (capacity : ℕ) (x : α) (q : BoundedQueue α) : Option (BoundedQueue α) :=
  if q.closed then some q
  else if q.items.length < capacity then some { q with items := q.items ++ [x] }
  else none

/-- `none` while there is no item; the end of a closed queue is the answer `none` -/
def pop (q : BoundedQueue α) : Option (Option α × BoundedQueue α) :=
  match q.items with
  | x :: rest => some (some x, { q with items := rest })
  | [] => if q.closed then some (none, q) else none

def close (q : BoundedQueue α) : BoundedQueue α := { q with closed := true }

variable {capacity : ℕ} {x : α} {q q' : BoundedQueue α}

theorem push_cases (h : q.push capacity x = some q') :
    q.closed = true ∧ q' = q ∨ q.closed = false ∧ q' = { q with items := q.items ++ [x] } := by
  unfold push at h
  split at h
  · next hclosed =>
    cases h
    exact .inl ⟨hclosed, rfl⟩
  · next hopen =>
    split at h
    · cases h
      exact .inr ⟨Bool.eq_false_iff.mpr hopen, rfl⟩
    · cases h

theorem push_eq_none : q.push capacity x = none ↔ q.closed = false ∧ capacity ≤ q.items.length := by
  unfold push
  split
  · next hclosed => simp [hclosed]
  · next hopen =>
    rw [Bool.not_eq_true] at hopen
    split
    · next hroom => simp [hroom]
    · next hroom => simp [hopen, Nat.le_of_not_lt hroom]

theorem pop_cases {y : Option α} (h : q.pop = some (y, q')) :
    (∃ x, y = some x ∧ q.items = x :: q'.items ∧ q'.closed = q.closed) ∨
      y = none ∧ q.items = [] ∧ q.closed = true ∧ q' = q := by
  unfold pop at h
  split at h
  · next x rest hitems =>
    cases h
    exact .inl ⟨x, rfl, hitems, rfl⟩
  · next hitems =>
    split at h
    · next hclosed =>
      cases h
      exact .inr ⟨rfl, hitems, hclosed, rfl⟩
    · cases h

theorem pop_eq_none : q.pop = none ↔ q.items = [] ∧ q.closed = false := by
  unfold pop
  split
  · next hitems => simp [hitems]
  · next hitems => cases q.closed <;> simp [hitems]

end BoundedQueue

end Mlrc
