import Mathlib.Data.List.Basic

/-!
# Runs of a transition system

A system is a partial function from events and states to states; an event that a state does not
allow gives `none`.  A run is a list of events.

* `run_invariant`   what every step keeps, every run keeps;
* `run_along`   the same for runs whose steps all meet a condition;
* `run_not_along`   a step that breaks the condition leaves a trace to the end of the run;
* `exists_run_to_end` with bounded work, a run goes on until nothing more can happen;
* `throughout_iff`   when a property holds in every state of a run.
-/

namespace Mlrc

open Option

variable {ε σ : Type*} (step : ε → σ → Option σ)

def run : List ε → σ → Option σ
  | [], s => some s
  | e :: es, s => (step e s).bind (run es)

/-- the events are possible one after the other, and each meets `P` in the state before it -/
def Along (P : ε → σ → Prop) : List ε → σ → Prop
  | [], _ => True
  | e :: es, s => P e s ∧ ∀ s', step e s = some s' → Along P es s'

/-- a run can be checked step by step -/
instance decidableAlong (P : ε → σ → Prop) [∀ e s, Decidable (P e s)] :
    ∀ es s, Decidable (Along step P es s)
  | [], _ => isTrue trivial
  | e :: es, s =>
    match h : step e s with
    | none => decidable_of_iff (P e s)
        ⟨fun hP => ⟨hP, fun s' h' => by rw [h] at h'; cases h'⟩, fun hall => hall.1⟩
    | some s' =>
      have := decidableAlong P es s'
      decidable_of_iff (P e s ∧ Along step P es s')
        ⟨fun hP => ⟨hP.1, fun t ht => by rw [h] at ht; cases ht; exact hP.2⟩,
          fun hall => ⟨hall.1, hall.2 s' h⟩⟩

/-- every state of a run is in `Q` -/
def Throughout (Q : σ → Prop) (es : List ε) (s : σ) : Prop :=
  ∀ es', es' <+: es → ∀ s', run step es' s = some s' → Q s'

variable {step}

theorem run_along {P : ε → σ → Prop} {I : σ → Prop}
    (hstep : ∀ e s s', I s → P e s → step e s = some s' → I s') {es : List ε} {s s' : σ} (hI : I s)
    (halong : Along step P es s) (h : run step es s = some s') : I s' := by
  induction es generalizing s with
  | nil =>
    cases h
    exact hI
  | cons e es ih =>
    obtain ⟨t, ht, hrun⟩ := bind_eq_some_iff.mp h
    exact ih (hstep e s t hI halong.1 ht) (halong.2 t ht) hrun

theorem along_of_forall {P : ε → σ → Prop} (h : ∀ e s, P e s) (es : List ε) (s : σ) :
    Along step P es s := by
  induction es generalizing s with
  | nil => trivial
  | cons e es ih => exact ⟨h e s, fun s' _ => ih s'⟩

theorem along_of_mem {P : ε → Prop} {es : List ε} (h : ∀ e ∈ es, P e) (s : σ) :
    Along step (fun e _ => P e) es s := by
  induction es generalizing s with
  | nil => trivial
  | cons e es ih =>
    exact ⟨h e List.mem_cons_self, fun s' _ => ih (fun a ha => h a (List.mem_cons_of_mem _ ha)) s'⟩

theorem run_invariant {I : σ → Prop} (hstep : ∀ e s s', I s → step e s = some s' → I s')
    {es : List ε} {s s' : σ} (hI : I s) (h : run step es s = some s') : I s' :=
  run_along (fun e s s' hI (_ : True) => hstep e s s' hI) hI (along_of_forall (fun _ _ => trivial) es s) h

theorem run_not_along {P : ε → σ → Prop} {I J : σ → Prop}
    (hI : ∀ e s s', I s → step e s = some s' → I s')
    (hbreak : ∀ e s s', I s → ¬P e s → step e s = some s' → J s')
    (hkeep : ∀ e s s', I s → J s → step e s = some s' → J s') {es : List ε} {s s' : σ} (hs : I s)
    (hnot : ¬Along step P es s) (h : run step es s = some s') : J s' := by
  induction es generalizing s with
  | nil => exact absurd trivial hnot
  | cons e es ih =>
    obtain ⟨t, ht, hrun⟩ := bind_eq_some_iff.mp h
    have hIt := hI e s t hs ht
    by_cases hP : P e s
    · apply ih hIt _ hrun
      intro halong
      apply hnot
      refine ⟨hP, fun t' ht' => ?_⟩
      rw [ht, some.injEq] at ht'
      rwa [← ht']
    · have hJ : I t ∧ J t := ⟨hIt, hbreak e s t hs hP ht⟩
      exact (run_invariant (I := fun s => I s ∧ J s)
        (fun e s s' h hs => ⟨hI e s s' h.1 hs, hkeep e s s' h.1 h.2 hs⟩) hJ hrun).2

theorem exists_run_to_end {P : ε → Prop} {I : σ → Prop} (work : σ → ℕ) {bound : ℕ}
    (hstep : ∀ e s s', I s → P e → step e s = some s' → I s' ∧ work s < work s')
    (hbound : ∀ s, I s → work s ≤ bound) {s : σ} (hs : I s) :
    ∃ es s', (∀ e ∈ es, P e) ∧ run step es s = some s' ∧ ∀ e, P e → step e s' = none := by
  induction h : bound - work s using Nat.strongRecOn generalizing s with
  | ind left ih =>
    by_cases hend : ∀ e, P e → step e s = none
    · exact ⟨[], s, by simp, rfl, hend⟩
    · push Not at hend
      obtain ⟨e, he, hsome⟩ := hend
      obtain ⟨t, ht⟩ := ne_none_iff_exists'.mp hsome
      obtain ⟨hI, hlt⟩ := hstep e s t hs he ht
      obtain ⟨es, s', hes, hrun, hend⟩ := ih _ (by have := hbound t hI; omega) hI rfl
      refine ⟨e :: es, s', ?_, ?_, hend⟩
      · exact List.forall_mem_cons.mpr ⟨he, hes⟩
      · rw [run, ht]
        exact hrun

theorem throughout_iff {P : ε → σ → Prop} {I Q : σ → Prop} (hQ : ∀ s, I s → Q s)
    (hstep : ∀ e s s', I s → P e s → step e s = some s' → I s')
    (hbreak : ∀ e s s', I s → ¬P e s → step e s = some s' → ¬Q s') {es : List ε} {s s' : σ}
    (hs : I s) (h : run step es s = some s') : Throughout step Q es s ↔ Along step P es s := by
  induction es generalizing s with
  | nil =>
    refine iff_of_true (fun es' hes' t ht => ?_) trivial
    rw [List.prefix_nil] at hes'
    subst hes'
    cases ht
    exact hQ s hs
  | cons e es ih =>
    obtain ⟨t, ht, hrun⟩ := bind_eq_some_iff.mp h
    constructor
    · intro hall
      have hP : P e s := by
        by_contra hP
        exact hbreak e s t hs hP ht (hall [e] ⟨es, rfl⟩ t (by rw [run, ht]; rfl))
      refine ⟨hP, fun t' ht' => ?_⟩
      rw [ht, some.injEq] at ht'
      subst ht'
      refine (ih (hstep e s t hs hP ht) hrun).mp fun es' hes' u hu => ?_
      exact hall (e :: es') (List.cons_prefix_cons.mpr ⟨rfl, hes'⟩) u (by rw [run, ht]; exact hu)
    · intro halong es' hes' u hu
      cases es' with
      | nil =>
        cases hu
        exact hQ s hs
      | cons e' es' =>
        obtain ⟨rfl, hrest⟩ := List.cons_prefix_cons.mp hes'
        rw [run, ht] at hu
        exact (ih (hstep e' s t hs halong.1 ht) hrun).mpr (halong.2 t ht) es' hrest u hu

end Mlrc
