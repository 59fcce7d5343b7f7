import Mlrc.Data.Run
import Mathlib

/-!
# A port that several threads accept on

A call starts a thread that accepts the next connection on a shared port.  A connection says nothing
about the call it is meant for, and any of the waiting threads may get it.

* `portStep`   calls, connections and accepts as a transition system;
* `Port.Right`   every connection was served by a call it is meant for;
* `Rescheduled`   the same events with other threads chosen;
* `OneName`   no two different calls wait when a connection is accepted;
* `port_right_iff`   exactly then no choice of threads goes wrong.
-/

namespace Mlrc

open List Option

/-- threads that wait, the connections still to come, those that have come, and who served whom -/
structure Port (κ γ ν : Type*) where
  waiting : List κ := []
  expected : List ν := []
  queue : List γ := []
  served : List (κ × γ) := []

inductive PortEvent (κ γ : Type*) where
  /-- a call that a connection will follow -/
  | call (c : κ)
  /-- a call that none will follow -/
  | stray (c : κ)
  | connect (x : γ)
  /-- the waiting thread `i` gets the next connection -/
  | accept (i : ℕ)
deriving DecidableEq, Repr

section
variable {κ γ ν : Type*} [DecidableEq ν] (name : κ → ν) (dest : γ → ν)

def portStep : PortEvent κ γ → Port κ γ ν → Option (Port κ γ ν)
  | .call c, p => some { p with waiting := p.waiting ++ [c], expected := p.expected ++ [name c] }
  | .stray c, p => some { p with waiting := p.waiting ++ [c] }
  | .connect x, p =>
    if dest x ∈ p.expected then
      some { p with expected := p.expected.erase (dest x), queue := p.queue ++ [x] }
    else none
  | .accept i, p =>
    p.waiting[i]?.bind fun c => p.queue.head?.bind fun x =>
      some { p with
        waiting := p.waiting.eraseIdx i
        queue := p.queue.tail
        served := p.served ++ [(c, x)] }

/-- every connection was served by a call it is meant for -/
def Port.Right (p : Port κ γ ν) : Prop := ∀ q ∈ p.served, name q.1 = dest q.2

/-- all calls that wait at an accept have one name -/
def OneName : PortEvent κ γ → Port κ γ ν → Prop
  | .accept _, p => ∀ c ∈ p.waiting, ∀ d ∈ p.waiting, name c = name d
  | _, _ => True

instance (e : PortEvent κ γ) (p : Port κ γ ν) : Decidable (OneName name e p) :=
  match e with
  | .accept _ => inferInstanceAs (Decidable (∀ c ∈ p.waiting, ∀ d ∈ p.waiting, name c = name d))
  | .call _ => isTrue trivial
  | .stray _ => isTrue trivial
  | .connect _ => isTrue trivial

/-- the same events, up to the threads that get the connections -/
def Rescheduled : List (PortEvent κ γ) → List (PortEvent κ γ) → Prop :=
  Forall₂ fun e e' => e = e' ∨ ∃ i j, e = .accept i ∧ e' = .accept j

/-- no choice of threads serves a connection by a call it is not meant for -/
def AlwaysRight (es : List (PortEvent κ γ)) : Prop :=
  ∀ es', Rescheduled es es' → ∀ p, run (portStep name dest) es' {} = some p → p.Right name dest

end

theorem Rescheduled.refl {κ γ : Type*} (es : List (PortEvent κ γ)) : Rescheduled es es :=
  forall₂_same.mpr fun _ _ => .inl rfl

section
variable {κ γ ν : Type*} [DecidableEq ν] {name : κ → ν} {dest : γ → ν} {p q t : Port κ γ ν}
  {es : List (PortEvent κ γ)}

theorem portStep_accept {i : ℕ} (h : portStep name dest (.accept i) p = some q) :
    ∃ c x rest, p.waiting[i]? = some c ∧ p.queue = x :: rest ∧
      q = { p with waiting := p.waiting.eraseIdx i, queue := rest, served := p.served ++ [(c, x)] } := by
  obtain ⟨c, hc, h⟩ := bind_eq_some_iff.mp h
  obtain ⟨x, hx, h⟩ := bind_eq_some_iff.mp h
  obtain ⟨rest, hrest⟩ := head?_eq_some_iff.mp hx
  rw [some.injEq, hrest] at h
  exact ⟨c, x, rest, hc, hrest, h.symm⟩

theorem portStep_accept_of {i : ℕ} {c : κ} {x : γ} {rest : List γ} (hc : p.waiting[i]? = some c)
    (hx : p.queue = x :: rest) : portStep name dest (.accept i) p = some { p with
      waiting := p.waiting.eraseIdx i, queue := rest, served := p.served ++ [(c, x)] } := by
  show p.waiting[i]?.bind _ = _
  rw [hc, bind_some, hx]
  rfl

theorem portStep_connect {x : γ} (h : portStep name dest (.connect x) p = some q) :
    dest x ∈ p.expected ∧
      q = { p with expected := p.expected.erase (dest x), queue := p.queue ++ [x] } := by
  unfold portStep at h
  rw [ite_none_right_eq_some, some.injEq] at h
  exact ⟨h.1, h.2.symm⟩

theorem portStep_served {e : PortEvent κ γ} (h : portStep name dest e p = some q) :
    ∀ r ∈ p.served, r ∈ q.served := by
  intro r hr
  cases e with
  | call c =>
    cases h
    exact hr
  | stray c =>
    cases h
    exact hr
  | connect x =>
    obtain ⟨-, rfl⟩ := portStep_connect h
    exact hr
  | accept i =>
    obtain ⟨c, x, rest, -, -, rfl⟩ := portStep_accept h
    exact mem_append_left _ hr

/-! ## Counting -/

/-- every connection, come or still to come, has a waiting call of its name -/
def Port.Matched (name : κ → ν) (dest : γ → ν) (p : Port κ γ ν) : Prop :=
  ∀ v, p.expected.count v + (p.queue.map dest).count v ≤ (p.waiting.map name).count v

theorem count_map_eraseIdx {l : List κ} {i : ℕ} {c : κ} (h : l[i]? = some c) (v : ν) :
    (l.map name).count v = [name c].count v + ((l.eraseIdx i).map name).count v := by
  obtain ⟨hi, rfl⟩ := List.getElem?_eq_some_iff.mp h
  have hperm := (getElem_cons_eraseIdx_perm hi).map name
  rw [← hperm.count_eq v, ← count_append]
  rfl

theorem OneName.right {i : ℕ} {c : κ} {x : γ} {rest : List γ} (hone : OneName name (.accept i : PortEvent κ γ) p)
    (hm : p.Matched name dest) (hc : p.waiting[i]? = some c) (hx : p.queue = x :: rest) :
    name c = dest x := by
  have hcount := hm (dest x)
  rw [hx, map_cons, count_cons_self] at hcount
  have hpos : 0 < (p.waiting.map name).count (dest x) := by omega
  obtain ⟨d, hd, hname⟩ := mem_map.mp (count_pos_iff.mp hpos)
  rw [hone c (mem_of_getElem? hc) d hd, hname]

theorem portStep_right {e : PortEvent κ γ} (hm : p.Matched name dest) (hr : p.Right name dest)
    (hone : OneName name e p) (h : portStep name dest e p = some q) :
    q.Matched name dest ∧ q.Right name dest := by
  cases e with
  | call c =>
    cases h
    refine ⟨fun v => ?_, hr⟩
    have := hm v
    simp only [map_append, map_cons, map_nil, count_append]
    omega
  | stray c =>
    cases h
    refine ⟨fun v => ?_, hr⟩
    have := hm v
    simp only [map_append, count_append]
    omega
  | connect x =>
    obtain ⟨hx, rfl⟩ := portStep_connect h
    refine ⟨fun v => ?_, hr⟩
    have hv := hm v
    have hperm := (perm_cons_erase hx).count_eq v
    simp only [map_append, map_cons, map_nil, count_append, count_cons,
      count_nil] at hperm ⊢
    omega
  | accept i =>
    obtain ⟨c, x, rest, hc, hx, rfl⟩ := portStep_accept h
    have hname := hone.right hm hc hx
    refine ⟨fun v => ?_, fun r hr' => ?_⟩
    · have hv := hm v
      rw [hx, count_map_eraseIdx hc v, map_cons, ← singleton_append, count_append,
        hname] at hv
      show p.expected.count v + (rest.map dest).count v ≤ ((p.waiting.eraseIdx i).map name).count v
      omega
    · rcases mem_append.mp hr' with hr' | hr'
      · exact hr r hr'
      · rw [mem_singleton.mp hr']
        exact hname

/-! ## Other threads -/

/-- the same calls by name, and the same connections -/
structure Port.Alike (name : κ → ν) (p t : Port κ γ ν) : Prop where
  waiting : (p.waiting.map name).Perm (t.waiting.map name)
  expected : p.expected = t.expected
  queue : p.queue = t.queue

omit [DecidableEq ν] in
theorem Port.Alike.oneName {e e' : PortEvent κ γ} (h : p.Alike name t)
    (he : e = e' ∨ ∃ i j, e = .accept i ∧ e' = .accept j) (hone : OneName name e p) :
    OneName name e' t := by
  have hall : (∀ c ∈ p.waiting, ∀ d ∈ p.waiting, name c = name d) →
      ∀ c ∈ t.waiting, ∀ d ∈ t.waiting, name c = name d := by
    intro hp c hc d hd
    obtain ⟨c', hc', hcname⟩ := mem_map.mp (h.waiting.mem_iff.mpr (mem_map_of_mem hc))
    obtain ⟨d', hd', hdname⟩ := mem_map.mp (h.waiting.mem_iff.mpr (mem_map_of_mem hd))
    rw [← hcname, ← hdname]
    exact hp c' hc' d' hd'
  rcases he with rfl | ⟨i, j, rfl, rfl⟩
  · cases e with
    | accept i => exact hall hone
    | call c => trivial
    | stray c => trivial
    | connect x => trivial
  · exact hall hone

theorem Port.Alike.step {e e' : PortEvent κ γ} {p' t' : Port κ γ ν} (h : p.Alike name t)
    (he : e = e' ∨ ∃ i j, e = .accept i ∧ e' = .accept j) (hone : OneName name e p)
    (hp : portStep name dest e p = some p') (ht : portStep name dest e' t = some t') :
    p'.Alike name t' := by
  have haccept : ∀ i j, OneName name (.accept i : PortEvent κ γ) p →
      portStep name dest (.accept i) p = some p' → portStep name dest (.accept j) t = some t' →
      p'.Alike name t' := by
    intro i j hone hp ht
    obtain ⟨c, x, rest, hc, hx, rfl⟩ := portStep_accept hp
    obtain ⟨d, y, rest', hd, hy, rfl⟩ := portStep_accept ht
    have hname : name c = name d := by
      obtain ⟨d', hd', hname⟩ := mem_map.mp
        (h.waiting.mem_iff.mpr (mem_map_of_mem (mem_of_getElem? hd)))
      rw [← hname]
      exact hone c (mem_of_getElem? hc) d' hd'
    refine ⟨perm_iff_count.mpr fun v => ?_, h.expected, ?_⟩
    · have hcount := h.waiting.count_eq v
      rw [count_map_eraseIdx hc v, count_map_eraseIdx hd v, hname] at hcount
      exact Nat.add_left_cancel hcount
    · have hqueue := h.queue
      rw [hx, hy, cons.injEq] at hqueue
      exact hqueue.2
  rcases he with rfl | ⟨i, j, rfl, rfl⟩
  · cases e with
    | accept i => exact haccept i i hone hp ht
    | call c =>
      cases hp
      cases ht
      refine ⟨?_, congrArg (· ++ [name c]) h.expected, h.queue⟩
      rw [map_append, map_append]
      exact h.waiting.append_right _
    | stray c =>
      cases hp
      cases ht
      refine ⟨?_, h.expected, h.queue⟩
      rw [map_append, map_append]
      exact h.waiting.append_right _
    | connect x =>
      obtain ⟨-, rfl⟩ := portStep_connect hp
      obtain ⟨-, rfl⟩ := portStep_connect ht
      exact ⟨h.waiting, congrArg (List.erase · (dest x)) h.expected, congrArg (· ++ [x]) h.queue⟩
  · exact haccept i j hone hp ht

theorem right_of_along {es' : List (PortEvent κ γ)} {p' t' : Port κ γ ν}
    (hre : Rescheduled es es') (halong : Along (portStep name dest) (OneName name) es p)
    (hp : run (portStep name dest) es p = some p') (halike : p.Alike name t)
    (hm : t.Matched name dest) (hr : t.Right name dest)
    (ht : run (portStep name dest) es' t = some t') : t'.Right name dest := by
  induction hre generalizing p t with
  | nil =>
    cases ht
    exact hr
  | cons he _ ih =>
    obtain ⟨p₁, hp₁, hp⟩ := bind_eq_some_iff.mp hp
    obtain ⟨t₁, ht₁, ht⟩ := bind_eq_some_iff.mp ht
    obtain ⟨hm₁, hr₁⟩ := portStep_right hm hr (halike.oneName he halong.1) ht₁
    exact ih (halong.2 p₁ hp₁) hp (halike.step he halong.1 hp₁ ht₁) hm₁ hr₁ ht

theorem run_of_same_counts {p' : Port κ γ ν} (hp : run (portStep name dest) es p = some p')
    (hw : p.waiting.length = t.waiting.length) (he : p.expected = t.expected)
    (hq : p.queue = t.queue) :
    ∃ t', run (portStep name dest) es t = some t' ∧ ∀ r ∈ t.served, r ∈ t'.served := by
  induction es generalizing p t with
  | nil => exact ⟨t, rfl, fun r hr => hr⟩
  | cons e es ih =>
    obtain ⟨p₁, hp₁, hp⟩ := bind_eq_some_iff.mp hp
    obtain ⟨t₁, ht₁, hw₁, he₁, hq₁⟩ : ∃ t₁, portStep name dest e t = some t₁ ∧
        p₁.waiting.length = t₁.waiting.length ∧ p₁.expected = t₁.expected ∧ p₁.queue = t₁.queue := by
      cases e with
      | call c =>
        cases hp₁
        refine ⟨_, rfl, ?_, congrArg (· ++ [name c]) he, hq⟩
        rw [length_append, length_append, hw]
      | stray c =>
        cases hp₁
        refine ⟨_, rfl, ?_, he, hq⟩
        rw [length_append, length_append, hw]
      | connect x =>
        obtain ⟨hx, rfl⟩ := portStep_connect hp₁
        refine ⟨_, if_pos (he ▸ hx), hw, congrArg (List.erase · (dest x)) he,
          congrArg (· ++ [x]) hq⟩
      | accept i =>
        obtain ⟨c, x, rest, hc, hx, rfl⟩ := portStep_accept hp₁
        obtain ⟨hi, -⟩ := List.getElem?_eq_some_iff.mp hc
        have hi' : i < t.waiting.length := hw ▸ hi
        refine ⟨{ t with
          waiting := t.waiting.eraseIdx i
          queue := rest
          served := t.served ++ [(t.waiting[i], x)] }, ?_, ?_, he, rfl⟩
        · exact portStep_accept_of (getElem?_eq_getElem hi') (hq ▸ hx)
        · rw [length_eraseIdx_of_lt hi, length_eraseIdx_of_lt hi', hw]
    obtain ⟨t', ht', hserved⟩ := ih hp hw₁ he₁ hq₁
    refine ⟨t', ?_, fun r hr => hserved r (portStep_served ht₁ r hr)⟩
    rw [run, ht₁, bind_some, ht']

theorem exists_wrong_thread {p' : Port κ γ ν} (hp : run (portStep name dest) es p = some p')
    (hnot : ¬Along (portStep name dest) (OneName name) es p) :
    ∃ es' t', Rescheduled es es' ∧ run (portStep name dest) es' p = some t' ∧
      ¬t'.Right name dest := by
  induction es generalizing p with
  | nil => exact absurd trivial hnot
  | cons e es ih =>
    obtain ⟨p₁, hp₁, hp⟩ := bind_eq_some_iff.mp hp
    by_cases hone : OneName name e p
    · have hnot₁ : ¬Along (portStep name dest) (OneName name) es p₁ := by
        intro halong
        refine hnot ⟨hone, fun s hs => ?_⟩
        rw [hp₁, some.injEq] at hs
        rwa [← hs]
      obtain ⟨es', t', hre, hrun, hwrong⟩ := ih hp hnot₁
      refine ⟨e :: es', t', .cons (.inl rfl) hre, ?_, hwrong⟩
      rw [run, hp₁, bind_some, hrun]
    · cases e with
      | call c => exact absurd trivial hone
      | stray c => exact absurd trivial hone
      | connect x => exact absurd trivial hone
      | accept i =>
        obtain ⟨c, x, rest, hc, hx, rfl⟩ := portStep_accept hp₁
        -- one of two different names is not that of the connection
        obtain ⟨d, hd, hne⟩ : ∃ d ∈ p.waiting, name d ≠ dest x := by
          by_contra hall
          refine hone fun c hc d hd => ?_
          rw [not_exists] at hall
          have hname : ∀ d ∈ p.waiting, name d = dest x := by
            intro d hd
            by_contra hne
            exact hall d ⟨hd, hne⟩
          rw [hname c hc, hname d hd]
        obtain ⟨j, hj, rfl⟩ := mem_iff_getElem.mp hd
        obtain ⟨hi, -⟩ := List.getElem?_eq_some_iff.mp hc
        have hstep : portStep name dest (.accept j) p = some { p with
            waiting := p.waiting.eraseIdx j
            queue := rest
            served := p.served ++ [(p.waiting[j], x)] } :=
          portStep_accept_of (getElem?_eq_getElem hj) hx
        obtain ⟨t', ht', hserved⟩ := run_of_same_counts (t := { p with
            waiting := p.waiting.eraseIdx j
            queue := rest
            served := p.served ++ [(p.waiting[j], x)] }) hp
          (by rw [length_eraseIdx_of_lt hi, length_eraseIdx_of_lt hj]) rfl rfl
        refine ⟨.accept j :: es, t', .cons (.inr ⟨i, j, rfl, rfl⟩) (Rescheduled.refl es), ?_, ?_⟩
        · rw [run, hstep, bind_some, ht']
        · intro hright
          exact hne (hright _ (hserved _ (mem_append_right _ (mem_singleton_self _))))

theorem port_right_iff (hp : run (portStep name dest) es {} = some p) :
    AlwaysRight name dest es ↔ Along (portStep name dest) (OneName name) es {} := by
  constructor
  · intro hall
    by_contra hnot
    obtain ⟨es', t', hre, hrun, hwrong⟩ := exists_wrong_thread hp hnot
    exact hwrong (hall es' hre t' hrun)
  · intro halong es' hre t ht
    refine right_of_along hre halong hp ⟨.refl _, rfl, rfl⟩ (fun v => Nat.le_refl _) ?_ ht
    intro q hq
    cases hq

end

end Mlrc
