import Mlrc.Data.Files
import Mlrc.Data.Run

/-!
# The commit barrier of a recovered block

The ranges of a recovered block are written to one temporary file by several handlers.  The last one
that arrives at the barrier publishes the file, without holding the lock; the others wait for its
verdict, at most 120 seconds.

* `enterCommit`   the section under the lock up to the wait or the publication;
* `leaveCommit`   the section behind them;
* `commitStep`   one step of the calls for one key;
* `CommitMove`   what a step can do;
* `BarrierInv`   at most one state ever counts all parts, and then no part is to come;
* `CommitEffect`   what the handlers see of a step.
-/

namespace Mlrc

open Option Function

variable {call : CommitCall} {e : CommitEvent} {s' : CommitSystem} {pc : CommitPc}

/-! ## The barrier -/

structure HybridRangeCommitState where
  arrived : ℕ := 0
  waiters : ℕ := 0
  allPartsOk : Bool := true
  commitDone : Bool := false
  commitOk : Bool := false
deriving DecidableEq, Repr

/-- the arguments that the calls for one block share -/
structure CommitCall where
  key : String
  expectedParts : ℕ
  tempPath : String
  finalPath : String
deriving DecidableEq, Repr

/-- where a call of `coordinate_hybrid_range_commit` is; `state` is the state it holds -/
inductive CommitPc where
  | idle
  | wait (state : ℕ)
  | publish (state : ℕ) (shouldCommit : Bool)
  | syncDir (state : ℕ)
  | removeTemp (state : ℕ)
  | settle (state : ℕ) (publishOk : Bool)
  | returned (ok : Bool)
deriving DecidableEq, Repr

structure CommitSystem where
  /-- `g_hybrid_commits` at the key of the calls -/
  slot : Option ℕ := none
  /-- the states that were made, also those that the map has no more -/
  state : ℕ → HybridRangeCommitState := fun _ => {}
  nextState : ℕ := 0
  call : ℕ → CommitPc := fun _ => .idle
  files : Files String UInt8

/-- the state at the key, made if there is none -/
def findState (s : CommitSystem) : ℕ × CommitSystem :=
  match s.slot with
  | some ref => (ref, s)
  | none => (s.nextState, { s with
      slot := some s.nextState
      state := update s.state s.nextState {}
      nextState := s.nextState + 1 })

def arrive (ref : ℕ) (thisPartOk : Bool) (s : CommitSystem) : CommitSystem :=
  { s with state := update s.state ref { s.state ref with
      arrived := (s.state ref).arrived + 1
      waiters := (s.state ref).waiters + 1
      allPartsOk := (s.state ref).allPartsOk && thisPartOk } }

def setCall (c : ℕ) (pc : CommitPc) (s : CommitSystem) : CommitSystem :=
  { s with call := update s.call c pc }

def conclude (ref : ℕ) (ok : Bool) (s : CommitSystem) : CommitSystem :=
  { s with state := update s.state ref { s.state ref with
      commitOk := ok, commitDone := true } }

/-- the verdict is read; the last call that leaves takes the state out of the map -/
def leaveCommit (c ref : ℕ) (s : CommitSystem) : CommitSystem :=
  { s with
    state := update s.state ref { s.state ref with
      waiters := (s.state ref).waiters - 1 }
    slot := if (s.state ref).waiters - 1 = 0 ∧ (s.state ref).commitDone then none else s.slot
    call := update s.call c (.returned (s.state ref).commitOk) }

/-- a part is counted in the state at the key -/
def joinCommit (thisPartOk : Bool) (s : CommitSystem) : CommitSystem :=
  arrive (findState s).1 thisPartOk (findState s).2

def enterCommit (call : CommitCall) (c : ℕ) (thisPartOk : Bool) (s : CommitSystem) :
    Option CommitSystem :=
  if s.call c ≠ .idle ∨ call.expectedParts ≤ c then none
  else if call.key = "" ∨ call.expectedParts ≤ 1 then some (setCall c (.returned thisPartOk) s)
  else
    let ref := (findState s).1
    let s := joinCommit thisPartOk s
    if (s.state ref).arrived = call.expectedParts then
      some (setCall c (.publish ref (s.state ref).allPartsOk) s)
    -- `wait_for` returns at once when the verdict is there
    else if (s.state ref).commitDone then some (leaveCommit c ref (setCall c (.wait ref) s))
    else some (setCall c (.wait ref) s)

inductive CommitEvent where
  | enter (c : ℕ) (thisPartOk : Bool)
  | publish (c : ℕ) (renameOk : Bool)
  | syncDir (c : ℕ) (ok : Bool)
  | removeTemp (c : ℕ) (ok : Bool)
  | settle (c : ℕ)
  | wake (c : ℕ)
  | timeout (c : ℕ)
deriving DecidableEq, Repr

/-- one step of the calls for one key, which are numbered below `expectedParts` -/
def commitStep (call : CommitCall) : CommitEvent → CommitSystem → Option CommitSystem
  | .enter c thisPartOk, s => enterCommit call c thisPartOk s
  | .publish c renameOk, s =>
    match s.call c with
    | .publish ref shouldCommit =>
      if shouldCommit ∧ renameOk then
        (s.files.rename call.tempPath call.finalPath).map fun files =>
          setCall c (.syncDir ref) { s with files }
      else some (setCall c (.removeTemp ref) s)
    | _ => none
  | .syncDir c ok, s =>
    match s.call c with
    | .syncDir ref => some (setCall c (if ok then .settle ref true else .removeTemp ref) s)
    | _ => none
  | .removeTemp c ok, s =>
    match s.call c with
    | .removeTemp ref => some (setCall c (.settle ref false)
        { s with files := if ok then s.files.remove call.tempPath else s.files })
    | _ => none
  | .settle c, s =>
    match s.call c with
    | .settle ref publishOk => some (leaveCommit c ref (conclude ref publishOk s))
    | _ => none
  | .wake c, s =>
    match s.call c with
    | .wait ref => if (s.state ref).commitDone then some (leaveCommit c ref s) else none
    | _ => none
  | .timeout c, s =>
    match s.call c with
    | .wait ref =>
      if (s.state ref).commitDone then none else some (leaveCommit c ref (conclude ref false s))
    | _ => none

/-! ## The moves of a call -/

/-- what a step does when the barrier is in use -/
inductive CommitMove (call : CommitCall) (s : CommitSystem) : CommitEvent → CommitSystem → Prop
  | last {c : ℕ} {ok : Bool} (hidle : s.call c = .idle) (hc : c < call.expectedParts)
    (harr : ((joinCommit ok s).state (findState s).1).arrived = call.expectedParts) :
    CommitMove call s (.enter c ok) (setCall c
      (.publish (findState s).1 ((joinCommit ok s).state (findState s).1).allPartsOk) (joinCommit ok s))
  | late {c : ℕ} {ok : Bool} (hidle : s.call c = .idle) (hc : c < call.expectedParts)
    (hdone : ((joinCommit ok s).state (findState s).1).commitDone = true) :
    CommitMove call s (.enter c ok) (leaveCommit c (findState s).1
      (setCall c (.wait (findState s).1) (joinCommit ok s)))
  | wait {c : ℕ} {ok : Bool} (hidle : s.call c = .idle) (hc : c < call.expectedParts) :
    CommitMove call s (.enter c ok) (setCall c (.wait (findState s).1) (joinCommit ok s))
  | renamed {c ref : ℕ} {files : Files String UInt8} (hc : s.call c = .publish ref true)
    (hfiles : s.files.rename call.tempPath call.finalPath = some files) :
    CommitMove call s (.publish c true) (setCall c (.syncDir ref) { s with files })
  | dropped {c ref : ℕ} {b ok : Bool} (hc : s.call c = .publish ref b) :
    CommitMove call s (.publish c ok) (setCall c (.removeTemp ref) s)
  | synced {c ref : ℕ} (hc : s.call c = .syncDir ref) :
    CommitMove call s (.syncDir c true) (setCall c (.settle ref true) s)
  | unsynced {c ref : ℕ} (hc : s.call c = .syncDir ref) :
    CommitMove call s (.syncDir c false) (setCall c (.removeTemp ref) s)
  | removed {c ref : ℕ} {ok : Bool} (hc : s.call c = .removeTemp ref) :
    CommitMove call s (.removeTemp c ok) (setCall c (.settle ref false)
      { s with files := if ok then s.files.remove call.tempPath else s.files })
  | settled {c ref : ℕ} {ok : Bool} (hc : s.call c = .settle ref ok) :
    CommitMove call s (.settle c) (leaveCommit c ref (conclude ref ok s))
  | woken {c ref : ℕ} (hc : s.call c = .wait ref) (hdone : (s.state ref).commitDone = true) :
    CommitMove call s (.wake c) (leaveCommit c ref s)
  | timedOut {c ref : ℕ} (hc : s.call c = .wait ref) (hdone : (s.state ref).commitDone = false) :
    CommitMove call s (.timeout c) (leaveCommit c ref (conclude ref false s))

theorem commitStep_move {s : CommitSystem}
    (hkey : call.key ≠ "") (hparts : 2 ≤ call.expectedParts) (h : commitStep call e s = some s') :
    CommitMove call s e s' := by
  cases e with
  | enter c ok =>
    have h : enterCommit call c ok s = some s' := h
    simp only [enterCommit] at h
    split at h
    · cases h
    · next hnew =>
      obtain ⟨hidle, hc⟩ := not_or.mp hnew
      have hidle := not_not.mp hidle
      have hc := Nat.lt_of_not_le hc
      rw [if_neg (not_or.mpr ⟨hkey, by omega⟩)] at h
      split at h
      · next harr =>
        cases h
        exact .last hidle hc harr
      · split at h
        · next hdone =>
          cases h
          exact .late hidle hc hdone
        · cases h
          exact .wait hidle hc
  | publish c ok =>
    simp only [commitStep] at h
    split at h
    · next ref b hc =>
      split at h
      · next hboth =>
        obtain ⟨rfl, rfl⟩ := hboth
        obtain ⟨files, hfiles, rfl⟩ := map_eq_some_iff.mp h
        exact .renamed hc hfiles
      · cases h
        exact .dropped hc
    · cases h
  | syncDir c ok =>
    simp only [commitStep] at h
    split at h
    · next ref hc =>
      cases h
      cases ok with
      | true => exact .synced hc
      | false => exact .unsynced hc
    · cases h
  | removeTemp c ok =>
    simp only [commitStep] at h
    split at h
    · next ref hc =>
      cases h
      exact .removed hc
    · cases h
  | settle c =>
    simp only [commitStep] at h
    split at h
    · next ref ok hc =>
      cases h
      exact .settled hc
    · cases h
  | wake c =>
    simp only [commitStep] at h
    split at h
    · next ref hc =>
      split at h
      · next hdone =>
        cases h
        exact .woken hc hdone
      · cases h
    · cases h
  | timeout c =>
    simp only [commitStep] at h
    split at h
    · next ref hc =>
      split at h
      · cases h
      · next hdone =>
        cases h
        exact .timedOut hc (Bool.eq_false_iff.mpr hdone)
    · cases h

/-! ## Counting the parts -/

def CommitPc.held : CommitPc → Option ℕ
  | .idle => none
  | .wait ref => some ref
  | .publish ref _ => some ref
  | .syncDir ref => some ref
  | .removeTemp ref => some ref
  | .settle ref _ => some ref
  | .returned _ => none

def CommitPc.lastOf : CommitPc → Option ℕ
  | .wait _ => none
  | pc => pc.held

def entered (n : ℕ) (call : ℕ → CommitPc) : Finset ℕ := (Finset.range n).filter fun c => call c ≠ .idle

section
variable {n c : ℕ} {call : ℕ → CommitPc} {pc : CommitPc}

theorem card_entered_le (n : ℕ) (call : ℕ → CommitPc) : (entered n call).card ≤ n :=
  (Finset.card_filter_le _ _).trans (Finset.card_range n).le

theorem card_entered_lt (hc : c < n) (hidle : call c = .idle) : (entered n call).card < n := by
  have hsub : entered n call ⊂ Finset.range n := by
    refine ⟨Finset.filter_subset _ _, fun hall => ?_⟩
    have hmem := hall (Finset.mem_range.mpr hc)
    exact (Finset.mem_filter.mp hmem).2 hidle
  have hlt := Finset.card_lt_card hsub
  rwa [Finset.card_range] at hlt

theorem entered_update (hc : call c ≠ .idle) (hpc : pc ≠ .idle) :
    entered n (update call c pc) = entered n call := by
  apply Finset.filter_congr
  intro c' _
  by_cases h : c' = c
  · rw [h, update_self]
    exact ⟨fun _ => hc, fun _ => hpc⟩
  · rw [update_of_ne h]

theorem card_entered_update (hn : c < n) (hc : call c = .idle) (hpc : pc ≠ .idle) :
    (entered n (update call c pc)).card = (entered n call).card + 1 := by
  have hnew : c ∉ entered n call := fun h => (Finset.mem_filter.mp h).2 hc
  rw [← Finset.card_insert_of_notMem hnew]
  apply congrArg Finset.card
  ext c'
  rw [Finset.mem_insert, entered, entered, Finset.mem_filter, Finset.mem_filter, Finset.mem_range]
  by_cases h : c' = c
  · rw [h, update_self]
    exact ⟨fun _ => .inl rfl, fun _ => ⟨hn, hpc⟩⟩
  · rw [update_of_ne h]
    exact ⟨.inr, fun hor => hor.resolve_left h⟩

end

/-- what holds of a state that counts `arrived` of the `entered` calls -/
structure Counted (nextState entered arrived : ℕ) : Prop where
  pos : 1 ≤ arrived
  le : arrived ≤ entered
  lt : 2 ≤ nextState → arrived < entered

/-- what holds of a call at `pc` -/
structure CallOk (n nextState : ℕ) (state : ℕ → HybridRangeCommitState) (pc : CommitPc) : Prop where
  held_lt : ∀ ref, pc.held = some ref → ref < nextState
  last : ∀ ref, pc.lastOf = some ref → (state ref).arrived = n
  should : ∀ ref b, pc = .publish ref b → b = (state ref).allPartsOk

/-- all states together count every call at most once, so one that counts `n` parts is the only one -/
structure BarrierInv (n : ℕ) (s : CommitSystem) : Prop where
  slot_lt : ∀ ref, s.slot = some ref → ref < s.nextState
  counted : ∀ ref < s.nextState, Counted s.nextState (entered n s.call).card (s.state ref).arrived
  call : ∀ c, CallOk n s.nextState s.state (s.call c)
  single : ∀ c c' ref ref', (s.call c).lastOf = some ref → (s.call c').lastOf = some ref' → c = c'

theorem BarrierInv.init (n : ℕ) (files : Files String UInt8) : BarrierInv n { files } := by
  refine ⟨?_, ?_, fun _ => ⟨?_, ?_, ?_⟩, ?_⟩
  all_goals intros; contradiction

theorem CommitPc.held_of_lastOf {ref : ℕ} (h : pc.lastOf = some ref) : pc.held = some ref := by
  cases pc <;> first | exact h | cases h

section
variable {n c ref : ℕ} {pc : CommitPc} {s : CommitSystem}

theorem BarrierInv.all_arrived (hI : BarrierInv n s) (href : ref < s.nextState)
    (harr : (s.state ref).arrived = n) : s.nextState = 1 ∧ ref = 0 ∧ ∀ c < n, s.call c ≠ .idle := by
  have hcounted := hI.counted ref href
  have hle := hcounted.le
  have hn := card_entered_le n s.call
  have hone : s.nextState = 1 := by
    by_contra hne
    have hlt := hcounted.lt (by omega)
    omega
  refine ⟨hone, by omega, fun c hc hidle => ?_⟩
  have hlt := card_entered_lt hc hidle
  omega

theorem BarrierInv.lastOf_none (hI : BarrierInv n s) (hc : c < n) (hidle : s.call c = .idle) (c' : ℕ) :
    (s.call c').lastOf = none := by
  cases h : (s.call c').lastOf with
  | none => rfl
  | some ref =>
    have hlt := (hI.call c').held_lt ref (CommitPc.held_of_lastOf h)
    exact absurd hidle ((hI.all_arrived hlt ((hI.call c').last ref h)).2.2 c hc)

theorem BarrierInv.moveCall (hI : BarrierInv n s) (hc : s.call c ≠ .idle) (hpc : pc ≠ .idle)
    (hheld : ∀ ref, pc.held = some ref → (s.call c).held = some ref)
    (hlast : ∀ ref, pc.lastOf = some ref → (s.call c).lastOf = some ref)
    (hpub : ∀ ref b, pc ≠ .publish ref b) : BarrierInv n (setCall c pc s) := by
  have hlastOf : ∀ c' ref, (update s.call c pc c').lastOf = some ref →
      (s.call c').lastOf = some ref :=
    (forall_update_iff s.call fun c' pc => ∀ ref, pc.lastOf = some ref →
      (s.call c').lastOf = some ref).mpr ⟨hlast, fun _ _ _ h => h⟩
  constructor
  · exact hI.slot_lt
  · show ∀ ref < s.nextState, Counted s.nextState (entered n (update s.call c pc)).card _
    rw [entered_update hc hpc]
    exact hI.counted
  · refine (forall_update_iff s.call fun _ => CallOk n s.nextState s.state).mpr
      ⟨⟨fun ref h => ?_, fun ref h => ?_, fun ref b h => absurd h (hpub ref b)⟩, fun c' _ => hI.call c'⟩
    · exact (hI.call c).held_lt ref (hheld ref h)
    · exact (hI.call c).last ref (hlast ref h)
  · intro c₁ c₂ ref₁ ref₂ h₁ h₂
    exact hI.single c₁ c₂ ref₁ ref₂ (hlastOf c₁ ref₁ h₁) (hlastOf c₂ ref₂ h₂)

theorem BarrierInv.setState (hI : BarrierInv n s) {slot : Option ℕ} {state : ℕ → HybridRangeCommitState}
    (hslot : ∀ ref, slot = some ref → s.slot = some ref)
    (harr : ∀ ref, (state ref).arrived = (s.state ref).arrived ∧
      (state ref).allPartsOk = (s.state ref).allPartsOk) : BarrierInv n { s with slot, state } where
  slot_lt := fun ref h => hI.slot_lt ref (hslot ref h)
  counted := fun ref h => by
    show Counted _ _ (state ref).arrived
    rw [(harr ref).1]
    exact hI.counted ref h
  call := fun c => ⟨(hI.call c).held_lt, fun ref h => (harr ref).1.trans ((hI.call c).last ref h),
    fun ref b h => ((hI.call c).should ref b h).trans (harr ref).2.symm⟩
  single := hI.single

def foundState (s : CommitSystem) : HybridRangeCommitState :=
  match s.slot with
  | some ref => s.state ref
  | none => {}

theorem joinCommit_fields (ok : Bool) (s : CommitSystem) :
    (joinCommit ok s).state = update s.state (findState s).1 { foundState s with
      arrived := (foundState s).arrived + 1
      waiters := (foundState s).waiters + 1
      allPartsOk := (foundState s).allPartsOk && ok } ∧
    (joinCommit ok s).call = s.call ∧ (joinCommit ok s).files = s.files ∧
    (joinCommit ok s).slot = some (findState s).1 ∧
    (s.slot = some (findState s).1 ∧ foundState s = s.state (findState s).1 ∧
        (joinCommit ok s).nextState = s.nextState ∨
      s.slot = none ∧ foundState s = {} ∧ (findState s).1 = s.nextState ∧
        (joinCommit ok s).nextState = s.nextState + 1) := by
  unfold joinCommit arrive findState foundState
  cases hslot : s.slot with
  | none => simp
  | some ref => simp [hslot]

theorem BarrierInv.joined_lt (hI : BarrierInv n s) (ok : Bool) :
    (findState s).1 < (joinCommit ok s).nextState ∧ s.nextState ≤ (joinCommit ok s).nextState := by
  obtain ⟨-, -, -, -, hfound⟩ := joinCommit_fields ok s
  rcases hfound with ⟨hslot, -, hnext⟩ | ⟨-, -, href, hnext⟩
  · rw [hnext]
    exact ⟨hI.slot_lt _ hslot, le_rfl⟩
  · omega

theorem joinCommit_arrived (ok : Bool) (s : CommitSystem) :
    ((joinCommit ok s).state (findState s).1).arrived = (foundState s).arrived + 1 := by
  obtain ⟨hstate, -⟩ := joinCommit_fields ok s
  rw [hstate, update_self]

theorem joinCommit_arrived_of_ne {ok : Bool} (hlt : ref < (joinCommit ok s).nextState)
    (hne : ref ≠ (findState s).1) :
    ref < s.nextState ∧ ((joinCommit ok s).state ref).arrived = (s.state ref).arrived := by
  obtain ⟨hstate, -, -, -, hfound⟩ := joinCommit_fields ok s
  constructor
  · rcases hfound with ⟨-, -, hnext⟩ | ⟨-, -, h, hnext⟩
    · rwa [hnext] at hlt
    · omega
  · rw [hstate, update_of_ne hne]

theorem count_update {state : ℕ → HybridRangeCommitState} {st : HybridRangeCommitState}
    (harr : st.arrived = (state ref).arrived) (hall : st.allPartsOk = (state ref).allPartsOk) (r : ℕ) :
    (update state ref st r).arrived = (state r).arrived ∧
      (update state ref st r).allPartsOk = (state r).allPartsOk := by
  by_cases hr : r = ref
  · rw [hr, update_self]
    exact ⟨harr, hall⟩
  · rw [update_of_ne hr]
    exact ⟨rfl, rfl⟩

theorem count_leave (c ref : ℕ) (s : CommitSystem) (r : ℕ) :
    ((leaveCommit c ref s).state r).arrived = (s.state r).arrived ∧
      ((leaveCommit c ref s).state r).allPartsOk = (s.state r).allPartsOk := by
  refine count_update ?_ ?_ r <;> rfl

theorem count_conclude (ref : ℕ) (ok : Bool) (s : CommitSystem) (r : ℕ) :
    ((conclude ref ok s).state r).arrived = (s.state r).arrived ∧
      ((conclude ref ok s).state r).allPartsOk = (s.state r).allPartsOk := by
  refine count_update ?_ ?_ r <;> rfl

section
variable (hI : BarrierInv n s)
include hI

theorem BarrierInv.found_le : (foundState s).arrived ≤ (entered n s.call).card := by
  unfold foundState
  cases h : s.slot with
  | none => exact Nat.zero_le _
  | some ref => exact (hI.counted ref (hI.slot_lt ref h)).le

theorem BarrierInv.found_lt (ok : Bool) (h2 : 2 ≤ (joinCommit ok s).nextState) :
    (foundState s).arrived < (entered n s.call).card := by
  obtain ⟨-, -, -, -, hfound⟩ := joinCommit_fields ok s
  rcases hfound with ⟨h, hst, hnext⟩ | ⟨-, hst, -, hnext⟩
  · rw [hst]
    exact (hI.counted _ (hI.slot_lt _ h)).lt (by omega)
  · -- an earlier state counts a call that is not counted in the new one
    have hold := hI.counted 0 (by omega)
    rw [hst]
    exact hold.pos.trans hold.le

theorem BarrierInv.join (hc : c < n) (hidle : s.call c = .idle) (ok : Bool)
    (hpc : pc ≠ .idle) (hheld : ∀ ref, pc.held = some ref → ref = (findState s).1)
    (hlast : ∀ ref, pc.lastOf = some ref → ((joinCommit ok s).state ref).arrived = n)
    (hshould : ∀ ref b, pc = .publish ref b → b = ((joinCommit ok s).state ref).allPartsOk) :
    BarrierInv n (setCall c pc (joinCommit ok s)) := by
  obtain ⟨-, hcall, -, hslot, -⟩ := joinCommit_fields ok s
  obtain ⟨href, hnext⟩ := hI.joined_lt ok
  have hnone := hI.lastOf_none hc hidle
  constructor
  · intro ref h
    obtain rfl : (findState s).1 = ref := some.inj (hslot.symm.trans h)
    exact href
  · intro ref h
    show Counted _ (entered n (update (joinCommit ok s).call c pc)).card
      ((joinCommit ok s).state ref).arrived
    rw [hcall, card_entered_update hc hidle hpc]
    by_cases hr : ref = (findState s).1
    · rw [hr, joinCommit_arrived]
      exact ⟨Nat.le_add_left 1 _, Nat.succ_le_succ hI.found_le,
        fun h2 => Nat.succ_lt_succ (hI.found_lt ok h2)⟩
    · obtain ⟨hold, heq⟩ := joinCommit_arrived_of_ne h hr
      have hold := hI.counted ref hold
      rw [heq]
      exact ⟨hold.pos, hold.le.trans (Nat.le_succ _), fun _ => Nat.lt_succ_of_le hold.le⟩
  · show ∀ c', CallOk n _ (joinCommit ok s).state (update (joinCommit ok s).call c pc c')
    rw [hcall]
    refine (forall_update_iff s.call fun _ => CallOk n _ (joinCommit ok s).state).mpr
      ⟨⟨fun ref h => ?_, hlast, hshould⟩, fun c' _ => ⟨fun ref h => ?_, fun ref h => ?_, fun ref b h => ?_⟩⟩
    · rw [hheld ref h]
      exact href
    · exact ((hI.call c').held_lt ref h).trans_le hnext
    · rw [hnone c'] at h
      cases h
    · have hlast := hnone c'
      rw [h] at hlast
      cases hlast
  · have honly : ∀ c' ref, (update (joinCommit ok s).call c pc c').lastOf = some ref → c' = c := by
      intro c' ref h
      by_contra hne
      rw [update_of_ne hne, hcall, hnone c'] at h
      cases h
    intro c₁ c₂ ref₁ ref₂ h₁ h₂
    exact (honly c₁ ref₁ h₁).trans (honly c₂ ref₂ h₂).symm

theorem BarrierInv.joinWait (hc : c < n) (hidle : s.call c = .idle) (ok : Bool) :
    BarrierInv n (setCall c (.wait (findState s).1) (joinCommit ok s)) :=
  hI.join hc hidle ok (by simp) (fun _ h => (some.inj h).symm) (fun _ h => by cases h)
    fun _ _ h => by cases h

theorem BarrierInv.leave (hc : s.call c ≠ .idle) : BarrierInv n (leaveCommit c ref s) := by
  have hleft : BarrierInv n { s with
      slot := if (s.state ref).waiters - 1 = 0 ∧ (s.state ref).commitDone then none else s.slot
      state := update s.state ref { s.state ref with
        waiters := (s.state ref).waiters - 1 } } := by
    refine hI.setState (fun r h => ?_) (count_leave c ref s)
    split at h
    · cases h
    · exact h
  exact hleft.moveCall hc nofun (fun _ h => by cases h) (fun _ h => by cases h)
    fun _ _ h => by cases h

theorem BarrierInv.conclude (ok : Bool) : BarrierInv n (conclude ref ok s) :=
  hI.setState (fun _ h => h) (count_conclude ref ok s)

theorem BarrierInv.nextStage {pc' : CommitPc} (hc : s.call c = pc)
    (hlast : pc.lastOf = some ref) (hlast' : pc'.lastOf = some ref)
    (hpub : ∀ ref b, pc' ≠ .publish ref b) (files : Files String UInt8) :
    BarrierInv n (Mlrc.setCall c pc' { s with files }) := by
  have hI' : BarrierInv n { s with files } := { hI with }
  subst hc
  have hheld := CommitPc.held_of_lastOf hlast
  have hheld' := CommitPc.held_of_lastOf hlast'
  refine hI'.moveCall (fun h => ?_) (fun h => ?_) (fun r h => ?_) (fun r h => ?_) hpub
  · have h : s.call c = .idle := h
    rw [h] at hheld
    cases hheld
  · rw [h] at hheld'
    cases hheld'
  · rw [← h, hheld']
    exact hheld
  · rw [← h, hlast']
    exact hlast

end

theorem CommitMove.barrier (hmove : CommitMove call s e s') (hI : BarrierInv call.expectedParts s) :
    BarrierInv call.expectedParts s' := by
  have hbusy : ∀ {c pc}, s.call c = pc → pc ≠ .idle → s.call c ≠ .idle := by
    rintro c pc rfl h
    exact h
  cases hmove with
  | last hidle hc harr =>
    refine hI.join hc hidle _ (by simp) (fun ref h => (some.inj h).symm) (fun ref h => ?_)
      fun ref b h => ?_
    · rw [← some.inj h]
      exact harr
    · cases h
      rfl
  | @late c ok hidle hc _ =>
    refine (hI.joinWait hc hidle ok).leave ?_
    show update _ c _ c ≠ _
    rw [update_self]
    simp
  | wait hidle hc => exact hI.joinWait hc hidle _
  | renamed hc _ => exact hI.nextStage hc rfl rfl (by simp) _
  | dropped hc => exact hI.nextStage hc rfl rfl (by simp) s.files
  | synced hc => exact hI.nextStage hc rfl rfl (by simp) s.files
  | unsynced hc => exact hI.nextStage hc rfl rfl (by simp) s.files
  | removed hc => exact hI.nextStage hc rfl rfl (by simp) _
  | settled hc => exact (hI.conclude _).leave (hbusy hc (by simp))
  | woken hc _ => exact hI.leave (hbusy hc (by simp))
  | timedOut hc _ => exact (hI.conclude _).leave (hbusy hc (by simp))

/-! ## What the rest of the datanode sees of a step -/

/-- calls only go on, a failed part stays failed, and only a last part touches the files -/
structure CommitEffect (call : CommitCall) (s : CommitSystem) (e : CommitEvent) (s' : CommitSystem) :
    Prop where
  stays : ∀ c, s.call c ≠ .idle → s'.call c ≠ .idle
  enters : ∀ c, s.call c = .idle → s'.call c ≠ .idle → ∃ ok, e = .enter c ok ∧
    (ok = false → ∃ ref < s'.nextState, (s'.state ref).allPartsOk = false)
  failed : (∃ ref < s.nextState, (s.state ref).allPartsOk = false) →
    ∃ ref < s'.nextState, (s'.state ref).allPartsOk = false
  files : s'.files = s.files ∨
    (∃ c ref, (s.call c).lastOf = some ref ∧ s'.files = s.files.remove call.tempPath) ∨
    ∃ c ref, s.call c = .publish ref true ∧
      s.files.rename call.tempPath call.finalPath = some s'.files

theorem joinCommit_failed (hI : BarrierInv n s) (ok : Bool)
    (h : ok = false ∨ ∃ ref < s.nextState, (s.state ref).allPartsOk = false) :
    ∃ ref < (joinCommit ok s).nextState, ((joinCommit ok s).state ref).allPartsOk = false := by
  obtain ⟨hstate, -, -, -, hfound⟩ := joinCommit_fields ok s
  rw [hstate]
  have hlt := hI.joined_lt ok
  rcases h with rfl | ⟨ref, href, hbad⟩
  · refine ⟨_, hlt.1, ?_⟩
    rw [update_self, Bool.and_false]
  · refine ⟨ref, by omega, ?_⟩
    by_cases hr : ref = (findState s).1
    · rw [hr, update_self]
      rcases hfound with ⟨-, hst, -⟩ | ⟨-, -, hnew, -⟩
      · show ((foundState s).allPartsOk && ok) = false
        rw [hst, ← hr, hbad, Bool.false_and]
      · omega
    · rw [update_of_ne hr]
      exact hbad

theorem ne_idle_update {call : ℕ → CommitPc} (hpc : pc ≠ .idle) (c' : ℕ)
    (h : call c' ≠ .idle) : update call c pc c' ≠ .idle :=
  (forall_update_iff call fun c' pc => call c' ≠ .idle → pc ≠ .idle).mpr
    ⟨fun _ => hpc, fun _ _ h => h⟩ c' h

theorem eq_of_update_ne_idle {call : ℕ → CommitPc} (c' : ℕ) (hidle : call c' = .idle)
    (h : update call c pc c' ≠ .idle) : c' = c := by
  by_contra hne
  rw [update_of_ne hne] at h
  exact h hidle

theorem CommitEffect.of_busy
    (hc : s.call c ≠ .idle) (hpc : pc ≠ .idle) (hcall : s'.call = update s.call c pc)
    (hnext : s'.nextState = s.nextState)
    (hstate : ∀ ref, (s'.state ref).allPartsOk = (s.state ref).allPartsOk)
    (hfiles : s'.files = s.files ∨
      (∃ c ref, (s.call c).lastOf = some ref ∧ s'.files = s.files.remove call.tempPath) ∨
      ∃ c ref, s.call c = .publish ref true ∧
        s.files.rename call.tempPath call.finalPath = some s'.files) : CommitEffect call s e s' where
  stays := fun c' h => by
    rw [hcall]
    exact ne_idle_update hpc c' h
  enters := fun c' hidle h => by
    rw [hcall] at h
    exact absurd (eq_of_update_ne_idle c' hidle h ▸ hidle) hc
  failed := fun ⟨ref, href, h⟩ => ⟨ref, hnext ▸ href, (hstate ref).trans h⟩
  files := hfiles

theorem CommitEffect.of_join {ok : Bool}
    (hI : BarrierInv n s) (hcall : s'.call = update (joinCommit ok s).call c pc)
    (hpc : pc ≠ .idle) (hnext : s'.nextState = (joinCommit ok s).nextState)
    (hstate : ∀ ref, (s'.state ref).allPartsOk = ((joinCommit ok s).state ref).allPartsOk)
    (hfiles : s'.files = (joinCommit ok s).files) : CommitEffect call s (.enter c ok) s' := by
  obtain ⟨-, hsame, hkeep, -, -⟩ := joinCommit_fields ok s
  rw [hsame] at hcall
  rw [hkeep] at hfiles
  refine ⟨fun c' h => ?_, fun c' hidle h => ?_, fun h => ?_, .inl hfiles⟩
  · rw [hcall]
    exact ne_idle_update hpc c' h
  · rw [hcall] at h
    refine ⟨ok, by rw [eq_of_update_ne_idle c' hidle h], fun hok => ?_⟩
    obtain ⟨ref, href, hbad⟩ := joinCommit_failed hI ok (.inl hok)
    exact ⟨ref, hnext ▸ href, (hstate ref).trans hbad⟩
  · obtain ⟨ref, href, hbad⟩ := joinCommit_failed hI ok (.inr h)
    exact ⟨ref, hnext ▸ href, (hstate ref).trans hbad⟩

theorem CommitMove.effect
    (hI : BarrierInv n s) (hmove : CommitMove call s e s') : CommitEffect call s e s' := by
  have hbusy : ∀ {c pc}, s.call c = pc → pc ≠ .idle → s.call c ≠ .idle := by
    rintro c pc rfl h
    exact h
  cases hmove with
  | last _ _ _ => exact .of_join hI rfl (by simp) rfl (fun _ => rfl) rfl
  | late _ _ _ => exact .of_join hI (update_idem ..) (by simp) rfl (fun r => (count_leave _ _ _ r).2) rfl
  | wait _ _ => exact .of_join hI rfl (by simp) rfl (fun _ => rfl) rfl
  | @renamed c ref files hc hfiles =>
    exact .of_busy (hbusy hc (by simp)) (by simp) rfl rfl (fun _ => rfl)
      (.inr (.inr ⟨c, ref, hc, hfiles⟩))
  | dropped hc =>
    exact .of_busy (hbusy hc (by simp)) (by simp) rfl rfl (fun _ => rfl) (.inl rfl)
  | synced hc =>
    exact .of_busy (hbusy hc (by simp)) (by simp) rfl rfl (fun _ => rfl) (.inl rfl)
  | unsynced hc =>
    exact .of_busy (hbusy hc (by simp)) (by simp) rfl rfl (fun _ => rfl) (.inl rfl)
  | @removed c ref ok hc =>
    refine .of_busy (hbusy hc (by simp)) (by simp) rfl rfl (fun _ => rfl) ?_
    cases ok with
    | false => exact .inl rfl
    | true => exact .inr (.inl ⟨c, ref, by rw [hc]; rfl, rfl⟩)
  | @settled c ref ok hc =>
    exact .of_busy (hbusy hc (by simp)) (by simp) rfl rfl
      (fun r => (count_leave c ref _ r).2.trans (count_conclude ref ok s r).2) (.inl rfl)
  | @woken c ref hc hdone =>
    exact .of_busy (hbusy hc (by simp)) (by simp) rfl rfl (fun r => (count_leave c ref s r).2) (.inl rfl)
  | @timedOut c ref hc hdone =>
    exact .of_busy (hbusy hc (by simp)) (by simp) rfl rfl
      (fun r => (count_leave c ref _ r).2.trans (count_conclude ref false s r).2) (.inl rfl)

end

end Mlrc
