import Mlrc.Datanode.Commit

/-!
# Verdicts of the commit barrier

A wait that times out while the last part publishes the file writes its own verdict into the shared
state.  Where this does not happen all calls report the same.

* `commitStepOk`   the steps that keep the verdicts together;
* `CommitInv`   what holds along such runs;
* `commit_verdict_agrees`   all calls report whether the file was published.
-/

namespace Mlrc

open Option Function

/-- the temporary file has taken the place of the final one -/
def Published (call : CommitCall) (files₀ files : Files String UInt8) : Prop :=
  ∃ ino, files₀.dir call.tempPath = some ino ∧ files.dir call.finalPath = some ino

/-- what a call reports or is about to report if no other one interferes -/
def CommitPc.verdict : CommitPc → Option Bool
  | .idle => none
  | .wait _ => none
  | .publish _ _ => some false
  | .syncDir _ => some true
  | .removeTemp _ => some false
  | .settle _ publishOk => some publishOk
  | .returned ok => some ok

/-- the state into which a call is going to write success -/
def CommitPc.pending : CommitPc → Option ℕ
  | .publish ref true => some ref
  | .syncDir ref => some ref
  | .settle ref true => some ref
  | _ => none

/-- the steps under which the verdicts agree: a wait times out only before the last part has arrived,
the last part does not arrive behind such a timeout, unless a part has failed, and the directory of
the published file can be synced -/
def commitStepOk (call : CommitCall) : CommitEvent → CommitSystem → Bool
  | .timeout c, s =>
    match s.call c with
    | .wait ref => decide ((s.state ref).arrived < call.expectedParts) || !(s.state ref).allPartsOk
    | _ => true
  | .enter _ thisPartOk, s =>
    match s.slot with
    | some ref => !(decide ((s.state ref).arrived + 1 = call.expectedParts) &&
        (s.state ref).commitDone && (s.state ref).allPartsOk && thisPartOk)
    | none => true
  | .syncDir _ ok, _ => ok
  | _, _ => true

/-- what holds of a call at `pc` -/
structure VerdictOk (nextState : ℕ) (state : ℕ → HybridRangeCommitState) (published : Prop)
    (pc : CommitPc) : Prop where
  verdict : ∀ b, pc.verdict = some b → (b = true ↔ published)
  left : ∀ b, pc = .returned b → ∃ ref < nextState, (state ref).commitDone = true
  pending : ∀ ref, pc.pending = some ref → (state ref).commitDone = false

structure CommitInv (call : CommitCall) (files₀ : Files String UInt8) (s : CommitSystem) : Prop where
  barrier : BarrierInv call.expectedParts s
  calls : ∀ c, VerdictOk s.nextState s.state (Published call files₀ s.files) (s.call c)
  done : ∀ ref < s.nextState, (s.state ref).commitDone = true →
    ((s.state ref).commitOk = true ↔ Published call files₀ s.files)
  counted : Published call files₀ s.files → ∃ ref < s.nextState,
    (s.state ref).arrived = call.expectedParts ∧ (s.state ref).allPartsOk = true
  temp : ∀ ino, s.files.dir call.tempPath = some ino → files₀.dir call.tempPath = some ino

theorem CommitPc.lastOf_of_pending {pc : CommitPc} {ref : ℕ} (h : pc.pending = some ref) :
    pc.lastOf = some ref := by
  match pc, h with
  | .publish _ true, h => exact h
  | .syncDir _, h => exact h
  | .settle _ true, h => exact h

section
variable {call : CommitCall} {files₀ : Files String UInt8} {s : CommitSystem} {c ref : ℕ}

theorem CommitInv.not_published (hI : CommitInv call files₀ s) (hc : c < call.expectedParts)
    (hidle : s.call c = .idle) : ¬ Published call files₀ s.files := by
  intro hpub
  obtain ⟨ref, href, harr, -⟩ := hI.counted hpub
  exact (hI.barrier.all_arrived href harr).2.2 c hc hidle

theorem CommitInv.moveCall (hI : CommitInv call files₀ s) {pc : CommitPc}
    {files : Files String UInt8} (hbarrier : BarrierInv call.expectedParts (setCall c pc { s with files }))
    (hfinal : files.dir call.finalPath = s.files.dir call.finalPath)
    (htemp : ∀ ino, files.dir call.tempPath = some ino → s.files.dir call.tempPath = some ino)
    (hpc : VerdictOk s.nextState s.state (Published call files₀ s.files) pc) :
    CommitInv call files₀ (setCall c pc { s with files }) := by
  have hsame : Published call files₀ (setCall c pc { s with files }).files =
      Published call files₀ s.files := by
    show Published call files₀ files = _
    unfold Published
    rw [hfinal]
  constructor
  · exact hbarrier
  · rw [hsame]
    exact (forall_update_iff s.call fun _ => VerdictOk s.nextState s.state _).mpr
      ⟨hpc, fun c' _ => hI.calls c'⟩
  · rw [hsame]
    exact hI.done
  · rw [hsame]
    exact hI.counted
  · intro ino h
    exact hI.temp ino (htemp ino h)

theorem CommitInv.finish (hI : CommitInv call files₀ s) {ok : Bool}
    (hheld : (s.call c).held = some ref) (hok : ok = true ↔ Published call files₀ s.files)
    (hothers : ∀ c' ≠ c, (s.call c').pending ≠ some ref) :
    CommitInv call files₀ (leaveCommit c ref (conclude ref ok s)) := by
  have hbusy : s.call c ≠ .idle := fun h => by
    rw [h] at hheld
    cases hheld
  -- the state is done with this verdict, the others stay as they are
  have hst : (conclude ref ok s).state ref = { s.state ref with commitOk := ok, commitDone := true } :=
    update_self ..
  have hself : (leaveCommit c ref (conclude ref ok s)).state ref = { s.state ref with
      commitOk := ok, commitDone := true, waiters := (s.state ref).waiters - 1 } := by
    show update (conclude ref ok s).state ref _ ref = _
    rw [update_self, hst]
  have hne : ∀ r ≠ ref, (leaveCommit c ref (conclude ref ok s)).state r = s.state r := by
    intro r hr
    show update (update s.state ref _) ref _ r = _
    rw [update_of_ne hr, update_of_ne hr]
  have hcall : (leaveCommit c ref (conclude ref ok s)).call =
      update s.call c (.returned ok) := by
    show update s.call c (.returned ((conclude ref ok s).state ref).commitOk) = _
    rw [hst]
  have hdone : ((leaveCommit c ref (conclude ref ok s)).state ref).commitDone = true := by
    rw [hself]
  constructor
  · exact (hI.barrier.conclude ok).leave hbusy
  · rw [hcall]
    have href := (hI.barrier.call c).held_lt ref hheld
    refine (forall_update_iff s.call fun _ => VerdictOk s.nextState _ _).mpr
      ⟨⟨fun b h => ?_, fun _ _ => ⟨ref, href, hdone⟩, fun r h => by cases h⟩, fun c' hc' =>
        ⟨(hI.calls c').verdict, fun _ _ => ⟨ref, href, hdone⟩, fun r h => ?_⟩⟩
    · rw [← some.inj h]
      exact hok
    · rw [hne r fun hr => hothers c' hc' (hr ▸ h)]
      exact (hI.calls c').pending r h
  · intro r hr hdone
    show _ ↔ Published call files₀ s.files
    by_cases hrr : r = ref
    · rw [hrr, hself]
      exact hok
    · rw [hne r hrr] at hdone ⊢
      exact hI.done r hr hdone
  · intro hpub
    obtain ⟨r, hr, harr, hall⟩ := hI.counted hpub
    refine ⟨r, hr, ?_⟩
    by_cases hrr : r = ref
    · rw [hrr, hself]
      exact hrr ▸ ⟨harr, hall⟩
    · rw [hne r hrr]
      exact ⟨harr, hall⟩
  · exact hI.temp

theorem joinCommit_done (ok : Bool) (s : CommitSystem) (r : ℕ) :
    (r < (joinCommit ok s).nextState ∧ ((joinCommit ok s).state r).commitDone = true ↔
      r < s.nextState ∧ (s.state r).commitDone = true) ∧
    (r < s.nextState → ((joinCommit ok s).state r).commitOk = (s.state r).commitOk) := by
  obtain ⟨hstate, -, -, -, hfound⟩ := joinCommit_fields ok s
  rw [hstate]
  rcases hfound with ⟨-, hst, hnext⟩ | ⟨-, hst, href, hnext⟩
  · rw [hnext]
    by_cases hr : r = (findState s).1
    · rw [hr, update_self, hst]
      exact ⟨Iff.rfl, fun _ => rfl⟩
    · rw [update_of_ne hr]
      exact ⟨Iff.rfl, fun _ => rfl⟩
  · rw [hnext, href]
    by_cases hr : r = s.nextState
    · rw [hr, update_self, hst]
      refine ⟨⟨fun h => ?_, fun h => absurd h.1 (lt_irrefl _)⟩, fun h => absurd h (lt_irrefl _)⟩
      cases h.2
    · rw [update_of_ne hr]
      refine ⟨⟨fun h => ⟨?_, h.2⟩, fun h => ⟨?_, h.2⟩⟩, fun _ => rfl⟩ <;> omega

theorem CommitInv.join (hI : CommitInv call files₀ s) (hc : c < call.expectedParts)
    (hidle : s.call c = .idle) {ok : Bool} {pc : CommitPc}
    (hbarrier : BarrierInv call.expectedParts (setCall c pc (joinCommit ok s)))
    (hverdict : pc.verdict ≠ some true) (hret : ∀ b, pc ≠ .returned b)
    (hpending : ∀ r, pc.pending = some r → ((joinCommit ok s).state r).commitDone = false) :
    CommitInv call files₀ (setCall c pc (joinCommit ok s)) := by
  obtain ⟨-, hcall, hfiles, -, -⟩ := joinCommit_fields ok s
  have hnot := hI.not_published hc hidle
  have hnone := hI.barrier.lastOf_none hc hidle
  have hdone := joinCommit_done ok s
  constructor
  · exact hbarrier
  · show ∀ c', VerdictOk _ (joinCommit ok s).state (Published call files₀ (joinCommit ok s).files)
      (update (joinCommit ok s).call c pc c')
    rw [hcall, hfiles]
    refine (forall_update_iff s.call fun _ => VerdictOk _ (joinCommit ok s).state _).mpr
      ⟨⟨fun b h => ?_, fun b h => absurd h (hret b), hpending⟩, fun c' _ =>
        ⟨(hI.calls c').verdict, fun b h => ?_, fun r h => ?_⟩⟩
    · exact ⟨fun hb => absurd (hb ▸ h) hverdict, fun hpub => absurd hpub hnot⟩
    · obtain ⟨r, hr, hd⟩ := (hI.calls c').left b h
      exact ⟨r, (hdone r).1.mpr ⟨hr, hd⟩⟩
    · have hlast := CommitPc.lastOf_of_pending h
      rw [hnone c'] at hlast
      cases hlast
  · intro r hr hd
    obtain ⟨hr', hd'⟩ := (hdone r).1.mp ⟨hr, hd⟩
    show ((joinCommit ok s).state r).commitOk = true ↔ Published call files₀ (joinCommit ok s).files
    rw [hfiles, (hdone r).2 hr']
    exact hI.done r hr' hd'
  · intro hpub
    rw [show (setCall c pc (joinCommit ok s)).files = s.files from hfiles] at hpub
    exact absurd hpub hnot
  · show ∀ ino, (joinCommit ok s).files.dir call.tempPath = some ino → _
    rw [hfiles]
    exact hI.temp

theorem CommitInv.publish (hI : CommitInv call files₀ s) (hc : s.call c = .publish ref true)
    {files : Files String UInt8} (hne : call.tempPath ≠ call.finalPath)
    (hfiles : s.files.rename call.tempPath call.finalPath = some files)
    (hbarrier : BarrierInv call.expectedParts (setCall c (.syncDir ref) { s with files })) :
    CommitInv call files₀ (setCall c (.syncDir ref) { s with files }) := by
  obtain ⟨ino, hsrc, hdst, hgone, -, -, -⟩ := Files.rename_dir hfiles
  have hpub : Published call files₀ files := ⟨ino, hI.temp ino hsrc, hdst⟩
  have hlast : (s.call c).lastOf = some ref := by
    rw [hc]
    rfl
  have hpend : (s.state ref).commitDone = false := by
    apply (hI.calls c).pending
    rw [hc]
    rfl
  have href := (hI.barrier.call c).held_lt ref (CommitPc.held_of_lastOf hlast)
  have harr := (hI.barrier.call c).last ref hlast
  obtain ⟨hone, rfl, -⟩ := hI.barrier.all_arrived href harr
  have hdone : ∀ r < s.nextState, (s.state r).commitDone = false := by
    intro r hr
    obtain rfl : r = 0 := by omega
    exact hpend
  constructor
  · exact hbarrier
  · refine (forall_update_iff s.call fun _ => VerdictOk s.nextState s.state _).mpr
      ⟨⟨fun b h => ⟨fun _ => hpub, fun _ => (some.inj h).symm⟩, nofun, fun r h => ?_⟩,
        fun c' hc' => ⟨fun b h => ?_, (hI.calls c').left, (hI.calls c').pending⟩⟩
    · rw [← some.inj h]
      exact hpend
    · -- another call with a verdict would be a last part too, or have returned
      exfalso
      cases hpc : s.call c' with
      | idle => rw [hpc] at h; cases h
      | wait _ => rw [hpc] at h; cases h
      | returned b' =>
        obtain ⟨r, hr, hd⟩ := (hI.calls c').left b' hpc
        rw [hdone r hr] at hd
        cases hd
      | _ => exact hc' (hI.barrier.single c' c _ _ (by rw [hpc]; rfl) hlast)
  · intro r hr hd
    exact absurd ((hdone r hr).symm.trans hd) (by decide)
  · intro _
    exact ⟨0, href, harr, ((hI.barrier.call c).should 0 true hc).symm⟩
  · intro ino' h
    have h : files.dir call.tempPath = some ino' := h
    rw [hgone hne] at h
    cases h

theorem conclude_self (h : (s.state ref).commitDone = true) :
    conclude ref (s.state ref).commitOk s = s := by
  have hst : ({ s.state ref with commitOk := (s.state ref).commitOk, commitDone := true } :
      HybridRangeCommitState) = s.state ref := by rw [← h]
  unfold conclude
  rw [hst, update_eq_self]

theorem CommitInv.wake (hI : CommitInv call files₀ s) (hc : s.call c = .wait ref)
    (hdone : (s.state ref).commitDone = true) : CommitInv call files₀ (leaveCommit c ref s) := by
  have hheld : (s.call c).held = some ref := by
    rw [hc]
    rfl
  have hfin := hI.finish hheld (hI.done ref ((hI.barrier.call c).held_lt ref hheld) hdone) fun c' _ h =>
    absurd (((hI.calls c').pending ref h).symm.trans hdone) (by decide)
  rwa [conclude_self hdone] at hfin

theorem joinCommit_pending {ok : Bool} (hstep : commitStepOk call (.enter c ok) s = true)
    (harr : ((joinCommit ok s).state (findState s).1).arrived = call.expectedParts)
    (hall : ((joinCommit ok s).state (findState s).1).allPartsOk = true) :
    ((joinCommit ok s).state (findState s).1).commitDone = false := by
  obtain ⟨hstate, -, -, -, hfound⟩ := joinCommit_fields ok s
  rw [hstate, update_self] at harr hall ⊢
  rcases hfound with ⟨hslot, hst, -⟩ | ⟨-, hst, -⟩
  · rw [hst] at harr hall ⊢
    have harr : (s.state (findState s).1).arrived + 1 = call.expectedParts := harr
    obtain ⟨hold, rfl⟩ := Bool.and_eq_true_iff.mp hall
    show (s.state (findState s).1).commitDone = false
    have hfree : ¬ (s.state (findState s).1).arrived + 1 = call.expectedParts ∨
        (s.state (findState s).1).commitDone = false := by
      simpa [commitStepOk, hslot, hold] using hstep
    exact hfree.resolve_left (not_not.mpr harr)
  · rw [hst]

section
variable (hI : CommitInv call files₀ s) (href : ref < s.nextState)
  (hearly : (s.state ref).arrived < call.expectedParts ∨ (s.state ref).allPartsOk = false)
include hI href hearly

theorem CommitInv.not_published_early : ¬ Published call files₀ s.files := by
  intro hpub
  -- a published file was counted in the only state, which is then complete
  obtain ⟨r, hr, harr, hall⟩ := hI.counted hpub
  obtain ⟨hone, rfl, -⟩ := hI.barrier.all_arrived hr harr
  obtain rfl : ref = 0 := by omega
  rcases hearly with h | h
  · omega
  · exact absurd (h.symm.trans hall) (by decide)

theorem CommitInv.not_pending (c : ℕ) : (s.call c).pending ≠ some ref := by
  intro h
  have hnot := hI.not_published_early href hearly
  have harr := (hI.barrier.call c).last ref (CommitPc.lastOf_of_pending h)
  have hall : (s.state ref).allPartsOk = false := hearly.resolve_left (by omega)
  cases hpc : s.call c with
  | publish r b =>
    have hb := (hI.barrier.call c).should r b hpc
    rw [hpc] at h
    cases b with
    | false => cases h
    | true =>
      obtain rfl : r = ref := some.inj h
      exact absurd (hb.trans hall) (by decide)
  | syncDir r => exact hnot (((hI.calls c).verdict true (by rw [hpc]; rfl)).mp rfl)
  | settle r b =>
    rw [hpc] at h
    cases b with
    | false => cases h
    | true => exact hnot (((hI.calls c).verdict true (by rw [hpc]; rfl)).mp rfl)
  | _ =>
    rw [hpc] at h
    cases h

end

theorem CommitMove.inv {e : CommitEvent} {s' : CommitSystem} (hne : call.tempPath ≠ call.finalPath)
    (hmove : CommitMove call s e s') (hok : commitStepOk call e s = true) (hI : CommitInv call files₀ s) :
    CommitInv call files₀ s' := by
  have hbarrier := hmove.barrier hI.barrier
  cases hmove with
  | last hidle hc harr =>
    refine hI.join hc hidle hbarrier nofun (fun _ h => by cases h) fun r h => ?_
    cases hall : ((joinCommit _ s).state (findState s).1).allPartsOk with
    | false =>
      rw [hall] at h
      cases h
    | true =>
      rw [hall] at h
      rw [← some.inj h]
      exact joinCommit_pending hok harr hall
  | @late c ok hidle hc hdone =>
    have hI' := hI.join hc hidle (hI.barrier.joinWait hc hidle ok) nofun (fun _ h => by cases h)
      fun r h => by cases h
    exact hI'.wake (update_self ..) hdone
  | wait hidle hc =>
    exact hI.join hc hidle hbarrier nofun (fun _ h => by cases h)
      fun r h => by cases h
  | renamed hc hfiles => exact hI.publish hc hne hfiles hbarrier
  | @dropped c ref b ok hc =>
    have hold := hI.calls c
    rw [hc] at hold
    exact hI.moveCall hbarrier rfl (fun _ h => h)
      ⟨hold.verdict, nofun, fun _ h => by cases h⟩
  | @synced c ref hc =>
    have hold := hI.calls c
    rw [hc] at hold
    exact hI.moveCall hbarrier rfl (fun _ h => h) ⟨hold.verdict, nofun, hold.pending⟩
  | unsynced _ => cases hok
  | @removed c ref ok hc =>
    have hold := hI.calls c
    rw [hc] at hold
    refine hI.moveCall hbarrier ?_ (fun ino h => ?_)
      ⟨hold.verdict, nofun, fun _ h => by cases h⟩
    · split
      · exact Files.remove_dir_ne hne.symm
      · rfl
    · split at h
      · have h : update s.files.dir call.tempPath none call.tempPath = some ino := h
        rw [update_self] at h
        cases h
      · exact h
  | @settled c ref ok hc =>
    have hlast : (s.call c).lastOf = some ref := by
      rw [hc]
      rfl
    refine hI.finish (CommitPc.held_of_lastOf hlast) ((hI.calls c).verdict ok ?_) fun c' hc' h => ?_
    · rw [hc]
      rfl
    · exact hc' (hI.barrier.single c' c ref ref (CommitPc.lastOf_of_pending h) hlast)
  | woken hc hdone => exact hI.wake hc hdone
  | @timedOut c ref hc hdone =>
    have hheld : (s.call c).held = some ref := by
      rw [hc]
      rfl
    have href := (hI.barrier.call c).held_lt ref hheld
    have hearly : (s.state ref).arrived < call.expectedParts ∨ (s.state ref).allPartsOk = false := by
      simpa [commitStepOk, hc] using hok
    refine hI.finish hheld ⟨fun h => (by cases h), fun h => ?_⟩ fun c' _ => hI.not_pending href hearly c'
    exact absurd h (hI.not_published_early href hearly)

end

/-- **Verdicts.**  In every run whose steps are of this kind, the calls that have returned agree, and
they report success exactly when the temporary file was published. -/
theorem commit_verdict_agrees {call : CommitCall} {files₀ : Files String UInt8} (hkey : call.key ≠ "")
    (hparts : 2 ≤ call.expectedParts) (hne : call.tempPath ≠ call.finalPath)
    (hlink : ∀ ino, files₀.dir call.tempPath = some ino → files₀.dir call.finalPath ≠ some ino)
    {es : List CommitEvent} {s : CommitSystem}
    (hok : Along (commitStep call) (fun e s => commitStepOk call e s = true) es { files := files₀ })
    (hrun : run (commitStep call) es { files := files₀ } = some s) :
    (∀ c c' ok ok', s.call c = .returned ok → s.call c' = .returned ok' → ok = ok') ∧
      ∀ c ok, s.call c = .returned ok → (ok = true ↔ Published call files₀ s.files) := by
  have hinit : CommitInv call files₀ { files := files₀ } := by
    have hnot : ¬ Published call files₀ files₀ := fun ⟨ino, htemp, hfinal⟩ => hlink ino htemp hfinal
    refine ⟨.init .., fun _ => ⟨?_, ?_, ?_⟩, ?_, fun h => absurd h hnot, fun _ h => h⟩
    all_goals intros; contradiction
  have hI : CommitInv call files₀ s := run_along
    (fun e s s' hI hok hstep => (commitStep_move hkey hparts hstep).inv hne hok hI) hinit hok hrun
  have hverdict : ∀ c ok, s.call c = .returned ok → (ok = true ↔ Published call files₀ s.files) := by
    intro c ok hc
    apply (hI.calls c).verdict
    rw [hc]
    rfl
  refine ⟨fun c c' ok ok' hc hc' => ?_, hverdict⟩
  exact Bool.eq_iff_iff.mpr ((hverdict c ok hc).trans (hverdict c' ok' hc').symm)

/-- two parts of block `0_0` -/
def pairCommit : CommitCall :=
  { key := "17600:0_0:t", expectedParts := 2, tempPath := "./storage/17600/0_0.recovery.hybrid.t"
    finalPath := "./storage/17600/0_0" }

def pairFiles : Files String UInt8 :=
  { dir := fun path => if path = pairCommit.tempPath then some 0 else none
    inode := fun _ => {}, next := 1 }

theorem commit_verdict_pair :
    ∃ s, run (commitStep pairCommit) [.enter 0 true, .enter 1 true, .publish 1 true, .syncDir 1 true,
        .settle 1, .wake 0] { files := pairFiles } = some s ∧
      s.call 0 = .returned true ∧ s.call 1 = .returned true ∧ Published pairCommit pairFiles s.files := by
  have hrun : run (commitStep pairCommit) [.enter 0 true, .enter 1 true, .publish 1 true,
    .syncDir 1 true, .settle 1, .wake 0] { files := pairFiles } = some _ := rfl
  have hlink : ∀ ino, pairFiles.dir pairCommit.tempPath = some ino →
      pairFiles.dir pairCommit.finalPath ≠ some ino := fun ino _ h => by cases h
  have hagree := commit_verdict_agrees (by decide) (by decide) (by decide) hlink (by decide +kernel) hrun
  exact ⟨_, hrun, rfl, rfl, (hagree.2 0 true rfl).mp rfl⟩

/-- a wait that times out between the renaming and the end of the publication: the waiting call
reports failure, the publishing one success, and the file is published -/
theorem commit_verdicts_differ :
    ∃ s, run (commitStep pairCommit) [.enter 0 true, .enter 1 true, .publish 1 true, .timeout 0,
        .syncDir 1 true, .settle 1] { files := pairFiles } = some s ∧
      s.call 0 = .returned false ∧ s.call 1 = .returned true ∧
      Published pairCommit pairFiles s.files :=
  ⟨_, rfl, rfl, rfl, 0, rfl, rfl⟩

end Mlrc
