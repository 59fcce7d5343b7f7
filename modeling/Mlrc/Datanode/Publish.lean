import Mlrc.Datanode.RangeWrite

/-!
# All ranges or none

The final path keeps its file until the temporary file holds every range, and a published file is
complete and synced.

* `RangeStored`   a range is in a file, received in full and synced;
* `RangeInv`   the invariant of the handlers of a block;
* `rangeStep_inv`   every step keeps it;
* `range_commit_all_or_none`   what the final path holds in every state of every run.
-/

namespace Mlrc

open List Option Function

/-! ## Ranges in a file -/

/-- the first `m` bytes of a stream are at their place -/
def Received (info : RecoveryInfo) (m : ℕ) (file : Inode UInt8) : Prop :=
  m ≤ info.stream.length ∧ readAt file.bytes info.recoveryOffset m = info.stream.take m

/-- the range is complete, in a file of full size, and synced -/
structure RangeStored (blockSize : ℕ) (info : RecoveryInfo) (file : Inode UInt8) : Prop where
  size : blockSize ≤ file.bytes.length
  received : Received info info.recoverySize file
  synced : readAt file.synced info.recoveryOffset info.recoverySize =
    info.stream.take info.recoverySize

/-- what the steps of other handlers leave of a range -/
structure RangeKept (blockSize : ℕ) (info : RecoveryInfo) (file file' : Inode UInt8) : Prop where
  size : blockSize ≤ file.bytes.length → blockSize ≤ file'.bytes.length
  bytes : blockSize ≤ file.bytes.length → ∀ m ≤ info.recoverySize,
    readAt file'.bytes info.recoveryOffset m = readAt file.bytes info.recoveryOffset m
  synced : file'.synced = file.synced ∨ file'.synced = file.bytes

theorem RangeKept.refl (blockSize : ℕ) (info : RecoveryInfo) (file : Inode UInt8) :
    RangeKept blockSize info file file :=
  ⟨fun h => h, fun _ _ _ => rfl, .inl rfl⟩

section
variable {blockSize : ℕ} {info : RecoveryInfo} {file file' : Inode UInt8}

theorem Received.kept (hk : RangeKept blockSize info file file') (hsize : blockSize ≤ file.bytes.length)
    {m : ℕ} (hm : m ≤ info.recoverySize) (h : Received info m file) : Received info m file' :=
  ⟨h.1, (hk.bytes hsize m hm).trans h.2⟩

theorem RangeStored.kept (hk : RangeKept blockSize info file file')
    (h : RangeStored blockSize info file) : RangeStored blockSize info file' where
  size := hk.size h.size
  received := h.received.kept hk h.size le_rfl
  synced := by
    rcases hk.synced with heq | heq
    · rw [heq]
      exact h.synced
    · rw [heq]
      exact h.received.2

theorem rangeKept_extend (hin : info.recoveryOffset + info.recoverySize ≤ blockSize)
    (files : Files String UInt8) (fd : ℕ) :
    RangeKept blockSize info (files.inode fd) ((files.extend fd blockSize 0).inode fd) := by
  rw [Files.inode_extend]
  refine ⟨fun h => ?_, fun h m hm => readAt_append_left _ (by omega), .inl rfl⟩
  rw [length_append]
  exact h.trans (Nat.le_add_right _ _)

theorem length_extend (blockSize : ℕ) (files : Files String UInt8) (fd : ℕ) :
    blockSize ≤ ((files.extend fd blockSize 0).inode fd).bytes.length := by
  rw [Files.inode_extend, length_append, length_replicate]
  omega

theorem rangeKept_fsync (files : Files String UInt8) (fd : ℕ) :
    RangeKept blockSize info (files.inode fd) ((files.fsync fd).inode fd) := by
  rw [Files.inode_fsync]
  exact ⟨fun h => h, fun _ _ _ => rfl, .inr rfl⟩

theorem rangeKept_pwrite {files : Files String UInt8} {fd off : ℕ} {cells : List UInt8}
    (h : off + cells.length ≤ (files.inode fd).bytes.length)
    (hne : info.recoveryOffset + info.recoverySize ≤ off ∨ off + cells.length ≤ info.recoveryOffset) :
    RangeKept blockSize info (files.inode fd) ((files.pwrite fd off cells 0).inode fd) := by
  rw [Files.inode_pwrite (by omega)]
  refine ⟨fun hsize => ?_, fun _ m hm => readAt_writeAt_ne (by omega) (by omega), .inl rfl⟩
  rwa [length_writeAt h]

theorem Received.pwrite {files : Files String UInt8} {fd m n : ℕ}
    (h : Received info m (files.inode fd)) (hn : m + n ≤ info.stream.length)
    (hsize : info.recoveryOffset + (m + n) ≤ (files.inode fd).bytes.length) : Received info (m + n)
      ((files.pwrite fd (info.recoveryOffset + m) (readAt info.stream m n) 0).inode fd) := by
  have hlen : (readAt info.stream m n).length = n := length_readAt hn
  refine ⟨hn, ?_⟩
  rw [Files.inode_pwrite (by omega)]
  show readAt (writeAt _ _ _) _ _ = _
  have hend : readAt (writeAt (files.inode fd).bytes (info.recoveryOffset + m) (readAt info.stream m n))
      info.recoveryOffset (m + (readAt info.stream m n).length) =
        readAt (files.inode fd).bytes info.recoveryOffset m ++ readAt info.stream m n :=
    readAt_writeAt_end (by omega)
  rw [hlen] at hend
  rw [hend, h.2, take_add]
  rfl

end

/-! ## The invariant -/

def WriterPc.fd : WriterPc → Option ℕ
  | .start => none
  | .opened fd => some fd
  | .receive fd _ => some fd
  | .write fd _ _ _ => some fd
  | .flush fd _ => some fd
  | .commit fd _ _ => some fd
  | .finished _ => none

def WriterPc.writing : WriterPc → Bool
  | .commit _ _ _ => false
  | .finished _ => false
  | _ => true

def Progress (blockSize : ℕ) (info : RecoveryInfo) (files : Files String UInt8) : WriterPc → Prop
  | .start => True
  | .opened _ => True
  | .receive fd wrote => blockSize ≤ (files.inode fd).bytes.length ∧ wrote ≤ info.recoverySize ∧
    Received info wrote (files.inode fd)
  | .write fd wrote requested chunkWritten => blockSize ≤ (files.inode fd).bytes.length ∧
    wrote + requested ≤ info.recoverySize ∧ wrote + requested ≤ info.stream.length ∧
    chunkWritten ≤ requested ∧ Received info (wrote + chunkWritten) (files.inode fd)
  | .flush fd payloadOk => blockSize ≤ (files.inode fd).bytes.length ∧
    (payloadOk = true → Received info info.recoverySize (files.inode fd))
  | .commit fd _ durable => durable = true → RangeStored blockSize info (files.inode fd)
  | .finished _ => True

theorem Progress.kept {blockSize : ℕ} {info : RecoveryInfo} {files files' : Files String UInt8}
    {pc : WriterPc} (h : Progress blockSize info files pc)
    (hk : ∀ fd, pc.fd = some fd → RangeKept blockSize info (files.inode fd) (files'.inode fd)) :
    Progress blockSize info files' pc := by
  cases pc with
  | start => trivial
  | opened fd => trivial
  | receive fd wrote =>
    obtain ⟨hsize, hw, hrec⟩ := h
    exact ⟨(hk fd rfl).size hsize, hw, hrec.kept (hk fd rfl) hsize hw⟩
  | write fd wrote requested chunkWritten =>
    obtain ⟨hsize, hw, hs, hc, hrec⟩ := h
    exact ⟨(hk fd rfl).size hsize, hw, hs, hc, hrec.kept (hk fd rfl) hsize (by omega)⟩
  | flush fd payloadOk =>
    obtain ⟨hsize, hrec⟩ := h
    exact ⟨(hk fd rfl).size hsize, fun hok => (hrec hok).kept (hk fd rfl) hsize le_rfl⟩
  | commit fd payloadOk durable => exact fun hd => (h hd).kept (hk fd rfl)
  | finished ok => trivial

/-- the ranges lie in the block and do not overlap -/
structure Tiles (blockSize : ℕ) (infos : List RecoveryInfo) : Prop where
  inside : ∀ info ∈ infos, info.recoveryOffset + info.recoverySize ≤ blockSize
  disjoint : ∀ (i j : ℕ) (a b : RecoveryInfo), infos[i]? = some a → infos[j]? = some b → i ≠ j →
    a.recoveryOffset + a.recoverySize ≤ b.recoveryOffset ∨
      b.recoveryOffset + b.recoverySize ≤ a.recoveryOffset
  cover : ∀ x < blockSize, ∃ info ∈ infos, info.recoveryOffset ≤ x ∧
    x < info.recoveryOffset + info.recoverySize

/-- requests that are committed together by `call` -/
structure CommittedBy (dn : DatanodeConfig) (infos : List RecoveryInfo) (call : CommitCall) : Prop where
  parts : call.expectedParts = infos.length
  two : 2 ≤ call.expectedParts
  key : call.key ≠ ""
  ne : call.tempPath ≠ call.finalPath
  hybrid : ∀ info ∈ infos, hybridAtomicRange info = true
  call_eq : ∀ info ∈ infos, rangeCommitCall dn info = call
  tiles : Tiles dn.blockSize infos

/-- the final path has its old file, as it was -/
def KeepsFinal (call : CommitCall) (files₀ files : Files String UInt8) : Prop :=
  files.dir call.finalPath = files₀.dir call.finalPath ∧
    ∀ ino, files₀.dir call.finalPath = some ino → files.inode ino = files₀.inode ino

/-- a handler that has not entered the barrier writes to the temporary file -/
structure HandlerOk (dn : DatanodeConfig) (call : CommitCall) (info : RecoveryInfo)
    (files : Files String UInt8) (pc : WriterPc) : Prop where
  fd : ∀ fd, pc.fd = some fd → files.dir call.tempPath = some fd
  progress : Progress dn.blockSize info files pc

structure RangeInv (dn : DatanodeConfig) (infos : List RecoveryInfo) (call : CommitCall)
    (files₀ : Files String UInt8) (s : RangeSystem) : Prop where
  barrier : BarrierInv call.expectedParts s.commit
  writing : ∀ w, (s.writer w).writing = true → s.commit.call w = .idle
  handler : ∀ w info, infos[w]? = some info → s.commit.call w = .idle →
    HandlerOk dn call info s.commit.files (s.writer w)
  -- a part that has arrived is in the temporary file, or the state it joined knows that it failed
  arrived : ∀ w info, infos[w]? = some info → s.commit.call w ≠ .idle →
    (∀ ino, s.commit.files.dir call.tempPath = some ino →
      RangeStored dn.blockSize info (s.commit.files.inode ino)) ∨
    ∃ ref < s.commit.nextState, (s.commit.state ref).allPartsOk = false
  kept : ∀ w w', w < infos.length → s.commit.call w = .idle → s.commit.call w' ≠ .idle →
    ∃ ino, s.commit.files.dir call.tempPath = some ino
  temp : ∀ ino, s.commit.files.dir call.tempPath = some ino → files₀.dir call.finalPath ≠ some ino
  next : files₀.next ≤ s.commit.files.next
  final : KeepsFinal call files₀ s.commit.files ∨ (∀ w < infos.length, s.commit.call w ≠ .idle) ∧
    ∃ ino, s.commit.files.dir call.finalPath = some ino ∧
      ∀ info ∈ infos, RangeStored dn.blockSize info (s.commit.files.inode ino)

section
variable {dn : DatanodeConfig} {infos : List RecoveryInfo} {call : CommitCall}
  {files₀ : Files String UInt8} {s s' : RangeSystem} {w : ℕ} {info : RecoveryInfo}

/-! ## Steps of a handler -/

section
variable (hI : RangeInv dn infos call files₀ s)
include hI

theorem RangeInv.write (hw : infos[w]? = some info)
    (hidle : s.commit.call w = .idle) {pc : WriterPc} {files : Files String UInt8}
    (hfinal : files.dir call.finalPath = s.commit.files.dir call.finalPath)
    (hold : ∀ ino, files₀.dir call.finalPath = some ino →
      files.inode ino = s.commit.files.inode ino ∧ files.dir call.tempPath ≠ some ino)
    (hnext : s.commit.files.next ≤ files.next)
    (hkept : ∀ ino, s.commit.files.dir call.tempPath = some ino →
      files.dir call.tempPath = some ino ∧ ∀ w' info', w' ≠ w → infos[w']? = some info' →
        RangeKept dn.blockSize info' (s.commit.files.inode ino) (files.inode ino))
    (hok : HandlerOk dn call info files pc) : RangeInv dn infos call files₀ {
      commit := { s.commit with files }
      writer := update s.writer w pc } where
  barrier := { hI.barrier with }
  writing := (forall_update_iff s.writer fun w' pc => pc.writing = true →
    s.commit.call w' = .idle).mpr ⟨fun _ => hidle, fun w' _ => hI.writing w'⟩
  handler := by
    refine (forall_update_iff s.writer fun w' pc => ∀ info', infos[w']? = some info' →
      s.commit.call w' = .idle → HandlerOk dn call info' files pc).mpr ⟨?_, ?_⟩
    · intro info' hw' _
      rw [← some.inj (hw.symm.trans hw')]
      exact hok
    · intro w' hne info' hw' hc
      have h := hI.handler w' info' hw' hc
      exact ⟨fun fd hfd => (hkept fd (h.fd fd hfd)).1,
        h.progress.kept fun fd hfd => (hkept fd (h.fd fd hfd)).2 w' info' hne hw'⟩
  arrived := fun w' info' hw' hc => by
    refine (hI.arrived w' info' hw' hc).imp_left fun hall ino hino => ?_
    obtain ⟨ino', hino'⟩ := hI.kept w w' (List.getElem?_eq_some_iff.mp hw).1 hidle hc
    obtain ⟨hsame, hk⟩ := hkept ino' hino'
    obtain rfl := some.inj (hsame.symm.trans hino)
    exact (hall ino' hino').kept (hk w' info' (fun h => hc (h ▸ hidle)) hw')
  kept := fun w₁ w₂ hlt h₁ h₂ => (hI.kept w₁ w₂ hlt h₁ h₂).imp fun ino h => (hkept ino h).1
  temp := fun ino h hino => (hold ino hino).2 h
  next := hI.next.trans hnext
  final := by
    rcases hI.final with ⟨hf, hsame⟩ | ⟨hall, -⟩
    · exact .inl ⟨hfinal.trans hf, fun ino hino => (hold ino hino).1.trans (hsame ino hino)⟩
    · exact absurd hidle (hall w (List.getElem?_eq_some_iff.mp hw).1)

theorem RangeInv.create (hne : call.tempPath ≠ call.finalPath)
    (hfresh : files₀.Fresh) (hw : infos[w]? = some info) (hidle : s.commit.call w = .idle)
    (hnone : s.commit.files.dir call.tempPath = none) : RangeInv dn infos call files₀ {
      commit := { s.commit with files := {
        dir := update s.commit.files.dir call.tempPath (some s.commit.files.next)
        inode := update s.commit.files.inode s.commit.files.next {}
        next := s.commit.files.next + 1 } }
      writer := update s.writer w (.opened s.commit.files.next) } := by
  refine hI.write hw hidle (update_of_ne hne.symm _ _) (fun ino hino => ?_) (Nat.le_succ _)
    (fun ino h => ?_) ⟨fun fd h => ?_, trivial⟩
  · have hlt : ino < s.commit.files.next := (hfresh _ _ hino).trans_le hI.next
    refine ⟨update_of_ne hlt.ne _ _, ?_⟩
    simp only [update_self]
    exact fun h => hlt.ne' (some.inj h)
  · rw [hnone] at h
    cases h
  · simp only [update_self]
    exact h

theorem RangeInv.stay (hw : infos[w]? = some info) (hidle : s.commit.call w = .idle) {pc : WriterPc}
    (hfd : ∀ fd, pc.fd = some fd → s.commit.files.dir call.tempPath = some fd)
    (hprog : Progress dn.blockSize info s.commit.files pc) :
    RangeInv dn infos call files₀ { s with writer := update s.writer w pc } :=
  hI.write hw hidle rfl (fun ino hino => ⟨rfl, fun h => hI.temp ino h hino⟩) le_rfl
    (fun _ h => ⟨h, fun _ info' _ _ => RangeKept.refl _ info' _⟩) ⟨hfd, hprog⟩

theorem RangeInv.change (hw : infos[w]? = some info)
    (hidle : s.commit.call w = .idle) {pc pc' : WriterPc} {fd : ℕ} {files : Files String UInt8}
    (hpc : s.writer w = pc) (hfd : pc.fd = some fd) (hfd' : pc'.fd = some fd)
    (hdir : files.dir = s.commit.files.dir) (hnext : files.next = s.commit.files.next)
    (hother : ∀ ino ≠ fd, files.inode ino = s.commit.files.inode ino)
    (hkept : ∀ w' info', w' ≠ w → infos[w']? = some info' →
      RangeKept dn.blockSize info' (s.commit.files.inode fd) (files.inode fd))
    (hprog : Progress dn.blockSize info files pc') : RangeInv dn infos call files₀ {
      commit := { s.commit with files }
      writer := update s.writer w pc' } := by
  have htemp : s.commit.files.dir call.tempPath = some fd :=
    (hI.handler w info hw hidle).fd fd (by rw [hpc]; exact hfd)
  refine hI.write hw hidle (by rw [hdir]) (fun ino hino => ?_) hnext.ge (fun ino h => ?_)
    ⟨fun fd' h => ?_, hprog⟩
  · have hne : s.commit.files.dir call.tempPath ≠ some ino := fun h => hI.temp ino h hino
    rw [hdir]
    exact ⟨hother ino fun h => hne (h ▸ htemp), hne⟩
  · obtain rfl := some.inj (htemp.symm.trans h)
    rw [hdir]
    exact ⟨h, hkept⟩
  · rw [hdir, htemp, ← hfd', h]

section
variable (hcall : CommittedBy dn infos call)
include hcall

theorem writerStep_inv
    (hfresh : files₀.Fresh) (hw : infos[w]? = some info) {e : WriterEvent} {pc : WriterPc}
    {files : Files String UInt8}
    (hstep : writerStep dn info e (s.writer w) s.commit.files = some (pc, files)) :
    RangeInv dn infos call files₀ {
      commit := { s.commit with files }
      writer := update s.writer w pc } := by
  have hmem := mem_of_getElem? hw
  have hin := hcall.tiles.inside info hmem
  have hidle : (s.writer w).writing = true → s.commit.call w = .idle := hI.writing w
  have hprog := fun hc => (hI.handler w info hw hc).progress
  have hfd := fun fd hc => (hI.handler w info hw hc).fd fd
  generalize hpc : s.writer w = pc₀ at hstep hidle hprog hfd
  unfold writerStep at hstep
  split at hstep
  · cases hstep
    exact hI.stay hw (hidle rfl) (fun fd h => by cases h) trivial
  · cases hstep
    exact hI.stay hw (hidle rfl) (fun fd h => by cases h) trivial
  · -- the path is that of the temporary file
    have hpath : rangeWritepath dn info = call.tempPath := by
      rw [← hcall.call_eq info hmem]
      rfl
    split at hstep
    · rw [hpath] at hstep
      cases htemp : s.commit.files.dir call.tempPath with
      | some ino =>
        rw [Files.openCreate_of_some htemp] at hstep
        cases hstep
        refine hI.stay hw (hidle rfl) (fun fd h => ?_) trivial
        rw [htemp]
        exact h
      | none =>
        rw [Files.openCreate_of_none htemp] at hstep
        cases hstep
        exact hI.create hcall.ne hfresh hw (hidle rfl) htemp
    · cases hstep
  · next fd =>
    cases hstep
    refine hI.change hw (hidle rfl) hpc rfl rfl rfl rfl
      (fun ino h => Files.inode_extend_ne h _ _) (fun w' info' _ hw' => ?_) ?_
    · exact rangeKept_extend (hcall.tiles.inside info' (mem_of_getElem? hw')) _ fd
    · refine ⟨length_extend _ _ fd, Nat.zero_le _, Nat.zero_le _, ?_⟩
      rfl
  · next ok fd wrote =>
    obtain ⟨hsize, hle, hrec⟩ := hprog (hidle rfl)
    have hdir := hfd fd (hidle rfl) rfl
    split at hstep
    · next hmore =>
      simp only at hstep
      split at hstep
      · split at hstep
        · next havail =>
          cases hstep
          refine hI.stay hw (hidle rfl) (fun fd' h => (hdir.trans h)) ?_
          refine ⟨hsize, by omega, havail, Nat.zero_le _, ?_⟩
          rw [Nat.add_zero]
          exact hrec
        · cases hstep
      · cases hstep
        exact hI.stay hw (hidle rfl) (fun fd' h => hdir.trans h) ⟨hsize, nofun⟩
    · cases hstep
  · next fd wrote =>
    obtain ⟨hsize, hle, hrec⟩ := hprog (hidle rfl)
    have hdir := hfd fd (hidle rfl) rfl
    split at hstep
    · next hall =>
      cases hstep
      exact hI.stay hw (hidle rfl) (fun fd' h => hdir.trans h) ⟨hsize, fun _ => hall ▸ hrec⟩
    · cases hstep
  · next n fd wrote requested chunkWritten =>
    obtain ⟨hsize, hle, hs, hcw, hrec⟩ := hprog (hidle rfl)
    have hdir := hfd fd (hidle rfl) rfl
    split at hstep
    · cases hstep
      exact hI.stay hw (hidle rfl) (fun fd' h => hdir.trans h) ⟨hsize, nofun⟩
    · next hn =>
      split at hstep
      · next hfit =>
        cases hstep
        have hlen : (readAt info.stream (wrote + chunkWritten) n).length = n :=
          length_readAt (by omega)
        have hend : info.recoveryOffset + (wrote + chunkWritten + n) ≤
            (s.commit.files.inode fd).bytes.length := by omega
        have hrec' := hrec.pwrite (show wrote + chunkWritten + n ≤ info.stream.length by omega) hend
        have hsize' : dn.blockSize ≤ ((s.commit.files.pwrite fd (info.recoveryOffset +
            (wrote + chunkWritten)) (readAt info.stream (wrote + chunkWritten) n) 0).inode
              fd).bytes.length := by
          rw [Files.inode_pwrite (by omega), length_writeAt (by omega)]
          exact hsize
        refine hI.change hw (hidle rfl) hpc rfl ?_ rfl rfl
          (fun ino h => Files.inode_pwrite_ne h _ _ _) (fun w' info' hne hw' => ?_) ?_
        · split <;> rfl
        · refine rangeKept_pwrite (by omega) ?_
          have hdis := hcall.tiles.disjoint w' w info' info hw' hw hne
          omega
        · split
          · next hdone =>
            refine ⟨hsize', by omega, ?_⟩
            rw [← hdone, ← Nat.add_assoc]
            exact hrec'
          · refine ⟨hsize', hle, hs, hfit, ?_⟩
            rw [← Nat.add_assoc]
            exact hrec'
      · cases hstep
  · next ok fd payloadOk =>
    obtain ⟨hsize, hrec⟩ := hprog (hidle rfl)
    have hdir := hfd fd (hidle rfl) rfl
    rw [if_pos (hcall.hybrid info hmem)] at hstep
    cases hstep
    cases hdur : payloadOk && ok with
    | false => exact hI.stay hw (hidle rfl) (fun fd' h => hdir.trans h) nofun
    | true =>
      refine hI.change hw (hidle rfl) hpc rfl rfl rfl rfl (fun ino h => Files.inode_fsync_ne h)
        (fun w' info' _ _ => rangeKept_fsync _ fd) fun _ => ?_
      have hall := hrec (Bool.and_eq_true_iff.mp hdur).1
      show RangeStored dn.blockSize info ((s.commit.files.fsync fd).inode fd)
      rw [Files.inode_fsync]
      exact ⟨hsize, hall, hall.2⟩
  · cases hstep

/-! ## Steps of the barrier -/

theorem RangeInv.no_idle {c ref : ℕ} (hlast : (s.commit.call c).lastOf = some ref) :
    s.commit.nextState = 1 ∧ ref = 0 ∧ ∀ w < infos.length, s.commit.call w ≠ .idle := by
  rw [← hcall.parts]
  exact hI.barrier.all_arrived ((hI.barrier.call c).held_lt ref (CommitPc.held_of_lastOf hlast))
    ((hI.barrier.call c).last ref hlast)

theorem RangeInv.stored {c ref ino : ℕ} (hpub : s.commit.call c = .publish ref true)
    (hino : s.commit.files.dir call.tempPath = some ino) :
    ∀ info ∈ infos, RangeStored dn.blockSize info (s.commit.files.inode ino) := by
  intro info hmem
  obtain ⟨w, hw⟩ := mem_iff_getElem?.mp hmem
  obtain ⟨hone, rfl, hall⟩ := hI.no_idle hcall (c := c) (by rw [hpub]; rfl)
  rcases hI.arrived w info hw (hall w (List.getElem?_eq_some_iff.mp hw).1) with h | ⟨r, hr, hbad⟩
  · exact h ino hino
  · -- the only state counts all parts as good
    obtain rfl : r = 0 := by omega
    exact absurd (((hI.barrier.call c).should 0 true hpub).trans hbad) (by decide)

theorem commitMove_inv
    {e : CommitEvent} {commit : CommitSystem} (hmove : CommitMove call s.commit e commit)
    (henter : ∀ w ok, e = .enter w ok → ∃ fd payloadOk, s.writer w = .commit fd payloadOk ok) :
    RangeInv dn infos call files₀ { s with commit } := by
  have heff := hmove.effect hI.barrier
  have hidle : ∀ w, commit.call w = .idle → s.commit.call w = .idle := fun w h =>
    by_contra fun hne => heff.stays w hne h
  -- the files are touched only when no handler is to come
  have hfiles : ∀ w < infos.length, commit.call w = .idle → commit.files = s.commit.files := by
    intro w hw hc
    rcases heff.files with h | ⟨c, ref, hlast, -⟩ | ⟨c, ref, hpub, -⟩
    · exact h
    · exact absurd (hidle w hc) ((hI.no_idle hcall hlast).2.2 w hw)
    · exact absurd (hidle w hc) ((hI.no_idle hcall (c := c) (by rw [hpub]; rfl)).2.2 w hw)
  have htemp : ∀ ino, commit.files.dir call.tempPath = some ino → commit.files = s.commit.files := by
    intro ino h
    rcases heff.files with hsame | ⟨c, ref, -, hrem⟩ | ⟨c, ref, -, hren⟩
    · exact hsame
    · rw [hrem] at h
      have h : update s.commit.files.dir call.tempPath none call.tempPath = some ino := h
      rw [update_self] at h
      cases h
    · obtain ⟨_, -, -, hgone, -⟩ := Files.rename_dir hren
      rw [hgone hcall.ne] at h
      cases h
  constructor
  · exact hmove.barrier hI.barrier
  · intro w hwr
    by_contra hne
    obtain ⟨ok, he, -⟩ := heff.enters w (hI.writing w hwr) hne
    obtain ⟨fd, payloadOk, hpc⟩ := henter w ok he
    have hwr : (s.writer w).writing = true := hwr
    rw [hpc] at hwr
    cases hwr
  · intro w info hw hc
    show HandlerOk dn call info commit.files (s.writer w)
    rw [hfiles w (List.getElem?_eq_some_iff.mp hw).1 hc]
    exact hI.handler w info hw (hidle w hc)
  · intro w info hw hc
    by_cases hold : s.commit.call w = .idle
    · obtain ⟨ok, he, hbad⟩ := heff.enters w hold hc
      cases ok with
      | false => exact .inr (hbad rfl)
      | true =>
        refine .inl fun ino hino => ?_
        obtain ⟨fd, payloadOk, hpc⟩ := henter w true he
        obtain ⟨hfd, hprog⟩ := hI.handler w info hw hold
        rw [hpc] at hfd hprog
        have hsame := htemp ino hino
        have hino : commit.files.dir call.tempPath = some ino := hino
        show RangeStored dn.blockSize info (commit.files.inode ino)
        rw [hsame] at hino ⊢
        obtain rfl := some.inj ((hfd fd rfl).symm.trans hino)
        exact hprog rfl
    · rcases hI.arrived w info hw hold with h | h
      · refine .inl fun ino hino => ?_
        have hsame := htemp ino hino
        have hino : commit.files.dir call.tempPath = some ino := hino
        show RangeStored dn.blockSize info (commit.files.inode ino)
        rw [hsame] at hino ⊢
        exact h ino hino
      · exact .inr (heff.failed h)
  · intro w w' hw hc hc'
    show ∃ ino, commit.files.dir call.tempPath = some ino
    rw [hfiles w hw hc]
    by_cases hold : s.commit.call w' = .idle
    · obtain ⟨ok, he, -⟩ := heff.enters w' hold hc'
      obtain ⟨fd, payloadOk, hpc⟩ := henter w' ok he
      cases hmove with
      | last _ hlt _ | late _ hlt _ | wait _ hlt =>
        cases he
        rw [hcall.parts] at hlt
        have hok := hI.handler w' _ (List.getElem?_eq_getElem hlt) hold
        exact ⟨fd, hok.fd fd (by rw [hpc]; rfl)⟩
      | _ => cases he
    · exact hI.kept w w' hw (hidle w hc) hold
  · intro ino h
    have hsame := htemp ino h
    have h : commit.files.dir call.tempPath = some ino := h
    rw [hsame] at h
    exact hI.temp ino h
  · show _ ≤ commit.files.next
    rcases heff.files with hsame | ⟨c, ref, -, hrem⟩ | ⟨c, ref, -, hren⟩
    · rw [hsame]
      exact hI.next
    · rw [hrem]
      exact hI.next
    · obtain ⟨_, -, -, -, -, -, hnext⟩ := Files.rename_dir hren
      rw [hnext]
      exact hI.next
  · have hall : (∀ w < infos.length, s.commit.call w ≠ .idle) →
        ∀ w < infos.length, commit.call w ≠ .idle := fun h w hw => heff.stays w (h w hw)
    show KeepsFinal call files₀ commit.files ∨ _ ∧ ∃ ino, commit.files.dir call.finalPath = some ino ∧
      ∀ info ∈ infos, RangeStored dn.blockSize info (commit.files.inode ino)
    rcases heff.files with hsame | ⟨c, ref, -, hrem⟩ | ⟨c, ref, hpub, hren⟩
    · rw [hsame]
      exact hI.final.imp_right fun h => ⟨hall h.1, h.2⟩
    · have hdir : commit.files.dir call.finalPath = s.commit.files.dir call.finalPath := by
        rw [hrem]
        exact Files.remove_dir_ne hcall.ne.symm
      have hinode : commit.files.inode = s.commit.files.inode := by
        rw [hrem]
        rfl
      unfold KeepsFinal
      rw [hdir, hinode]
      exact hI.final.imp_right fun h => ⟨hall h.1, h.2⟩
    · obtain ⟨ino, hsrc, hdst, -, -, hinode, -⟩ := Files.rename_dir hren
      refine .inr ⟨hall (hI.no_idle hcall (c := c) (by rw [hpub]; rfl)).2.2, ino, hdst, ?_⟩
      rw [hinode]
      exact hI.stored hcall hpub hsrc

end

/-! ## Runs -/

theorem RangeInv.finish (hc : s.commit.call w ≠ .idle) (ok : Bool) :
    RangeInv dn infos call files₀ { s with writer := update s.writer w (.finished ok) } where
  barrier := hI.barrier
  writing := (forall_update_iff s.writer fun w' pc => pc.writing = true →
    s.commit.call w' = .idle).mpr ⟨nofun, fun w' _ => hI.writing w'⟩
  handler := (forall_update_iff s.writer fun w' pc => ∀ info, infos[w']? = some info →
    s.commit.call w' = .idle → HandlerOk dn call info s.commit.files pc).mpr
    ⟨fun _ _ h => absurd h hc, fun w' _ => hI.handler w'⟩
  arrived := hI.arrived
  kept := hI.kept
  temp := hI.temp
  next := hI.next
  final := hI.final

end

theorem rangeStep_inv (hcall : CommittedBy dn infos call) (hfresh : files₀.Fresh) (e : RangeEvent)
    (s s' : RangeSystem) (hI : RangeInv dn infos call files₀ s)
    (hstep : rangeStep dn infos e s = some s') : RangeInv dn infos call files₀ s' := by
  have hmove : ∀ {info e commit}, info ∈ infos →
      commitStep (rangeCommitCall dn info) e s.commit = some commit →
        CommitMove call s.commit e commit := by
    intro info e commit hmem h
    rw [hcall.call_eq info hmem] at h
    exact commitStep_move hcall.key hcall.two h
  cases e with
  | writer w e =>
    obtain ⟨info, hw, h⟩ := bind_eq_some_iff.mp hstep
    obtain ⟨⟨pc, files⟩, hwriter, rfl⟩ := map_eq_some_iff.mp h
    exact writerStep_inv hI hcall hfresh hw hwriter
  | enter w =>
    obtain ⟨info, hw, h⟩ := bind_eq_some_iff.mp hstep
    split at h
    · next fd payloadOk durable hpc =>
      obtain ⟨commit, hcommit, rfl⟩ := map_eq_some_iff.mp h
      refine commitMove_inv hI hcall (hmove (mem_of_getElem? hw) hcommit) fun w' ok he => ?_
      cases he
      exact ⟨fd, payloadOk, hpc⟩
    · cases h
  | commit w e =>
    obtain ⟨info, hw, h⟩ := bind_eq_some_iff.mp hstep
    split at h
    · next hcaller =>
      obtain ⟨commit, hcommit, rfl⟩ := map_eq_some_iff.mp h
      refine commitMove_inv hI hcall (hmove (mem_of_getElem? hw) hcommit) fun w' ok he => ?_
      rw [he] at hcaller
      cases hcaller
    · cases h
  | finish w =>
    simp only [rangeStep] at hstep
    split at hstep
    · next hc =>
      cases hstep
      exact hI.finish (by rw [hc]; simp) _
    · cases hstep

theorem rangeInit_inv (hlink : ∀ ino, files₀.dir call.tempPath = some ino →
    files₀.dir call.finalPath ≠ some ino) :
    RangeInv dn infos call files₀ { commit := { files := files₀ } } where
  barrier := .init ..
  writing := fun _ _ => rfl
  handler := fun _ _ _ _ => ⟨nofun, trivial⟩
  arrived := fun _ _ _ h => absurd rfl h
  kept := fun _ _ _ _ h => absurd rfl h
  temp := hlink
  next := le_rfl
  final := .inl ⟨rfl, fun _ _ => rfl⟩

end

theorem committedBy_of_requests {dn : DatanodeConfig} {infos : List RecoveryInfo}
    {blockKey token : String} (htoken : token ≠ "") (hparts : 2 ≤ infos.length)
    (hinfos : ∀ info ∈ infos, info.blockKey = blockKey ∧ info.recoveryCommitToken = token ∧
      info.recoveryDeferFsync = true ∧ info.recoveryCommitParts = infos.length ∧
      0 < info.recoverySize) (htiles : Tiles dn.blockSize infos) : CommittedBy dn infos {
      key := toString dn.port ++ ":" ++ blockKey ++ ":" ++ token
      expectedParts := infos.length
      tempPath := datanodeStorageDir dn ++ blockKey ++ ".recovery.hybrid." ++ token
      finalPath := datanodeStorageDir dn ++ blockKey } := by
  have hhybrid : ∀ info ∈ infos, hybridAtomicRange info = true := by
    intro info hmem
    obtain ⟨-, htok, hdefer, hcount, hsize⟩ := hinfos info hmem
    unfold hybridAtomicRange
    rw [htok, hdefer, hcount, decide_eq_true hsize, decide_eq_true htoken,
      decide_eq_true (show 1 < infos.length by omega)]
    rfl
  refine ⟨rfl, hparts, fun h => ?_, fun h => ?_, hhybrid, fun info hmem => ?_, htiles⟩
  · have hlen := congrArg String.length h
    simp at hlen
  · have hlen : (datanodeStorageDir dn ++ blockKey ++ ".recovery.hybrid." ++ token).length =
      (datanodeStorageDir dn ++ blockKey).length := congrArg String.length h
    rw [String.length_append, String.length_append,
      show ".recovery.hybrid.".length = 17 from rfl] at hlen
    omega
  · obtain ⟨hkey, htok, -, hcount, -⟩ := hinfos info hmem
    unfold rangeCommitCall rangeWritepath writepath
    rw [if_pos (hhybrid info hmem), hkey, htok, hcount]

/-- **All ranges or none.**  In every state of every run of the handlers of a block, the final path has
its old file, unchanged, or a file in which every range was received in full, written at its offset
and synced. -/
theorem range_commit_all_or_none {dn : DatanodeConfig} {infos : List RecoveryInfo}
    {blockKey token : String} {files₀ : Files String UInt8} (htoken : token ≠ "")
    (hparts : 2 ≤ infos.length)
    (hinfos : ∀ info ∈ infos, info.blockKey = blockKey ∧ info.recoveryCommitToken = token ∧
      info.recoveryDeferFsync = true ∧ info.recoveryCommitParts = infos.length ∧
      0 < info.recoverySize)
    (htiles : Tiles dn.blockSize infos) (hfresh : files₀.Fresh)
    (hlink : ∀ ino,
      files₀.dir (datanodeStorageDir dn ++ blockKey ++ ".recovery.hybrid." ++ token) = some ino →
      files₀.dir (datanodeStorageDir dn ++ blockKey) ≠ some ino)
    {es : List RangeEvent} {s : RangeSystem}
    (hrun : run (rangeStep dn infos) es { commit := { files := files₀ } } = some s) :
    (s.commit.files.dir (datanodeStorageDir dn ++ blockKey) =
        files₀.dir (datanodeStorageDir dn ++ blockKey) ∧
      ∀ ino, files₀.dir (datanodeStorageDir dn ++ blockKey) = some ino →
        s.commit.files.inode ino = files₀.inode ino) ∨
    ∃ ino, s.commit.files.dir (datanodeStorageDir dn ++ blockKey) = some ino ∧
      (∀ info ∈ infos, RangeStored dn.blockSize info (s.commit.files.inode ino)) ∧
      ∀ x < dn.blockSize, ∃ info ∈ infos, info.recoveryOffset ≤ x ∧
        (s.commit.files.inode ino).bytes[x]? = info.stream[x - info.recoveryOffset]? ∧
        (s.commit.files.inode ino).synced[x]? = info.stream[x - info.recoveryOffset]? := by
  have hcall := committedBy_of_requests htoken hparts hinfos htiles
  have hI := run_invariant (rangeStep_inv hcall hfresh) (rangeInit_inv hlink) hrun
  refine hI.final.imp_right fun ⟨_, ino, hino, hall⟩ => ⟨ino, hino, hall, fun x hx => ?_⟩
  obtain ⟨info, hmem, hlo, hhi⟩ := htiles.cover x hx
  -- a byte of the file is that of the stream of its range
  have hcell : ∀ buf : List UInt8, readAt buf info.recoveryOffset info.recoverySize =
      info.stream.take info.recoverySize → buf[x]? = info.stream[x - info.recoveryOffset]? := by
    intro buf h
    have hget := congrArg (·[x - info.recoveryOffset]?) h
    simp only [getElem?_readAt, getElem?_take] at hget
    rw [if_pos (by omega), if_pos (by omega), Nat.add_sub_cancel' hlo] at hget
    exact hget
  obtain ⟨-, hrec, hsync⟩ := hall info hmem
  exact ⟨info, hmem, hlo, hcell _ hrec.2, hcell _ hsync⟩

/-! ## Two ranges of a small block -/

def pairDatanode : DatanodeConfig := { port := 17600, storageRoot := "./storage", blockSize := 2 }

def pairRange (offset : ℕ) (byte : UInt8) : RecoveryInfo :=
  { blockKey := "0_0", recoveryOffset := offset, recoverySize := 1, recoveryDeferFsync := true
    recoveryCommitToken := "t", recoveryCommitParts := 2, stream := [byte] }

def oldBlock : Files String UInt8 :=
  { dir := fun path => if path = "./storage/17600/0_0" then some 0 else none
    inode := fun _ => { bytes := [1, 2], synced := [1, 2] }, next := 1 }

/-- both handlers write, and the second one publishes -/
def pairWrites : List RangeEvent :=
  ([0, 1].flatMap fun w => [.writer w .openRange, .writer w .sizeRange, .writer w (.read true),
    .writer w (.pwrite 1), .writer w .endOfStream, .writer w (.fsync true), .enter w]) ++
  [.commit 1 (.publish 1 true), .commit 1 (.syncDir 1 true), .commit 1 (.settle 1), .commit 0 (.wake 0),
    .finish 0, .finish 1]

theorem range_commit_pair :
    ∃ s, run (rangeStep pairDatanode [pairRange 0 7, pairRange 1 8]) pairWrites
        { commit := { files := oldBlock } } = some s ∧
      s.writer 0 = .finished true ∧ s.writer 1 = .finished true ∧
      ∃ ino, s.commit.files.dir "./storage/17600/0_0" = some ino ∧
        ∀ info ∈ [pairRange 0 7, pairRange 1 8], RangeStored 2 info (s.commit.files.inode ino) := by
  have hrun : (run (rangeStep pairDatanode [pairRange 0 7, pairRange 1 8]) pairWrites
      { commit := { files := oldBlock } }).map (fun s => (s.writer 0, s.writer 1,
        s.commit.files.dir "./storage/17600/0_0")) =
        some (.finished true, .finished true, some 1) := by decide +kernel
  obtain ⟨s, hs, hend⟩ := map_eq_some_iff.mp hrun
  obtain ⟨h0, hend⟩ := Prod.mk.inj hend
  obtain ⟨h1, hfinal⟩ := Prod.mk.inj hend
  have htiles : Tiles pairDatanode.blockSize [pairRange 0 7, pairRange 1 8] := by
    refine ⟨by decide, fun i j a b hi hj hne => ?_, by decide⟩
    match i, j, hi, hj with
    | 0, 1, rfl, rfl => exact .inl (by decide)
    | 1, 0, rfl, rfl => exact .inr (by decide)
    | 0, 0, _, _ => exact absurd rfl hne
    | 1, 1, _, _ => exact absurd rfl hne
  have hfresh : oldBlock.Fresh := by
    intro path ino h
    have h : (if path = "./storage/17600/0_0" then some 0 else none) = some ino := h
    split at h
    · cases h
      exact Nat.zero_lt_one
    · cases h
  have hblock := range_commit_all_or_none (show "t" ≠ "" by decide) (by decide)
    (show ∀ info ∈ [pairRange 0 7, pairRange 1 8], info.blockKey = "0_0" ∧ _ by decide) htiles hfresh
    (fun ino h => by cases h) hs
  rcases hblock with ⟨hsame, -⟩ | ⟨ino, hino, hall, -⟩
  · exact absurd (hsame.symm.trans hfinal) (by decide)
  · exact ⟨s, hs, h0, h1, ino, hino, hall⟩

end Mlrc
