import Mlrc.Data.Buffer

/-!
# Files

A directory maps paths to files.  A file that is open stays the same file when its path is renamed or
removed.  A sync makes what was written durable.

* `Files.openCreate`   the file at a path, made if there is none;
* `Files.pwrite`   a positional write;
* `Files.rename`   the file at a path takes the place of another one;
* `Files.Fresh`   every file in the directory has a number that was given out.
-/

namespace Mlrc

open Function

/-- what readers of a file see, and what the last sync has put on disk -/
structure Inode (α : Type*) where
  bytes : List α := []
  synced : List α := []

structure Files (π α : Type*) where
  dir : π → Option ℕ
  inode : ℕ → Inode α
  /-- the number of the next file that is made -/
  next : ℕ

namespace Files

variable {π α : Type*}

/-! ## Open files -/

def extend (ino len : ℕ) (fill : α) (fs : Files π α) : Files π α :=
  { fs with inode := update fs.inode ino { fs.inode ino with
      bytes := (fs.inode ino).bytes ++ List.replicate (len - (fs.inode ino).bytes.length) fill } }

/-- behind the end of the file the gap is filled -/
def pwrite (ino off : ℕ) (cells : List α) (fill : α) (fs : Files π α) : Files π α :=
  { fs with inode := update fs.inode ino { fs.inode ino with
      bytes := writeAt ((fs.inode ino).bytes ++
        List.replicate (off - (fs.inode ino).bytes.length) fill) off cells } }

def fsync (ino : ℕ) (fs : Files π α) : Files π α :=
  { fs with inode := update fs.inode ino { fs.inode ino with
      synced := (fs.inode ino).bytes } }

section
variable {fs : Files π α} {ino i : ℕ}

theorem inode_extend (fs : Files π α) (ino len : ℕ) (fill : α) :
    (fs.extend ino len fill).inode ino = { fs.inode ino with
      bytes := (fs.inode ino).bytes ++ List.replicate (len - (fs.inode ino).bytes.length) fill } :=
  update_self ..

theorem inode_extend_ne (h : i ≠ ino) (len : ℕ) (fill : α) :
    (fs.extend ino len fill).inode i = fs.inode i := update_of_ne h ..

theorem inode_fsync (fs : Files π α) (ino : ℕ) :
    (fs.fsync ino).inode ino = { fs.inode ino with synced := (fs.inode ino).bytes } :=
  update_self ..

theorem inode_fsync_ne (h : i ≠ ino) : (fs.fsync ino).inode i = fs.inode i := update_of_ne h ..

theorem inode_pwrite {off : ℕ} (h : off ≤ (fs.inode ino).bytes.length) (cells : List α) (fill : α) :
    (fs.pwrite ino off cells fill).inode ino = { fs.inode ino with
      bytes := writeAt (fs.inode ino).bytes off cells } := by
  show update fs.inode ino _ ino = _
  rw [update_self, Nat.sub_eq_zero_of_le h, List.replicate_zero, List.append_nil]

theorem inode_pwrite_ne (h : i ≠ ino) (off : ℕ) (cells : List α) (fill : α) :
    (fs.pwrite ino off cells fill).inode i = fs.inode i := update_of_ne h ..

end

/-! ## Paths -/

/-- the numbers in the directory were given out -/
def Fresh (fs : Files π α) : Prop := ∀ path ino, fs.dir path = some ino → ino < fs.next

variable [DecidableEq π]

def openCreate (path : π) (fs : Files π α) : ℕ × Files π α :=
  match fs.dir path with
  | some ino => (ino, fs)
  | none => (fs.next, { dir := update fs.dir path (some fs.next)
                        inode := update fs.inode fs.next {}
                        next := fs.next + 1 })

/-- `none` when there is no file at `src` -/
def rename (src dst : π) (fs : Files π α) : Option (Files π α) :=
  (fs.dir src).map fun ino =>
    { fs with dir := update (update fs.dir src none) dst (some ino) }

def remove (path : π) (fs : Files π α) : Files π α :=
  { fs with dir := update fs.dir path none }

section
variable {fs fs' : Files π α} {src dst path : π} {ino : ℕ}

theorem openCreate_of_some (h : fs.dir path = some ino) : fs.openCreate path = (ino, fs) := by
  unfold openCreate
  rw [h]

theorem openCreate_of_none (h : fs.dir path = none) : fs.openCreate path =
    (fs.next, { dir := update fs.dir path (some fs.next)
                inode := update fs.inode fs.next {}
                next := fs.next + 1 }) := by
  unfold openCreate
  rw [h]

theorem rename_dir (h : fs.rename src dst = some fs') :
    ∃ ino, fs.dir src = some ino ∧ fs'.dir dst = some ino ∧ (src ≠ dst → fs'.dir src = none) ∧
      (∀ path, path ≠ src → path ≠ dst → fs'.dir path = fs.dir path) ∧ fs'.inode = fs.inode ∧
      fs'.next = fs.next := by
  obtain ⟨ino, hsrc, rfl⟩ := Option.map_eq_some_iff.mp h
  refine ⟨ino, hsrc, update_self .., fun hne => ?_, fun path h₁ h₂ => ?_, rfl, rfl⟩
  · show update (update fs.dir src none) dst (some ino) src = none
    rw [update_of_ne hne, update_self]
  · show update (update fs.dir src none) dst (some ino) path = _
    rw [update_of_ne h₂, update_of_ne h₁]

theorem remove_dir_ne (h : path ≠ src) : (fs.remove src).dir path = fs.dir path :=
  update_of_ne h _ _

end

end Files

end Mlrc
