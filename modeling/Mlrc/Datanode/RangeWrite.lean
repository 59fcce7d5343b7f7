import Mlrc.Datanode.Commit

/-!
# Writing the ranges of a recovered block

The handlers of one block write their ranges to a temporary file, sync it and meet at the commit
barrier.

* `hybridAtomicRange`   when a range goes to a temporary file;
* `writerStep`   one step of a handler up to the barrier;
* `rangeStep`   one step of all handlers of a block.
-/

namespace Mlrc

/-- the fields of `MergeParityInfo` that a recovery reads, and the bytes its stream carries -/
structure RecoveryInfo where
  blockKey : String
  recoveryOffset : ℕ
  recoverySize : ℕ
  recoveryDeferFsync : Bool
  recoveryCommitToken : String
  recoveryCommitParts : ℕ
  stream : List UInt8
deriving DecidableEq, Repr

structure DatanodeConfig where
  port : ℕ
  storageRoot : String
  blockSize : ℕ
deriving DecidableEq, Repr

def datanodeStorageDir (dn : DatanodeConfig) : String :=
  dn.storageRoot ++ "/" ++ toString dn.port ++ "/"

def writepath (dn : DatanodeConfig) (info : RecoveryInfo) : String :=
  datanodeStorageDir dn ++ info.blockKey

/-- the range is committed with the others of its block -/
def hybridAtomicRange (info : RecoveryInfo) : Bool :=
  decide (0 < info.recoverySize) && info.recoveryDeferFsync && decide (info.recoveryCommitToken ≠ "") &&
    decide (1 < info.recoveryCommitParts)

def rangeWritepath (dn : DatanodeConfig) (info : RecoveryInfo) : String :=
  if hybridAtomicRange info then
    writepath dn info ++ ".recovery.hybrid." ++ info.recoveryCommitToken
  else writepath dn info

/-- the arguments of `coordinate_hybrid_range_commit` -/
def rangeCommitCall (dn : DatanodeConfig) (info : RecoveryInfo) : CommitCall where
  key := toString dn.port ++ ":" ++ info.blockKey ++ ":" ++ info.recoveryCommitToken
  expectedParts := info.recoveryCommitParts
  tempPath := rangeWritepath dn info
  finalPath := writepath dn info

def kStreamChunkBytes : ℕ := 1024 * 1024

/-- where a handler is; `receive` is the head of the loop of `stream_to_range`, `write` the loop of
its positional writes, `commit` the call of the barrier -/
inductive WriterPc where
  | start
  | opened (fd : ℕ)
  | receive (fd wrote : ℕ)
  | write (fd wrote requested chunkWritten : ℕ)
  | flush (fd : ℕ) (payloadOk : Bool)
  | commit (fd : ℕ) (payloadOk durable : Bool)
  | finished (ok : Bool)
deriving DecidableEq, Repr

inductive WriterEvent where
  /-- the stream is not routed, or the file is not opened or not sized -/
  | fail
  | openRange
  | sizeRange
  | read (ok : Bool)
  | endOfStream
  /-- `n` bytes are written, 0 when the call fails -/
  | pwrite (n : ℕ)
  | fsync (ok : Bool)
deriving DecidableEq, Repr

/-- one step of a handler of a request with a size, up to the barrier -/
def writerStep (dn : DatanodeConfig) (info : RecoveryInfo) :
    WriterEvent → WriterPc → Files String UInt8 → Option (WriterPc × Files String UInt8)
  | .fail, .start, files => some (.finished false, files)
  | .fail, .opened _, files => some (.finished false, files)
  | .openRange, .start, files =>
    if 0 < info.recoverySize then
      some (.opened (files.openCreate (rangeWritepath dn info)).1,
        (files.openCreate (rangeWritepath dn info)).2)
    else none
  | .sizeRange, .opened fd, files => some (.receive fd 0, files.extend fd dn.blockSize 0)
  | .read ok, .receive fd wrote, files =>
    if wrote < info.recoverySize then
      let requested := min (min kStreamChunkBytes info.recoverySize) (info.recoverySize - wrote)
      if ok then
        if wrote + requested ≤ info.stream.length then some (.write fd wrote requested 0, files)
        else none
      else some (.flush fd false, files)
    else none
  | .endOfStream, .receive fd wrote, files =>
    if wrote = info.recoverySize then some (.flush fd true, files) else none
  | .pwrite n, .write fd wrote requested chunkWritten, files =>
    if n = 0 then some (.flush fd false, files)
    else if chunkWritten + n ≤ requested then
      some (if chunkWritten + n = requested then .receive fd (wrote + requested)
          else .write fd wrote requested (chunkWritten + n),
        files.pwrite fd (info.recoveryOffset + (wrote + chunkWritten))
          (readAt info.stream (wrote + chunkWritten) n) 0)
    else none
  | .fsync ok, .flush fd payloadOk, files =>
    if hybridAtomicRange info then
      some (.commit fd payloadOk (payloadOk && ok), if payloadOk && ok then files.fsync fd else files)
    else if info.recoveryDeferFsync then some (.finished payloadOk, files)
    else some (.finished (payloadOk && ok), if ok then files.fsync fd else files)
  | _, _, _ => none

structure RangeSystem where
  commit : CommitSystem
  writer : ℕ → WriterPc := fun _ => .start

inductive RangeEvent where
  | writer (w : ℕ) (e : WriterEvent)
  /-- a handler calls the barrier with the durability of its range -/
  | enter (w : ℕ)
  /-- any other step of the barrier call of a handler -/
  | commit (w : ℕ) (e : CommitEvent)
  | finish (w : ℕ)
deriving DecidableEq, Repr

/-- the handler whose barrier call makes a step; `none` for an arrival -/
def CommitEvent.caller : CommitEvent → Option ℕ
  | .enter _ _ => none
  | .publish c _ => some c
  | .syncDir c _ => some c
  | .removeTemp c _ => some c
  | .settle c => some c
  | .wake c => some c
  | .timeout c => some c

/-- one step of the handlers of requests with one block key and token -/
def rangeStep (dn : DatanodeConfig) (infos : List RecoveryInfo) :
    RangeEvent → RangeSystem → Option RangeSystem
  | .writer w e, s =>
    infos[w]?.bind fun info => (writerStep dn info e (s.writer w) s.commit.files).map fun p =>
      { commit := { s.commit with files := p.2 }, writer := Function.update s.writer w p.1 }
  | .enter w, s =>
    infos[w]?.bind fun info =>
      match s.writer w with
      | .commit _ _ durable =>
        (commitStep (rangeCommitCall dn info) (.enter w durable) s.commit).map fun commit =>
          { s with commit }
      | _ => none
  | .commit w e, s =>
    infos[w]?.bind fun info =>
      if e.caller = some w then
        (commitStep (rangeCommitCall dn info) e s.commit).map fun commit => { s with commit }
      else none
  | .finish w, s =>
    match s.writer w, s.commit.call w with
    | .commit _ payloadOk _, .returned ok =>
      some { s with writer := Function.update s.writer w (.finished (payloadOk && ok)) }
    | _, _ => none

end Mlrc
