import Mlrc.Phase2.Launch
import Mlrc.Data.Run

/-!
# The Phase2 exchange

Every partition reads the range of its own shards from all helpers, decodes these shards for all failed
blocks, sends the shards of the other blocks to their partitions and receives its own from them.  A
writer sends the shards of its block to the datanode in order, each as soon as it is marked ready.

* `Phase2Partition`   the variables the threads of a partition share;
* `localStep`   one step of a thread inside its partition;
* `phase2Step`   one step of the system, with the connections between the partitions;
* `phase2Init`   the partitions when their checks have passed.

A step is a section under a lock, a copy of one stripe or one read or write of a stream; all
interleavings of these are runs.  `exchangeFailed` is never reset, and a partition with it returns
false; any read, write, connection or timeout may fail at any time (`fail`).
-/

namespace Mlrc

open Function

/-! ## The state of a partition -/

inductive MainPc where
  | waitHelpers (shardK : ℕ)
  | submit (shardK : ℕ)
  | drain
  | joinExchange
  | joinWriter
  | returned (ok : Bool)
deriving DecidableEq, Repr

/-- the decode worker; `copy` is before the copy of target `t` -/
inductive DecodePc where
  | idle
  | decode (shardK : ℕ)
  | copy (shardK : ℕ) (shardRecovered : List (List UInt8)) (t : ℕ)
  | mark (shardK : ℕ)
  | count (shardK : ℕ)
  | release
deriving DecidableEq, Repr

inductive RecvPc where
  | wait
  | copy (globalShard : ℕ) (recvStripe : List UInt8)
  | mark (globalShard : ℕ)
deriving DecidableEq, Repr

/-- `Phase2WriteStream`; `sending` is the shard between its choice and its write, `sent` the stream
that the datanode gets, with the shard of every piece -/
structure Phase2WriteStream where
  target : Phase2WriteTarget
  ready : ℕ → Bool := fun _ => false
  nextShard : ℕ := 0
  sending : Option ℕ := none
  sent : List (ℕ × List UInt8) := []
  producerDone : Bool := false
  closed : Bool := false

structure Phase2Partition where
  exchangeFailed : Bool := false
  getBufs : ℕ → List UInt8
  helperRead : ℕ → Bool := fun _ => false
  main : MainPc
  decodeSubmitShard : Option ℕ := none
  decodeWorker : DecodePc := .idle
  recovered : ℕ → List UInt8
  decodedShards : ℕ := 0
  decodeDone : Bool := false
  /-- shards sent to a peer -/
  sendPos : ℕ → ℕ := fun _ => 0
  /-- frames taken from a peer -/
  recvPos : ℕ → ℕ := fun _ => 0
  recvWorker : ℕ → RecvPc := fun _ => .wait
  writeStream : Option Phase2WriteStream

/-- where the loop over the local shards goes on -/
def nextShardPc (req : Phase2Request) (shardK : ℕ) : MainPc :=
  if shardK < req.shardCountLocal then .waitHelpers shardK else .drain

def markWriteShardReady (req : Phase2Request) (globalShard : ℕ) (p : Phase2Partition) :
    Phase2Partition :=
  { p with writeStream := p.writeStream.map fun ws =>
      if globalShard < req.shardCount then
        { ws with ready := update ws.ready globalShard true }
      else ws }

def stripeOff (req : Phase2Request) (globalShard : ℕ) : ℕ := globalShard * req.stripeByteLen

/-! ## Steps inside a partition -/

inductive LocalEvent where
  /-- a stream, connection or wait of the partition fails -/
  | fail
  /-- after a failure the main thread leaves its loops -/
  | abort
  | readHelper (h : ℕ)
  | helperRoundDone
  | submitShard
  | takeShard
  | decodeShard
  | copyTarget
  | markDecoded
  | countDecoded
  | releaseShard
  | drained
  | storeReceived (peer : ℕ)
  | markReceived (peer : ℕ)
  | exchangeJoined
  | pickShard
  | writeShard
  | closeWriter
  /-- the writer is joined; the outcome of the datanode call -/
  | finish (grpcOk : Bool)
deriving DecidableEq, Repr

/-! A helper thread, then the decode worker. -/

def readHelperStep (disk : Datanodes) (req : Phase2Request) (h : ℕ) (p : Phase2Partition) :
    Option Phase2Partition :=
  match req.helpers[h]? with
  | none => none
  | some helper =>
    match disk helper.blockKey helper.datanodeIp helper.datanodePort with
    | none => none
    | some block =>
      if 0 < req.shardCountLocal ∧ p.helperRead h = false ∧ req.byteOff + req.byteLen ≤ block.length then
        some { p with
          getBufs := update p.getBufs h (readAt block req.byteOff req.byteLen)
          helperRead := update p.helperRead h true }
      else none

/-- the call of the prepared decoder for a local shard -/
def decodeLocalShard (req : Phase2Request) (start : Phase2Start) (p : Phase2Partition) (shardK : ℕ) :
    Option (List (List UInt8)) :=
  decodeGlrcIlpHelperCompactPrepared ((List.range req.helpers.length).map p.getBufs)
    (start.eqHelperTerms.map fun t => t.map Prod.fst) (helperTables start.eqHelperTerms)
    (inverseTable req.failedBlockIds.length start.decodeInverse) req.failedBlockIds.length req.byteOff
    (req.byteOff + shardK * req.stripeByteLen) req.stripeByteLen

def takeShard (p : Phase2Partition) : Option Phase2Partition :=
  match p.decodeWorker, p.decodeSubmitShard with
  | .idle, some k => some { p with decodeWorker := .decode k, decodeSubmitShard := none }
  | _, _ => none

def decodeShard (req : Phase2Request) (start : Phase2Start) (p : Phase2Partition) :
    Option Phase2Partition :=
  match p.decodeWorker with
  | .decode k =>
    match decodeLocalShard req start p k with
    | none => some { p with decodeWorker := .idle, exchangeFailed := true }
    | some shardRecovered => some { p with decodeWorker := .copy k shardRecovered 0 }
  | _ => none

def copyTarget (req : Phase2Request) (p : Phase2Partition) : Option Phase2Partition :=
  match p.decodeWorker with
  | .copy k shardRecovered t => some { p with
      recovered := update p.recovered t (writeAt (p.recovered t)
        (req.byteOff + k * req.stripeByteLen) (shardRecovered.getD t []))
      decodeWorker := if t + 1 < req.failedBlockIds.length then .copy k shardRecovered (t + 1)
        else .mark k }
  | _ => none

def markDecoded (req : Phase2Request) (p : Phase2Partition) : Option Phase2Partition :=
  match p.decodeWorker with
  | .mark k => some { markWriteShardReady req (req.shardBegin + k) p with decodeWorker := .count k }
  | _ => none

def countDecoded (p : Phase2Partition) : Option Phase2Partition :=
  match p.decodeWorker with
  | .count k => some { p with decodedShards := k + 1, decodeWorker := .release }
  | _ => none

def releaseShard (p : Phase2Partition) : Option Phase2Partition :=
  match p.decodeWorker with
  | .release => some { p with decodeWorker := .idle }
  | _ => none

/-! The main thread. -/

/-- `wait_helper_round_done`: every helper thread has added its part to the round -/
def helperRoundDone (req : Phase2Request) (p : Phase2Partition) : Option Phase2Partition :=
  match p.main with
  | .waitHelpers k =>
    if p.exchangeFailed = false ∧ (List.range req.helpers.length).all p.helperRead then
      some { p with main := .submit k }
    else none
  | _ => none

def submitShard (req : Phase2Request) (p : Phase2Partition) : Option Phase2Partition :=
  match p.main, p.decodeSubmitShard with
  | .submit k, none =>
    if p.exchangeFailed = false then
      some { p with decodeSubmitShard := some k, main := nextShardPc req (k + 1) }
    else none
  | _, _ => none

/-- the wait for the decode worker, which is then stopped; `decode_done` is set -/
def drained (req : Phase2Request) (p : Phase2Partition) : Option Phase2Partition :=
  if p.main = .drain ∧ p.exchangeFailed = false ∧ p.decodeSubmitShard = none ∧
      p.decodeWorker = .idle ∧ req.shardCountLocal ≤ p.decodedShards then
    some { p with main := .joinExchange, decodeDone := true }
  else none

/-- the send and receive workers of every peer have ended, and the writer is told so -/
def exchangeJoined (req : Phase2Request) (p : Phase2Partition) : Option Phase2Partition :=
  if p.main = .joinExchange ∧ req.peers.all fun peer =>
      p.sendPos peer.partitionId = req.shardCountLocal ∧
        p.recvPos peer.partitionId = peer.shardCount ∧ p.recvWorker peer.partitionId = .wait then
    some { p with
      main := .joinWriter
      writeStream := p.writeStream.map fun ws => { ws with producerDone := true } }
  else none

/-- the end of `glrcIlpPhase2Recovery` -/
def finish (req : Phase2Request) (grpcOk : Bool) (p : Phase2Partition) : Option Phase2Partition :=
  if p.main = .joinWriter then
    match p.writeStream with
    | none => some { p with main := .returned (!p.exchangeFailed) }
    | some ws =>
      if ws.closed then
        let failed := p.exchangeFailed || decide (ws.nextShard ≠ req.shardCount) || !grpcOk
        some { p with exchangeFailed := failed, main := .returned (!failed) }
      else none
  else none

/-- after a failure the main thread leaves its loops and returns false -/
def abortStep (p : Phase2Partition) : Option Phase2Partition :=
  match p.main with
  | .returned _ => none
  | _ => if p.exchangeFailed then some { p with main := .returned false } else none

/-! The receive workers, behind the read of a frame. -/

def storeReceived (req : Phase2Request) (peer : ℕ) (p : Phase2Partition) : Option Phase2Partition :=
  match p.recvWorker peer with
  | .copy shard stripe => some { p with
      recovered := update p.recovered req.partitionId
        (writeAt (p.recovered req.partitionId) (shard * req.stripeByteLen) stripe)
      recvWorker := update p.recvWorker peer (.mark shard) }
  | _ => none

def markReceived (req : Phase2Request) (peer : ℕ) (p : Phase2Partition) : Option Phase2Partition :=
  match p.recvWorker peer with
  | .mark shard => some { markWriteShardReady req shard p with
      recvWorker := update p.recvWorker peer .wait }
  | _ => none

/-! The writer. -/

def pickShard (req : Phase2Request) (p : Phase2Partition) : Option Phase2Partition :=
  match p.writeStream with
  | none => none
  | some ws =>
    if p.exchangeFailed = false ∧ ws.closed = false ∧ ws.sending = none ∧
        ws.nextShard < req.shardCount ∧ ws.ready ws.nextShard then
      some { p with writeStream := some { ws with
        sending := some ws.nextShard, nextShard := ws.nextShard + 1 } }
    else none

def writeShard (req : Phase2Request) (p : Phase2Partition) : Option Phase2Partition :=
  match p.writeStream with
  | none => none
  | some ws =>
    match ws.sending with
    | none => none
    | some shard => some { p with writeStream := some { ws with
        sending := none
        sent := ws.sent ++ [(shard, readAt (p.recovered req.partitionId) (shard * req.stripeByteLen)
          req.stripeByteLen)] } }

/-- the producers are done and the next shard is not ready: the stream ends, complete or not -/
def closeWriter (req : Phase2Request) (p : Phase2Partition) : Option Phase2Partition :=
  match p.writeStream with
  | none => none
  | some ws =>
    if ws.closed = false ∧ ws.sending = none ∧ ws.producerDone ∧
        ¬(ws.nextShard < req.shardCount ∧ ws.ready ws.nextShard) then
      some { p with
        exchangeFailed := p.exchangeFailed || decide (ws.nextShard ≠ req.shardCount)
        writeStream := some { ws with closed := true } }
    else none

def localStep (disk : Datanodes) (req : Phase2Request) (start : Phase2Start) :
    LocalEvent → Phase2Partition → Option Phase2Partition
  | .fail, p => some { p with exchangeFailed := true }
  | .abort, p => abortStep p
  | .readHelper h, p => readHelperStep disk req h p
  | .helperRoundDone, p => helperRoundDone req p
  | .submitShard, p => submitShard req p
  | .takeShard, p => takeShard p
  | .decodeShard, p => decodeShard req start p
  | .copyTarget, p => copyTarget req p
  | .markDecoded, p => markDecoded req p
  | .countDecoded, p => countDecoded p
  | .releaseShard, p => releaseShard p
  | .drained, p => drained req p
  | .storeReceived peer, p => storeReceived req peer p
  | .markReceived peer, p => markReceived req peer p
  | .exchangeJoined, p => exchangeJoined req p
  | .pickShard, p => pickShard req p
  | .writeShard, p => writeShard req p
  | .closeWriter, p => closeWriter req p
  | .finish grpcOk, p => finish req grpcOk p

/-! ## The system -/

/-- `Phase2PeerHeader` without its constant, and the payload behind it -/
structure Phase2Frame where
  fromPartition : ℕ
  stripeByteLen : ℕ
  shardBegin : ℕ
  shardCount : ℕ
  payload : List UInt8
deriving DecidableEq, Repr

/-- the partitions, and the frames on the way from one partition to another -/
structure Phase2System where
  part : ℕ → Phase2Partition
  chan : ℕ → ℕ → List Phase2Frame

inductive Phase2Event where
  | step (i : ℕ) (e : LocalEvent)
  | send (i peer : ℕ)
  | receive (i peer : ℕ)
deriving DecidableEq, Repr

def lookupPeerShards (req : Phase2Request) (peerPart : ℕ) : Option (ℕ × ℕ) :=
  (req.peers.find? fun peer => peer.partitionId = peerPart).map fun peer =>
    (peer.shardBegin, peer.shardCount)

/-- one frame of a send worker: the next local shard, once it is decoded, of the peer's block -/
def sendFrame (req : Phase2Request) (peer : ℕ) (p : Phase2Partition) : Option Phase2Frame :=
  let k := p.sendPos peer
  if p.exchangeFailed = false ∧ k < req.shardCountLocal ∧ k < p.decodedShards then
    some {
      fromPartition := req.partitionId
      stripeByteLen := req.stripeByteLen
      shardBegin := req.shardBegin + k
      shardCount := 1
      payload := readAt (p.recovered peer) (stripeOff req (req.shardBegin + k)) req.stripeByteLen }
  else none

/-- `recv_shard_frame` and the check of its header -/
def acceptFrame (req : Phase2Request) (peer : ℕ) (frame : Phase2Frame) (p : Phase2Partition) :
    Option Phase2Partition :=
  match p.recvWorker peer, lookupPeerShards req peer with
  | .wait, some (peerBegin, peerCount) =>
    if p.exchangeFailed = false ∧ p.recvPos peer < peerCount then
      if 1 ≤ frame.shardCount ∧ frame.stripeByteLen ≠ 0 ∧
          frame.stripeByteLen * frame.shardCount ≤ req.stripeByteLen ∧
          frame.shardBegin = peerBegin + p.recvPos peer ∧ frame.shardCount = 1 then
        some { p with
          recvPos := update p.recvPos peer (p.recvPos peer + 1)
          recvWorker := update p.recvWorker peer (.copy frame.shardBegin frame.payload) }
      else some { p with exchangeFailed := true }
    else none
  | _, _ => none

/-- one step of the partitions with these requests -/
def phase2Step (cfg : Config) (disk : Datanodes) (requests : List Phase2Request) :
    Phase2Event → Phase2System → Option Phase2System
  | .step i e, s =>
    match requests[i]? with
    | none => none
    | some req =>
      match phase2Start cfg req with
      | .error _ => none
      | .ok start => (localStep disk req start e (s.part i)).map fun p =>
        { s with part := update s.part i p }
  | .send i peer, s =>
    match requests[i]? with
    | none => none
    | some req =>
      if req.peers.any fun p => p.partitionId = peer then
        (sendFrame req peer (s.part i)).map fun frame =>
          { part := update s.part i { s.part i with
              sendPos := update (s.part i).sendPos peer ((s.part i).sendPos peer + 1) }
            chan := update s.chan i
              (update (s.chan i) peer (s.chan i peer ++ [frame])) }
      else none
  | .receive i peer, s =>
    match requests[i]?, s.chan peer i with
    | some req, frame :: rest => (acceptFrame req peer frame (s.part i)).map fun p =>
        { part := update s.part i p
          chan := update s.chan peer (update (s.chan peer) i rest) }
    | _, _ => none

/-- a partition behind its checks; one that fails them has returned -/
def initPartition (cfg : Config) (req : Phase2Request) : Phase2Partition where
  getBufs _ := List.replicate req.byteLen 0
  recovered _ := List.replicate cfg.blockSize 0
  exchangeFailed :=
    match phase2Start cfg req with
    | .error _ => true
    | .ok _ => false
  main :=
    match phase2Start cfg req with
    | .error _ => .returned false
    | .ok _ => nextShardPc req 0
  writeStream :=
    match phase2Start cfg req with
    | .error _ => none
    | .ok start => start.writeTarget.map fun target => { target }

def phase2Init (cfg : Config) (requests : List Phase2Request) : Phase2System where
  part i :=
    match requests[i]? with
    | none => { getBufs := fun _ => [], recovered := fun _ => [], main := .returned false
                writeStream := none }
    | some req => initPartition cfg req
  chan _ _ := []

end Mlrc
