import Mlrc.Data.Queue
import Mlrc.Pipeline.Stream

/-!
# Chains with a window

The threads of the processes of a chain.  With a window of 1 a process handles one shard after the
other.  With a larger window the chain head reads shards into a queue that a second thread sends
from, and a hop server has three threads, which receive, add the own block, and send, with a bounded
queue between any two of them.

* `Outlet.senderStep`   the sender thread of both;
* `headStep`, `hopStep`   the threads of the chain head and of a hop server;
* `serialHeadStep`, `serialHopStep`   the same with a window of 1;
* `chainStep`   all threads of all processes of a chain, in any interleaving;
* `SenderMove`, `ReaderMove`, `MainMove`, `HopMove`   what a step can do.

A thread makes a step at each operation on a queue, a flag, a socket or the local stream.  The flag
of an event says whether the read, receive or send in it works; it means nothing in other steps.  A
connection delivers what was sent on it, in order.
-/

namespace Mlrc

open Option

variable {ok : Bool} {window received : ℕ} {s s' : HopState} {w : Wire}

/-! ## Stages -/

/-- the id and the bytes of a shard on its way -/
abbrev Shard := ℕ × List UInt8

inductive PipelineQueuedShard where
  | shard (x : Shard)
  | endOfStream (endShardCount : ℕ)
deriving DecidableEq, Repr

def resolvePipelineWindow (glrcPipelineWindow : ℤ) (shardCount : ℕ) : ℕ :=
  if shardCount = 0 then 1
  else if glrcPipelineWindow = 0 then shardCount
  else if glrcPipelineWindow ≤ 1 then 1
  else min glrcPipelineWindow.toNat shardCount

/-- a process of a chain: its request, its block, the bytes its datanode streams and its setting -/
structure Stage where
  req : ChainRequest
  me : GlrcPipelineHopInfo
  stream : List UInt8
  glrcPipelineWindow : ℤ

structure WindowChain where
  shardCount : ℕ
  stripeLen : ℕ
  stages : List Stage

namespace Stage

/-- `run_chain_head_shard` and the encoding after it -/
def headShard (st : Stage) (stripeLen shard : ℕ) : Option Shard :=
  (readDatanodeStreamShard st.stream shard stripeLen).map fun raw =>
    (shard, glrcPipelineInitPartialRange raw st.me.coef (pipelineCodecFromRequest st.req))

/-- `compute_inbound_shard`, the read with number `reads` of the local stream -/
def hopShard (st : Stage) (shardCount stripeLen reads : ℕ) (x : Shard) : Option Shard :=
  if x.1 < shardCount ∧ x.2.length = stripeLen then
    (readDatanodeStreamShard st.stream reads stripeLen).map fun bytes =>
      (x.1, glrcPipelineAccumulateRange x.2 bytes st.me.coef (pipelineCodecFromRequest st.req))
  else none

end Stage

/-- what was sent on a connection: shards, and then the count of an END frame -/
structure Wire where
  shards : List Shard := []
  endCount : Option ℕ := none

namespace Wire

/-- the next frame for a receiver that has got `received` shards -/
def next (w : Wire) (received : ℕ) : Option PipelineQueuedShard :=
  match w.shards[received]? with
  | some x => some (.shard x)
  | none => w.endCount.map .endOfStream

def frames (w : Wire) (eqSlot : ℕ) : List PipelineFrame :=
  w.shards.map (fun x => .SHARD eqSlot x.1 x.2) ++ (w.endCount.map (.END eqSlot)).toList

end Wire

/-! ## The sender -/

inductive SenderPc where
  | popping
  | sending (x : Shard)
  /-- a send has failed, and the queues are closed -/
  | closingInbound
  | closingOutbound
  /-- the loop is left -/
  | checking
  | sendingEnd
  | ended
deriving DecidableEq

/-- the queue of shards to send, the flag `pipeline_failed`, and what was sent -/
structure Outlet where
  queue : BoundedQueue PipelineQueuedShard := {}
  pipelineFailed : Bool := false
  sender : SenderPc := .popping
  /-- their number is `shards_sent` or `shards_forwarded` -/
  forwarded : List Shard := []
  endSent : Bool := false

namespace Outlet

/-- the sender; a failed send goes on at `onFail` -/
def senderStep (onFail : SenderPc) (ok : Bool) (o : Outlet) : Option Outlet :=
  match o.sender with
  | .popping =>
    match o.queue.pop with
    | none => none
    | some (some (.shard x), queue) => some { o with queue, sender := .sending x }
    | some (_, queue) => some { o with queue, sender := .checking }
  | .sending x =>
    if ok then some { o with forwarded := o.forwarded ++ [x], sender := .popping }
    else some { o with pipelineFailed := true, sender := onFail }
  | .closingInbound => none
  | .closingOutbound => some { o with queue := o.queue.close, sender := .ended }
  | .checking =>
    if o.pipelineFailed then some { o with sender := .ended } else some { o with sender := .sendingEnd }
  | .sendingEnd =>
    if ok then some { o with endSent := true, sender := .ended }
    else some { o with pipelineFailed := true, sender := .ended }
  | .ended => none

def push (capacity : ℕ) (item : PipelineQueuedShard) (o : Outlet) : Option Outlet :=
  (o.queue.push capacity item).map fun queue => { o with queue }

def close (o : Outlet) : Outlet := { o with queue := o.queue.close }

end Outlet

inductive Thread where
  | reader
  /-- the thread of the call, which reads the local stream -/
  | main
  | sender
deriving DecidableEq, Repr

/-! ## The chain head -/

inductive HeadPc where
  | looping (shard : ℕ)
  | reading (shard : ℕ)
  | pushing (x : Shard)
  | pushingEnd
  | closing
  | joining
  | finished
deriving DecidableEq

structure HeadState where
  main : HeadPc := .looping 0
  out : Outlet := {}

def headStep (shardCount stripeLen window : ℕ) (st : Stage) (t : Thread) (ok : Bool) (s : HeadState) :
    Option HeadState :=
  match t with
  | .reader => none
  | .sender => (s.out.senderStep .closingOutbound ok).map fun out => { s with out }
  | .main =>
    match s.main with
    | .looping shard =>
      if shard < shardCount ∧ s.out.pipelineFailed = false then some { s with main := .reading shard }
      else some { s with main := .pushingEnd }
    | .reading shard =>
      match if ok then st.headShard stripeLen shard else none with
      | some x => some { s with main := .pushing x }
      | none => some { s with main := .pushingEnd, out := { s.out with pipelineFailed := true } }
    | .pushing x =>
      (s.out.push window (.shard x)).map fun out => { s with main := .looping (x.1 + 1), out }
    | .pushingEnd => (s.out.push window (.endOfStream 0)).map fun out => { s with main := .closing, out }
    | .closing => some { s with main := .joining, out := s.out.close }
    | .joining => if s.out.sender = .ended then some { s with main := .finished } else none
    | .finished => none

inductive SerialHeadPc where
  | looping (shard : ℕ)
  | reading (shard : ℕ)
  | sending (x : Shard)
  | sendingEnd
  | finished
  | failed
deriving DecidableEq

structure SerialHeadState where
  main : SerialHeadPc := .looping 0
  forwarded : List Shard := []
  endSent : Bool := false

def serialHeadStep (shardCount stripeLen : ℕ) (st : Stage) (t : Thread) (ok : Bool)
    (s : SerialHeadState) : Option SerialHeadState :=
  match t, s.main with
  | .main, .looping shard =>
    if shard < shardCount then some { s with main := .reading shard }
    else some { s with main := .sendingEnd }
  | .main, .reading shard =>
    match if ok then st.headShard stripeLen shard else none with
    | some x => some { s with main := .sending x }
    | none => some { s with main := .failed }
  | .main, .sending x =>
    if ok then some { s with main := .looping (x.1 + 1), forwarded := s.forwarded ++ [x] }
    else some { s with main := .failed }
  | .main, .sendingEnd =>
    if ok then some { s with main := .finished, endSent := true } else some { s with main := .failed }
  | _, _ => none

/-! ## Hop servers -/

inductive ReaderPc where
  | looping
  | receiving
  | pushing (x : Shard)
  | pushingEnd (count : ℕ)
  /-- the inbound queue is closed on the way out -/
  | exiting
  /-- a receive has failed, and both queues are closed -/
  | closingInbound
  | closingOutbound
  | ended
deriving DecidableEq

inductive HopPc where
  | popping
  | computing (x : Shard)
  /-- a shard was not computed, and the reader is told -/
  | failing
  | pushing (x : Shard)
  | pushingEnd
  | closingInbound
  | closingOutbound
  | joining
  | finished
deriving DecidableEq

structure HopState where
  reader : ReaderPc := .looping
  main : HopPc := .popping
  inbound : BoundedQueue PipelineQueuedShard := {}
  readerFailed : Bool := false
  upstreamEndCount : Option ℕ := none
  /-- the shards taken from the connection -/
  received : ℕ := 0
  /-- the shards of the local stream that were added -/
  reads : ℕ := 0
  out : Outlet := {}

namespace HopState

def readerStep (window : ℕ) (input : Wire) (ok : Bool) (s : HopState) : Option HopState :=
  match s.reader with
  | .looping =>
    if s.readerFailed then some { s with reader := .exiting } else some { s with reader := .receiving }
  | .receiving =>
    if ok then
      match input.next s.received with
      | none => none
      | some (.shard x) => some { s with reader := .pushing x, received := s.received + 1 }
      | some (.endOfStream count) => some { s with reader := .pushingEnd count }
    else some { s with reader := .closingInbound, readerFailed := true }
  | .pushing x =>
    (s.inbound.push window (.shard x)).map fun inbound => { s with reader := .looping, inbound }
  | .pushingEnd count =>
    (s.inbound.push window (.endOfStream count)).map fun inbound => { s with reader := .exiting, inbound }
  | .exiting => some { s with reader := .ended, inbound := s.inbound.close }
  | .closingInbound => some { s with reader := .closingOutbound, inbound := s.inbound.close }
  | .closingOutbound => some { s with reader := .ended, out := s.out.close }
  | .ended => none

def mainStep (shardCount stripeLen window : ℕ) (st : Stage) (ok : Bool) (s : HopState) :
    Option HopState :=
  match s.main with
  | .popping =>
    match s.inbound.pop with
    | none => none
    | some (some (.shard x), inbound) => some { s with main := .computing x, inbound }
    | some (some (.endOfStream count), inbound) =>
      some { s with main := .pushingEnd, inbound, upstreamEndCount := some count }
    | some (none, inbound) => some { s with main := .pushingEnd, inbound }
  | .computing x =>
    match if ok then st.hopShard shardCount stripeLen s.reads x else none with
    | some y => some { s with main := .pushing y, reads := s.reads + 1 }
    | none => some { s with main := .failing, out := { s.out with pipelineFailed := true } }
  | .failing => some { s with main := .pushingEnd, readerFailed := true }
  | .pushing x => (s.out.push window (.shard x)).map fun out => { s with main := .popping, out }
  | .pushingEnd =>
    (s.out.push window (.endOfStream 0)).map fun out => { s with main := .closingInbound, out }
  | .closingInbound => some { s with main := .closingOutbound, inbound := s.inbound.close }
  | .closingOutbound => some { s with main := .joining, out := s.out.close }
  | .joining =>
    if s.reader = .ended ∧ s.out.sender = .ended then some { s with main := .finished } else none
  | .finished => none

end HopState

def hopStep (shardCount stripeLen window : ℕ) (st : Stage) (input : Wire) (t : Thread) (ok : Bool)
    (s : HopState) : Option HopState :=
  match t with
  | .reader => s.readerStep window input ok
  | .main => s.mainStep shardCount stripeLen window st ok
  | .sender =>
    if s.out.sender = .closingInbound then
      some { s with inbound := s.inbound.close, out := { s.out with sender := .closingOutbound } }
    else (s.out.senderStep .closingInbound ok).map fun out => { s with out }

inductive SerialHopPc where
  | receiving
  | computing (x : Shard)
  | sending (x : Shard)
  | checkingEnd (count : ℕ)
  | sendingEnd
  | finished
  | failed
deriving DecidableEq

structure SerialHopState where
  main : SerialHopPc := .receiving
  received : ℕ := 0
  reads : ℕ := 0
  forwarded : List Shard := []
  endSent : Bool := false

def serialHopStep (shardCount stripeLen : ℕ) (st : Stage) (input : Wire) (t : Thread) (ok : Bool)
    (s : SerialHopState) : Option SerialHopState :=
  match t, s.main with
  | .main, .receiving =>
    if ok then
      match input.next s.received with
      | none => none
      | some (.shard x) => some { s with main := .computing x, received := s.received + 1 }
      | some (.endOfStream count) => some { s with main := .checkingEnd count }
    else some { s with main := .failed }
  | .main, .computing x =>
    match if ok then st.hopShard shardCount stripeLen s.reads x else none with
    | some y => some { s with main := .sending y, reads := s.reads + 1 }
    | none => some { s with main := .failed }
  | .main, .sending x =>
    if ok then some { s with main := .receiving, forwarded := s.forwarded ++ [x] }
    else some { s with main := .failed }
  | .main, .checkingEnd count =>
    if count = s.forwarded.length then some { s with main := .sendingEnd }
    else some { s with main := .failed }
  | .main, .sendingEnd =>
    if ok then some { s with main := .finished, endSent := true } else some { s with main := .failed }
  | _, _ => none

/-! ## A chain -/

inductive Proc where
  | serialHead (s : SerialHeadState)
  | head (s : HeadState)
  | serialHop (s : SerialHopState)
  | hop (s : HopState)

namespace Proc

def forwarded : Proc → List Shard
  | .serialHead s => s.forwarded
  | .head s => s.out.forwarded
  | .serialHop s => s.forwarded
  | .hop s => s.out.forwarded

def endSent : Proc → Bool
  | .serialHead s => s.endSent
  | .head s => s.out.endSent
  | .serialHop s => s.endSent
  | .hop s => s.out.endSent

/-- what a process has sent; an END frame carries the configured number of shards -/
def wire (shardCount : ℕ) (p : Proc) : Wire where
  shards := p.forwarded
  endCount := if p.endSent then some shardCount else none

def finished : Proc → Bool
  | .serialHead s => s.main == .finished
  | .head s => s.main == .finished
  | .serialHop s => s.main == .finished
  | .hop s => s.main == .finished

end Proc

/-- a step of a thread of the process of stage `st` -/
def procStep (shardCount stripeLen : ℕ) (st : Stage) (input : Wire) (t : Thread) (ok : Bool) :
    Proc → Option Proc
  | .serialHead s => (serialHeadStep shardCount stripeLen st t ok s).map .serialHead
  | .head s => (headStep shardCount stripeLen (resolvePipelineWindow st.glrcPipelineWindow shardCount)
      st t ok s).map .head
  | .serialHop s => (serialHopStep shardCount stripeLen st input t ok s).map .serialHop
  | .hop s => (hopStep shardCount stripeLen (resolvePipelineWindow st.glrcPipelineWindow shardCount)
      st input t ok s).map .hop

structure ChainEvent where
  proc : ℕ
  thread : Thread
  ok : Bool
deriving DecidableEq, Repr

namespace WindowChain

/-- the connection into process `j` -/
def input (c : WindowChain) (procs : ℕ → Proc) : ℕ → Wire
  | 0 => {}
  | j + 1 => (procs j).wire c.shardCount

/-- process `j` has a window of more than one shard -/
def windowed (c : WindowChain) (j : ℕ) : Bool :=
  (c.stages[j]?.map fun st =>
    decide (1 < resolvePipelineWindow st.glrcPipelineWindow c.shardCount)).getD false

def start (c : WindowChain) : ℕ → Proc
  | 0 => if c.windowed 0 then .head {} else .serialHead {}
  | j + 1 => if c.windowed (j + 1) then .hop {} else .serialHop {}

end WindowChain

def chainStep (c : WindowChain) (e : ChainEvent) (procs : ℕ → Proc) : Option (ℕ → Proc) :=
  match c.stages[e.proc]? with
  | none => none
  | some st =>
    (procStep c.shardCount c.stripeLen st (c.input procs e.proc) e.thread e.ok (procs e.proc)).map
      (Function.update procs e.proc)

/-- the processes of a chain on given datanodes -/
def WindowChain.ofChain (cfg : Config) (disk : Datanodes) (session : PipelineSession)
    (plan : GlrcPipelinePlan) (chain : GlrcPipelineChainPlan) (ports : GlrcPipelineChainPorts)
    (glrcPipelineWindow : ℕ → ℤ) : WindowChain :=
  let shards := resolvePipelineShardView cfg session.localShardCount session.globalShardBegin
    session.globalShardCount
  { shardCount := shards.localCount
    stripeLen := shards.stripeLen
    stages := (List.range (senders chain)).filterMap fun j => do
      let me ← chain.hops[j]?
      let stream ← openDatanodeReadStream disk me (shards.byteOff 0) (shards.localCount * shards.stripeLen)
      let role := if j = 0 then GlrcPipelineRole.CHAIN_HEAD else .HOP_SERVER
      return { req := fillPipelineChainFields session cfg.z plan chain ports role j, me, stream
               glrcPipelineWindow := glrcPipelineWindow j } }

/-! ## What a step can do -/

inductive SenderMove (onFail : SenderPc) (o : Outlet) : Bool → Outlet → Prop
  | take {ok : Bool} {x : Shard} {queue : BoundedQueue PipelineQueuedShard} (hpc : o.sender = .popping)
      (hpop : o.queue.pop = some (some (.shard x), queue)) :
      SenderMove onFail o ok { o with queue, sender := .sending x }
  | leave {ok : Bool} {item : Option PipelineQueuedShard} {queue : BoundedQueue PipelineQueuedShard}
      (hpc : o.sender = .popping) (hpop : o.queue.pop = some (item, queue))
      (hitem : ∀ x, item ≠ some (.shard x)) :
      SenderMove onFail o ok { o with queue, sender := .checking }
  | send {x : Shard} (hpc : o.sender = .sending x) :
      SenderMove onFail o true { o with forwarded := o.forwarded ++ [x], sender := .popping }
  | sendFails {x : Shard} (hpc : o.sender = .sending x) :
      SenderMove onFail o false { o with pipelineFailed := true, sender := onFail }
  | close {ok : Bool} (hpc : o.sender = .closingOutbound) :
      SenderMove onFail o ok { o with queue := o.queue.close, sender := .ended }
  | giveUp {ok : Bool} (hpc : o.sender = .checking) (hfailed : o.pipelineFailed = true) :
      SenderMove onFail o ok { o with sender := .ended }
  | goOn {ok : Bool} (hpc : o.sender = .checking) (hfailed : o.pipelineFailed = false) :
      SenderMove onFail o ok { o with sender := .sendingEnd }
  | sendEnd (hpc : o.sender = .sendingEnd) :
      SenderMove onFail o true { o with endSent := true, sender := .ended }
  | sendEndFails (hpc : o.sender = .sendingEnd) :
      SenderMove onFail o false { o with pipelineFailed := true, sender := .ended }

theorem Outlet.senderStep_move {onFail : SenderPc} {o o' : Outlet}
    (h : o.senderStep onFail ok = some o') : SenderMove onFail o ok o' := by
  unfold senderStep at h
  split at h
  · next hpc =>
    split at h
    · cases h
    · next x queue hpop =>
      cases h
      exact .take hpc hpop
    · next item queue hitem hpop =>
      cases h
      exact .leave hpc hpop hitem
  · next x hpc =>
    cases ok with
    | true =>
      cases h
      exact .send hpc
    | false =>
      cases h
      exact .sendFails hpc
  · cases h
  · next hpc =>
    cases h
    exact .close hpc
  · next hpc =>
    split at h
    · next hfailed =>
      cases h
      exact .giveUp hpc hfailed
    · next hfailed =>
      cases h
      exact .goOn hpc (Bool.eq_false_iff.mpr hfailed)
  · next hpc =>
    cases ok with
    | true =>
      cases h
      exact .sendEnd hpc
    | false =>
      cases h
      exact .sendEndFails hpc
  · cases h

inductive ReaderMove (window : ℕ) (input : Wire) (s : HopState) : Bool → HopState → Prop
  | stop {ok : Bool} (hpc : s.reader = .looping) (hfailed : s.readerFailed = true) :
      ReaderMove window input s ok { s with reader := .exiting }
  | goOn {ok : Bool} (hpc : s.reader = .looping) (hfailed : s.readerFailed = false) :
      ReaderMove window input s ok { s with reader := .receiving }
  | receive {x : Shard} (hpc : s.reader = .receiving) (hnext : input.next s.received = some (.shard x)) :
      ReaderMove window input s true { s with reader := .pushing x, received := s.received + 1 }
  | receiveEnd {count : ℕ} (hpc : s.reader = .receiving)
      (hnext : input.next s.received = some (.endOfStream count)) :
      ReaderMove window input s true { s with reader := .pushingEnd count }
  | receiveFails (hpc : s.reader = .receiving) :
      ReaderMove window input s false { s with reader := .closingInbound, readerFailed := true }
  | push {ok : Bool} {x : Shard} {inbound : BoundedQueue PipelineQueuedShard}
      (hpc : s.reader = .pushing x) (hpush : s.inbound.push window (.shard x) = some inbound) :
      ReaderMove window input s ok { s with reader := .looping, inbound }
  | pushEnd {ok : Bool} {count : ℕ} {inbound : BoundedQueue PipelineQueuedShard}
      (hpc : s.reader = .pushingEnd count)
      (hpush : s.inbound.push window (.endOfStream count) = some inbound) :
      ReaderMove window input s ok { s with reader := .exiting, inbound }
  | exit {ok : Bool} (hpc : s.reader = .exiting) :
      ReaderMove window input s ok { s with reader := .ended, inbound := s.inbound.close }
  | closeInbound {ok : Bool} (hpc : s.reader = .closingInbound) :
      ReaderMove window input s ok { s with reader := .closingOutbound, inbound := s.inbound.close }
  | closeOutbound {ok : Bool} (hpc : s.reader = .closingOutbound) :
      ReaderMove window input s ok { s with reader := .ended, out := s.out.close }

theorem HopState.readerStep_move {input : Wire}
    (h : s.readerStep window input ok = some s') : ReaderMove window input s ok s' := by
  unfold HopState.readerStep at h
  split at h
  · next hpc =>
    split at h
    · next hfailed =>
      cases h
      exact .stop hpc hfailed
    · next hfailed =>
      cases h
      exact .goOn hpc (Bool.eq_false_iff.mpr hfailed)
  · next hpc =>
    cases ok with
    | true =>
      simp only [if_true] at h
      split at h
      · cases h
      · next x hnext =>
        cases h
        exact .receive hpc hnext
      · next count hnext =>
        cases h
        exact .receiveEnd hpc hnext
    | false =>
      cases h
      exact .receiveFails hpc
  · next x hpc =>
    obtain ⟨inbound, hpush, rfl⟩ := map_eq_some_iff.mp h
    exact .push hpc hpush
  · next count hpc =>
    obtain ⟨inbound, hpush, rfl⟩ := map_eq_some_iff.mp h
    exact .pushEnd hpc hpush
  · next hpc =>
    cases h
    exact .exit hpc
  · next hpc =>
    cases h
    exact .closeInbound hpc
  · next hpc =>
    cases h
    exact .closeOutbound hpc
  · cases h

/-- the steps of the thread of a hop server that adds the own block -/
inductive MainMove (n len window : ℕ) (st : Stage) (s : HopState) : Bool → HopState → Prop
  | take {ok : Bool} {x : Shard} {inbound : BoundedQueue PipelineQueuedShard} (hpc : s.main = .popping)
      (hpop : s.inbound.pop = some (some (.shard x), inbound)) :
      MainMove n len window st s ok { s with main := .computing x, inbound }
  | takeEnd {ok : Bool} {count : ℕ} {inbound : BoundedQueue PipelineQueuedShard} (hpc : s.main = .popping)
      (hpop : s.inbound.pop = some (some (.endOfStream count), inbound)) :
      MainMove n len window st s ok
        { s with main := .pushingEnd, inbound, upstreamEndCount := some count }
  | leave {ok : Bool} {inbound : BoundedQueue PipelineQueuedShard} (hpc : s.main = .popping)
      (hpop : s.inbound.pop = some (none, inbound)) :
      MainMove n len window st s ok { s with main := .pushingEnd, inbound }
  | compute {x y : Shard} (hpc : s.main = .computing x) (hy : st.hopShard n len s.reads x = some y) :
      MainMove n len window st s true { s with main := .pushing y, reads := s.reads + 1 }
  | computeFails {ok : Bool} {x : Shard} (hpc : s.main = .computing x)
      (hfail : ok = true → st.hopShard n len s.reads x = none) :
      MainMove n len window st s ok { s with main := .failing, out := { s.out with pipelineFailed := true } }
  | tellReader {ok : Bool} (hpc : s.main = .failing) :
      MainMove n len window st s ok { s with main := .pushingEnd, readerFailed := true }
  | push {ok : Bool} {x : Shard} {out : Outlet} (hpc : s.main = .pushing x)
      (hpush : s.out.push window (.shard x) = some out) :
      MainMove n len window st s ok { s with main := .popping, out }
  | pushEnd {ok : Bool} {out : Outlet} (hpc : s.main = .pushingEnd)
      (hpush : s.out.push window (.endOfStream 0) = some out) :
      MainMove n len window st s ok { s with main := .closingInbound, out }
  | closeInbound {ok : Bool} (hpc : s.main = .closingInbound) :
      MainMove n len window st s ok { s with main := .closingOutbound, inbound := s.inbound.close }
  | closeOutbound {ok : Bool} (hpc : s.main = .closingOutbound) :
      MainMove n len window st s ok { s with main := .joining, out := s.out.close }
  | join {ok : Bool} (hpc : s.main = .joining) (hreader : s.reader = .ended)
      (hsender : s.out.sender = .ended) : MainMove n len window st s ok { s with main := .finished }

theorem HopState.mainStep_move {n len : ℕ} {st : Stage}
    (h : s.mainStep n len window st ok = some s') : MainMove n len window st s ok s' := by
  unfold HopState.mainStep at h
  split at h
  · next hpc =>
    split at h
    · cases h
    · next x inbound hpop =>
      cases h
      exact .take hpc hpop
    · next count inbound hpop =>
      cases h
      exact .takeEnd hpc hpop
    · next inbound hpop =>
      cases h
      exact .leave hpc hpop
  · next x hpc =>
    split at h
    · next y hy =>
      cases h
      rw [ite_none_right_eq_some] at hy
      obtain ⟨rfl, hy⟩ := hy
      exact .compute hpc hy
    · next hnone =>
      cases h
      refine .computeFails hpc fun hok => ?_
      rwa [if_pos hok] at hnone
  · next hpc =>
    cases h
    exact .tellReader hpc
  · next x hpc =>
    obtain ⟨out, hpush, rfl⟩ := map_eq_some_iff.mp h
    exact .push hpc hpush
  · next hpc =>
    obtain ⟨out, hpush, rfl⟩ := map_eq_some_iff.mp h
    exact .pushEnd hpc hpush
  · next hpc =>
    cases h
    exact .closeInbound hpc
  · next hpc =>
    cases h
    exact .closeOutbound hpc
  · next hpc =>
    rw [ite_none_right_eq_some] at h
    obtain ⟨⟨hreader, hsender⟩, h⟩ := h
    cases h
    exact .join hpc hreader hsender
  · cases h

inductive HopMove (n len window : ℕ) (st : Stage) (input : Wire) (s : HopState) :
    Bool → HopState → Prop
  | reader {ok : Bool} {s' : HopState} (h : ReaderMove window input s ok s') :
      HopMove n len window st input s ok s'
  | main {ok : Bool} {s' : HopState} (h : MainMove n len window st s ok s') :
      HopMove n len window st input s ok s'
  | sender {ok : Bool} {out : Outlet} (h : SenderMove .closingInbound s.out ok out) :
      HopMove n len window st input s ok { s with out }
  | senderCloses {ok : Bool} (hpc : s.out.sender = .closingInbound) :
      HopMove n len window st input s ok
        { s with inbound := s.inbound.close, out := { s.out with sender := .closingOutbound } }

theorem hopStep_move {n len : ℕ} {st : Stage} {input : Wire} {t : Thread}
    (h : hopStep n len window st input t ok s = some s') :
    HopMove n len window st input s ok s' := by
  cases t with
  | reader => exact .reader (HopState.readerStep_move h)
  | main => exact .main (HopState.mainStep_move h)
  | sender =>
    unfold hopStep at h
    simp only at h
    split at h
    · next hpc =>
      cases h
      exact .senderCloses hpc
    · obtain ⟨out, hstep, rfl⟩ := map_eq_some_iff.mp h
      exact .sender (Outlet.senderStep_move hstep)

theorem Wire.next_shard {x : Shard} (h : w.next received = some (.shard x)) :
    w.shards[received]? = some x := by
  unfold Wire.next at h
  split at h
  · next y hy =>
    cases h
    exact hy
  · obtain ⟨c, -, hc⟩ := map_eq_some_iff.mp h
    cases hc

theorem Wire.lt_of_next_shard {x : Shard}
    (h : w.next received = some (.shard x)) : received < w.shards.length :=
  (List.getElem?_eq_some_iff.mp (Wire.next_shard h)).1

theorem Wire.endCount_of_next {count : ℕ}
    (h : w.next received = some (.endOfStream count)) : w.endCount = some count := by
  unfold Wire.next at h
  split at h
  · cases h
  · obtain ⟨c, hc, heq⟩ := map_eq_some_iff.mp h
    cases heq
    exact hc

theorem chainStep_cases {c : WindowChain} {procs procs' : ℕ → Proc} {e : ChainEvent}
    (h : chainStep c e procs = some procs') : ∃ st p', c.stages[e.proc]? = some st ∧
      procStep c.shardCount c.stripeLen st (c.input procs e.proc) e.thread e.ok (procs e.proc) = some p' ∧
      procs' = Function.update procs e.proc p' := by
  unfold chainStep at h
  split at h
  · cases h
  · next st hst =>
    obtain ⟨p', hp', rfl⟩ := map_eq_some_iff.mp h
    exact ⟨st, p', hst, hp', rfl⟩

end Mlrc
