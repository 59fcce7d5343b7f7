import Mlrc.Data.Run
import Mlrc.Pipeline.Hub
import Mlrc.Pipeline.Window

/-!
# Truncated chains

Reads, receives and sends may fail at any time in any process of a chain.  A hop server whose reader
has failed still runs its sender to the end, and may send an END frame after some of the shards.  An
END frame always carries the configured number of shards, and a fan-in compares it with what it got.

* `HopState.Safe`   a hop server has no more shards in work than it got;
* `WindowChain.Safe.antitone`   the shards become fewer from process to process;
* `hubListenStep`   the listener of a hub, with a window;
* `truncated_chain_rejected`   a fan-in fails while a process of its chain has shards to forward;
* `late_receive_error_accepted`   a hop that fails to receive with all its shards queued forwards them.
-/

namespace Mlrc

open List Option Function Bool

variable {q q' : BoundedQueue PipelineQueuedShard} {n len slot : ℕ} {fs : List PipelineFrame}

/-! ## No shard is sent that was not received -/

def PipelineQueuedShard.isShard : PipelineQueuedShard → Bool
  | .shard _ => true
  | .endOfStream _ => false

def queuedShards (q : BoundedQueue PipelineQueuedShard) : ℕ := q.items.countP (·.isShard)

theorem queuedShards_push {capacity : ℕ} {item : PipelineQueuedShard} (h : q.push capacity item = some q') :
    queuedShards q' ≤ queuedShards q + item.isShard.toNat := by
  rcases BoundedQueue.push_cases h with ⟨-, rfl⟩ | ⟨-, rfl⟩
  · exact Nat.le_add_right _ _
  · unfold queuedShards
    rw [countP_append, countP_singleton]
    cases item.isShard <;> exact le_rfl

theorem queuedShards_pop {item : Option PipelineQueuedShard} (h : q.pop = some (item, q')) :
    queuedShards q' + (item.elim false (·.isShard)).toNat = queuedShards q := by
  rcases BoundedQueue.pop_cases h with ⟨x, rfl, hitems, -⟩ | ⟨rfl, -, -, rfl⟩
  · unfold queuedShards
    rw [hitems, countP_cons]
    cases hx : x.isShard <;> simp [hx]
  · rfl

theorem queuedShards_pop_shard {x : Shard}
    (h : q.pop = some (some (.shard x), q')) : queuedShards q' + 1 = queuedShards q :=
  queuedShards_pop h

@[simp] theorem queuedShards_close (q : BoundedQueue PipelineQueuedShard) :
    queuedShards q.close = queuedShards q := rfl

def SenderPc.hand : SenderPc → ℕ
  | .sending _ => 1
  | _ => 0

def Outlet.load (o : Outlet) : ℕ := o.forwarded.length + o.sender.hand + queuedShards o.queue

section
variable {o o' : Outlet} {onFail : SenderPc} {ok : Bool}

theorem SenderMove.load_le (h : SenderMove onFail o ok o') (hfail : onFail.hand = 0) :
    o'.load ≤ o.load := by
  unfold Outlet.load
  cases h with
  | take hpc hpop =>
    have hq := queuedShards_pop_shard hpop
    simp only [hpc, SenderPc.hand]
    omega
  | leave hpc hpop =>
    have hq := queuedShards_pop hpop
    simp only [hpc, SenderPc.hand]
    omega
  | send hpc => simp [hpc, SenderPc.hand]
  | sendFails hpc =>
    rw [hfail, hpc]
    exact Nat.add_le_add_right (Nat.le_succ _) _
  | close hpc => simp [hpc, SenderPc.hand]
  | giveUp hpc => simp [hpc, SenderPc.hand]
  | goOn hpc => simp [hpc, SenderPc.hand]
  | sendEnd hpc => simp [hpc, SenderPc.hand]
  | sendEndFails hpc => simp [hpc, SenderPc.hand]

theorem SenderMove.forwarded_extends (h : SenderMove onFail o ok o') : o.forwarded <+: o'.forwarded := by
  cases h with
  | send => exact prefix_append _ _
  | _ => exact prefix_rfl

theorem Outlet.load_push {capacity : ℕ} {item : PipelineQueuedShard}
    (h : o.push capacity item = some o') :
    o'.load ≤ o.load + item.isShard.toNat ∧ o'.forwarded = o.forwarded := by
  obtain ⟨queue, hpush, rfl⟩ := map_eq_some_iff.mp h
  have hq := queuedShards_push hpush
  refine ⟨?_, rfl⟩
  unfold load
  simp only
  omega

end

def ReaderPc.hand : ReaderPc → ℕ
  | .pushing _ => 1
  | _ => 0

/-- the shards the thread holds that have not been added to the own block -/
def HopPc.computingHand : HopPc → ℕ
  | .computing _ => 1
  | _ => 0

def HopPc.pushingHand : HopPc → ℕ
  | .pushing _ => 1
  | _ => 0

/-- what a hop server has in work does not exceed what it got -/
structure HopState.Safe (input : Wire) (s : HopState) : Prop where
  sent : s.out.load + s.main.pushingHand ≤ s.reads
  added : s.reads + s.main.computingHand + queuedShards s.inbound + s.reader.hand ≤ s.received
  got : s.received ≤ input.shards.length

section
variable {n len window : ℕ} {st : Stage} {input : Wire} {ok : Bool} {s s' : HopState}

theorem ReaderMove.safe (h : ReaderMove window input s ok s') (hs : s.Safe input) : s'.Safe input := by
  obtain ⟨hsent, hadded, hgot⟩ := hs
  cases h with
  | receive hpc hnext =>
    rw [hpc] at hadded
    exact ⟨hsent, Nat.add_le_add_right hadded 1, Wire.lt_of_next_shard hnext⟩
  | push hpc hpush =>
    have hq := queuedShards_push hpush
    simp only [hpc, ReaderPc.hand, PipelineQueuedShard.isShard, toNat_true] at hadded hq
    exact ⟨hsent, by simp only [ReaderPc.hand]; omega, hgot⟩
  | pushEnd hpc hpush =>
    have hq := queuedShards_push hpush
    simp only [hpc, ReaderPc.hand, PipelineQueuedShard.isShard, toNat_false] at hadded hq
    exact ⟨hsent, by simp only [ReaderPc.hand]; omega, hgot⟩
  | stop hpc | goOn hpc | receiveEnd hpc | receiveFails hpc | exit hpc | closeInbound hpc
  | closeOutbound hpc =>
    rw [hpc] at hadded
    exact ⟨hsent, hadded, hgot⟩

theorem MainMove.safe (h : MainMove n len window st s ok s') (hs : s.Safe input) : s'.Safe input := by
  obtain ⟨hsent, hadded, hgot⟩ := hs
  cases h with
  | take hpc hpop =>
    have hq := queuedShards_pop_shard hpop
    simp only [hpc, HopPc.computingHand, HopPc.pushingHand] at hadded hsent
    exact ⟨hsent, by simp only [HopPc.computingHand]; omega, hgot⟩
  | takeEnd hpc hpop | leave hpc hpop =>
    have hq := queuedShards_pop hpop
    simp only [hpc, HopPc.computingHand, HopPc.pushingHand] at hadded hsent
    exact ⟨hsent, by simp only [HopPc.computingHand]; omega, hgot⟩
  | compute hpc =>
    simp only [hpc, HopPc.computingHand, HopPc.pushingHand] at hadded hsent
    exact ⟨Nat.add_le_add_right hsent 1, hadded, hgot⟩
  | computeFails hpc =>
    simp only [hpc, HopPc.computingHand, HopPc.pushingHand] at hadded hsent
    exact ⟨hsent, by simp only [HopPc.computingHand]; omega, hgot⟩
  | push hpc hpush =>
    have hload := (Outlet.load_push hpush).1
    simp only [hpc, HopPc.pushingHand, HopPc.computingHand, PipelineQueuedShard.isShard,
      toNat_true] at hsent hadded hload
    exact ⟨by simp only [HopPc.pushingHand]; omega, hadded, hgot⟩
  | pushEnd hpc hpush =>
    have hload := (Outlet.load_push hpush).1
    simp only [hpc, HopPc.pushingHand, HopPc.computingHand, PipelineQueuedShard.isShard,
      toNat_false] at hsent hadded hload
    exact ⟨by simp only [HopPc.pushingHand]; omega, hadded, hgot⟩
  | tellReader hpc | closeInbound hpc | closeOutbound hpc | join hpc =>
    rw [hpc] at hadded hsent
    exact ⟨hsent, hadded, hgot⟩

theorem HopMove.safe (h : HopMove n len window st input s ok s') (hs : s.Safe input) : s'.Safe input := by
  cases h with
  | reader h => exact h.safe hs
  | main h => exact h.safe hs
  | sender h => exact ⟨(Nat.add_le_add_right (h.load_le rfl) _).trans hs.sent, hs.added, hs.got⟩
  | senderCloses hpc =>
    have hload : Outlet.load { s.out with sender := .closingOutbound } = s.out.load := by
      unfold Outlet.load
      rw [hpc]
      rfl
    refine ⟨?_, hs.added, hs.got⟩
    rw [hload]
    exact hs.sent

theorem HopMove.forwarded_extends (h : HopMove n len window st input s ok s') :
    s.out.forwarded <+: s'.out.forwarded := by
  cases h with
  | reader h =>
    cases h with
    | _ => exact prefix_rfl
  | main h =>
    cases h with
    | push _ hpush => exact (Outlet.load_push hpush).2 ▸ prefix_rfl
    | pushEnd _ hpush => exact (Outlet.load_push hpush).2 ▸ prefix_rfl
    | _ => exact prefix_rfl
  | sender h => exact h.forwarded_extends
  | senderCloses => exact prefix_rfl

end

def SerialHopPc.computingHand : SerialHopPc → ℕ
  | .computing _ => 1
  | _ => 0

def SerialHopPc.sendingHand : SerialHopPc → ℕ
  | .sending _ => 1
  | _ => 0

structure SerialHopState.Safe (input : Wire) (s : SerialHopState) : Prop where
  sent : s.forwarded.length + s.main.sendingHand ≤ s.reads
  added : s.reads + s.main.computingHand ≤ s.received
  got : s.received ≤ input.shards.length

section
variable {n len : ℕ} {st : Stage} {input : Wire} {t : Thread} {ok : Bool} {s s' : SerialHopState}

theorem serialHopStep_safe (hs : s.Safe input) (h : serialHopStep n len st input t ok s = some s') :
    s'.Safe input := by
  obtain ⟨hsent, hadded, hgot⟩ := hs
  unfold serialHopStep at h
  split at h
  · next hpc =>
    rw [hpc] at hsent hadded
    split at h
    · split at h
      · cases h
      · next x hnext =>
        cases h
        exact ⟨hsent, Nat.add_le_add_right hadded 1, Wire.lt_of_next_shard hnext⟩
      · cases h
        exact ⟨hsent, hadded, hgot⟩
    · cases h
      exact ⟨hsent, hadded, hgot⟩
  · next x hpc =>
    simp only [hpc, SerialHopPc.computingHand, SerialHopPc.sendingHand] at hsent hadded
    split at h
    · cases h
      exact ⟨Nat.add_le_add_right hsent 1, hadded, hgot⟩
    · cases h
      exact ⟨hsent, (Nat.le_succ _).trans hadded, hgot⟩
  · next x hpc =>
    simp only [hpc, SerialHopPc.computingHand, SerialHopPc.sendingHand] at hsent hadded
    split at h
    · cases h
      refine ⟨?_, hadded, hgot⟩
      rw [length_append]
      exact hsent
    · cases h
      exact ⟨(Nat.le_succ _).trans hsent, hadded, hgot⟩
  · next count hpc =>
    rw [hpc] at hsent hadded
    split at h <;> cases h <;> exact ⟨hsent, hadded, hgot⟩
  · next hpc =>
    rw [hpc] at hsent hadded
    split at h <;> cases h <;> exact ⟨hsent, hadded, hgot⟩
  · cases h

theorem serialHopStep_forwarded (h : serialHopStep n len st input t ok s = some s') :
    s.forwarded <+: s'.forwarded := by
  unfold serialHopStep at h
  split at h
  · split at h
    · split at h <;> cases h <;> exact prefix_rfl
    · cases h
      exact prefix_rfl
  · split at h <;> cases h <;> exact prefix_rfl
  · split at h
    · cases h
      exact prefix_append _ _
    · cases h
      exact prefix_rfl
  · split at h <;> cases h <;> exact prefix_rfl
  · split at h <;> cases h <;> exact prefix_rfl
  · cases h

end

theorem headStep_forwarded {window : ℕ} {st : Stage} {t : Thread} {ok : Bool} {s s' : HeadState}
    (h : headStep n len window st t ok s = some s') : s.out.forwarded <+: s'.out.forwarded := by
  unfold headStep at h
  split at h
  · cases h
  · obtain ⟨out, hstep, rfl⟩ := map_eq_some_iff.mp h
    exact (Outlet.senderStep_move hstep).forwarded_extends
  · split at h
    · split at h <;> cases h <;> exact prefix_rfl
    · split at h <;> cases h <;> exact prefix_rfl
    · obtain ⟨out, hpush, rfl⟩ := map_eq_some_iff.mp h
      exact (Outlet.load_push hpush).2 ▸ prefix_rfl
    · obtain ⟨out, hpush, rfl⟩ := map_eq_some_iff.mp h
      exact (Outlet.load_push hpush).2 ▸ prefix_rfl
    · cases h
      exact prefix_rfl
    · split at h <;> cases h
      exact prefix_rfl
    · cases h

theorem serialHeadStep_forwarded {st : Stage} {t : Thread} {ok : Bool}
    {s s' : SerialHeadState} (h : serialHeadStep n len st t ok s = some s') :
    s.forwarded <+: s'.forwarded := by
  unfold serialHeadStep at h
  split at h
  · split at h <;> cases h <;> exact prefix_rfl
  · split at h <;> cases h <;> exact prefix_rfl
  · split at h
    · cases h
      exact prefix_append _ _
    · cases h
      exact prefix_rfl
  · split at h <;> cases h <;> exact prefix_rfl
  · cases h

/-- a hop server, the process `j + 1`, has not sent more shards than it got -/
def Proc.Safe (input : Wire) : Proc → Prop
  | .hop s => s.Safe input
  | .serialHop s => s.Safe input
  | _ => False

theorem Proc.Safe.forwarded_le {input : Wire} {p : Proc} (h : p.Safe input) :
    p.forwarded.length ≤ input.shards.length := by
  cases p with
  | serialHead s => exact absurd h id
  | head s => exact absurd h id
  | serialHop s =>
    have h1 : s.forwarded.length ≤ s.reads := le_self_add.trans h.sent
    have h2 : s.reads ≤ s.received := le_self_add.trans h.added
    exact (h1.trans h2).trans h.got
  | hop s =>
    have h1 : s.out.forwarded.length ≤ s.out.load := by
      unfold Outlet.load
      omega
    have h2 : s.out.load ≤ s.reads := le_self_add.trans h.sent
    have h3 : s.reads ≤ s.received := by
      have := h.added
      omega
    exact ((h1.trans h2).trans h3).trans h.got

theorem Proc.Safe.mono {input input' : Wire} {p : Proc} (h : p.Safe input)
    (hle : input.shards.length ≤ input'.shards.length) : p.Safe input' := by
  cases p with
  | serialHead s => exact h
  | head s => exact h
  | serialHop s => exact ⟨h.sent, h.added, h.got.trans hle⟩
  | hop s => exact ⟨h.sent, h.added, h.got.trans hle⟩

section
variable {n len : ℕ} {st : Stage} {input : Wire} {t : Thread} {ok : Bool} {p p' : Proc}

theorem procStep_forwarded (h : procStep n len st input t ok p = some p') :
    p.forwarded <+: p'.forwarded := by
  cases p with
  | serialHead s =>
    obtain ⟨s', hstep, rfl⟩ := map_eq_some_iff.mp h
    exact serialHeadStep_forwarded hstep
  | head s =>
    obtain ⟨s', hstep, rfl⟩ := map_eq_some_iff.mp h
    exact headStep_forwarded hstep
  | serialHop s =>
    obtain ⟨s', hstep, rfl⟩ := map_eq_some_iff.mp h
    exact serialHopStep_forwarded hstep
  | hop s =>
    obtain ⟨s', hstep, rfl⟩ := map_eq_some_iff.mp h
    exact (hopStep_move hstep).forwarded_extends

theorem procStep_safe (hp : p.Safe input) (h : procStep n len st input t ok p = some p') :
    p'.Safe input := by
  cases p with
  | serialHead s => exact absurd hp id
  | head s => exact absurd hp id
  | serialHop s =>
    obtain ⟨s', hstep, rfl⟩ := map_eq_some_iff.mp h
    exact serialHopStep_safe hp hstep
  | hop s =>
    obtain ⟨s', hstep, rfl⟩ := map_eq_some_iff.mp h
    exact (hopStep_move hstep).safe hp

end

def WindowChain.Safe (c : WindowChain) (procs : ℕ → Proc) : Prop :=
  ∀ j, (procs (j + 1)).Safe (c.input procs (j + 1))

section
variable {c : WindowChain} {procs procs' : ℕ → Proc} {e : ChainEvent}

theorem chainStep_forwarded (h : chainStep c e procs = some procs') (j : ℕ) :
    (procs j).forwarded <+: (procs' j).forwarded := by
  obtain ⟨st, p', -, hp', rfl⟩ := chainStep_cases h
  by_cases hj : j = e.proc
  · subst hj
    rw [update_self]
    exact procStep_forwarded hp'
  · rw [update_of_ne hj]

theorem chainStep_safe (hs : c.Safe procs) (h : chainStep c e procs = some procs') : c.Safe procs' := by
  intro j
  have hgrow : (c.input procs (j + 1)).shards.length ≤ (c.input procs' (j + 1)).shards.length :=
    (chainStep_forwarded h j).length_le
  obtain ⟨st, p', -, hp', rfl⟩ := chainStep_cases h
  refine Proc.Safe.mono ?_ hgrow
  by_cases hj : j + 1 = e.proc
  · rw [hj, update_self]
    have hold := hs j
    rw [hj] at hold
    exact procStep_safe hold hp'
  · rw [update_of_ne hj]
    exact hs j

theorem start_safe (c : WindowChain) : c.Safe c.start := by
  intro j
  show Proc.Safe _ (if c.windowed (j + 1) then .hop {} else .serialHop {})
  split
  · exact ⟨Nat.zero_le _, Nat.zero_le _, Nat.zero_le _⟩
  · exact ⟨Nat.zero_le _, Nat.zero_le _, Nat.zero_le _⟩

theorem WindowChain.Safe.antitone (hs : c.Safe procs) {i j : ℕ} (hij : i ≤ j) :
    (procs j).forwarded.length ≤ (procs i).forwarded.length := by
  induction j, hij using Nat.le_induction with
  | base => exact le_rfl
  | succ j _ ih => exact (hs j).forwarded_le.trans ih

end

/-! ## The listener of the hub -/

inductive HubListenPc where
  | popping
  | finalizing (x : Shard)
  /-- a shard was not stored, and the reader is told -/
  | failing
  | closing
  | joining
  | deciding
  | finished
deriving DecidableEq

/-- the listener of a chain whose last block is the hub's own, with a window -/
structure HubListenState where
  reader : ReaderPc := .looping
  main : HubListenPc := .popping
  inbound : BoundedQueue PipelineQueuedShard := {}
  hubReaderFailed : Bool := false
  upstreamEndCount : Option ℕ := none
  received : ℕ := 0
  shardsReceived : ℕ := 0
  hubFailed : Bool := false

namespace HubListenState

def readerStep (window : ℕ) (input : Wire) (ok : Bool) (s : HubListenState) : Option HubListenState :=
  match s.reader with
  | .looping =>
    if s.hubReaderFailed then some { s with reader := .exiting }
    else some { s with reader := .receiving }
  | .receiving =>
    if ok then
      match input.next s.received with
      | none => none
      | some (.shard x) => some { s with reader := .pushing x, received := s.received + 1 }
      | some (.endOfStream count) => some { s with reader := .pushingEnd count }
    else some { s with reader := .closingInbound, hubReaderFailed := true }
  | .pushing x =>
    (s.inbound.push window (.shard x)).map fun inbound => { s with reader := .looping, inbound }
  | .pushingEnd count =>
    (s.inbound.push window (.endOfStream count)).map fun inbound => { s with reader := .exiting, inbound }
  | .exiting => some { s with reader := .ended, inbound := s.inbound.close }
  | .closingInbound => some { s with reader := .ended, inbound := s.inbound.close }
  | .closingOutbound => none
  | .ended => none

/-- `finalize_hub_shard` fails for a shard of the wrong form and when the hub's own block cannot be
read -/
def mainStep (shardCount stripeLen : ℕ) (ok : Bool) (s : HubListenState) : Option HubListenState :=
  match s.main with
  | .popping =>
    match s.inbound.pop with
    | none => none
    | some (some (.shard x), inbound) => some { s with main := .finalizing x, inbound }
    | some (some (.endOfStream count), inbound) =>
      some { s with main := .closing, inbound, upstreamEndCount := some count }
    | some (none, inbound) => some { s with main := .closing, inbound }
  | .finalizing x =>
    if x.1 < shardCount ∧ x.2.length = stripeLen ∧ ok then
      some { s with main := .popping, shardsReceived := s.shardsReceived + 1 }
    else some { s with main := .failing, hubFailed := true }
  | .failing => some { s with main := .closing, hubReaderFailed := true }
  | .closing => some { s with main := .joining, inbound := s.inbound.close }
  | .joining => if s.reader = .ended then some { s with main := .deciding } else none
  | .deciding =>
    if s.hubReaderFailed then some { s with main := .finished, hubFailed := true }
    else
      match s.upstreamEndCount with
      | none => some { s with main := .finished }
      | some count =>
        if count = s.shardsReceived then some { s with main := .finished }
        else some { s with main := .finished, hubFailed := true }
  | .finished => none

end HubListenState

def hubListenStep (shardCount stripeLen window : ℕ) (input : Wire) (t : Thread) (ok : Bool)
    (s : HubListenState) : Option HubListenState :=
  match t with
  | .reader => s.readerStep window input ok
  | .main => s.mainStep shardCount stripeLen ok
  | .sender => none

structure HubSystem where
  procs : ℕ → Proc
  listener : HubListenState := {}

inductive HubEvent where
  | chain (e : ChainEvent)
  | listener (thread : Thread) (ok : Bool)
deriving DecidableEq

def WindowChain.output (c : WindowChain) (procs : ℕ → Proc) : Wire :=
  c.input procs c.stages.length

def hubSystemStep (c : WindowChain) (window : ℕ) (e : HubEvent) (s : HubSystem) : Option HubSystem :=
  match e with
  | .chain e => (chainStep c e s.procs).map fun procs => { s with procs }
  | .listener t ok =>
    (hubListenStep c.shardCount c.stripeLen window (c.output s.procs) t ok s.listener).map
      fun listener => { s with listener }

def HubListenPc.hand : HubListenPc → ℕ
  | .finalizing _ => 1
  | _ => 0

/-- the loop over the inbound queue is not left yet -/
def HubListenPc.inLoop : HubListenPc → Bool
  | .popping | .finalizing _ => true
  | _ => false

/-- every END frame a listener sees carries `n`, it counts no shard it did not get, and it leaves its
loop with an END frame or a failed reader -/
structure HubListenState.Safe (n : ℕ) (input : Wire) (s : HubListenState) : Prop where
  counted : s.shardsReceived + s.main.hand + queuedShards s.inbound + s.reader.hand ≤ s.received
  got : s.received ≤ input.shards.length
  pushed : ∀ count, s.reader = .pushingEnd count → count = n
  queued : ∀ count, .endOfStream count ∈ s.inbound.items → count = n
  popped : ∀ count ∈ s.upstreamEndCount, count = n
  closed : s.main.inLoop = true → s.inbound.closed = true → s.reader = .ended
  exiting : s.main.inLoop = true → s.reader = .exiting ∨ s.reader = .ended →
    s.hubReaderFailed = true ∨ ∃ count, .endOfStream count ∈ s.inbound.items
  failing : s.reader = .closingInbound → s.hubReaderFailed = true
  left : s.main = .closing ∨ s.main = .joining ∨ s.main = .deciding →
    s.hubReaderFailed = true ∨ s.upstreamEndCount.isSome
  finished : s.main = .finished → s.hubFailed = true ∨ s.upstreamEndCount = some s.shardsReceived

namespace HubListenState
variable {n len window : ℕ} {input : Wire} {ok : Bool} {s s' : HubListenState}

section
variable (hs : s.Safe n input)
include hs

theorem Safe.tell_reader : Safe n input { s with hubReaderFailed := true } :=
  { hs with exiting := fun _ _ => .inl rfl, failing := fun _ => rfl, left := fun _ => .inl rfl }

theorem Safe.set_reader (hne : s.reader ≠ .ended) {reader : ReaderPc}
    {inbound : BoundedQueue PipelineQueuedShard} {received : ℕ}
    (hcounted : s.shardsReceived + s.main.hand + queuedShards inbound + reader.hand ≤ received)
    (hgot : received ≤ input.shards.length) (hpushed : ∀ count, reader = .pushingEnd count → count = n)
    (hqueued : ∀ count, .endOfStream count ∈ inbound.items → count = n)
    (hclosed : inbound.closed = true → reader = .ended ∨ s.inbound.closed = true)
    (hexiting : s.main.inLoop = true → reader = .exiting ∨ reader = .ended →
      s.hubReaderFailed = true ∨ ∃ count, .endOfStream count ∈ inbound.items)
    (hfailing : reader = .closingInbound → s.hubReaderFailed = true) :
    Safe n input { s with reader, inbound, received } where
  counted := hcounted
  got := hgot
  pushed := hpushed
  queued := hqueued
  popped := hs.popped
  closed := fun hloop hc => (hclosed hc).resolve_right fun hc => hne (hs.closed hloop hc)
  exiting := hexiting
  failing := hfailing
  left := hs.left
  finished := hs.finished

theorem Safe.push {item : PipelineQueuedShard} {reader : ReaderPc}
    {inbound : BoundedQueue PipelineQueuedShard} (hpush : s.inbound.push window item = some inbound)
    (hne : s.reader ≠ .ended) (hhand : s.reader.hand = item.isShard.toNat)
    (hitem : ∀ count, item = .endOfStream count → count = n) (hreader : reader.hand = 0)
    (hpushed : ∀ count, reader ≠ .pushingEnd count) (hfailing : reader ≠ .closingInbound)
    (hexiting : reader = .exiting ∨ reader = .ended → ∃ count, item = .endOfStream count) :
    Safe n input { s with reader, inbound } := by
  have hq := queuedShards_push hpush
  have hcounted := hs.counted
  refine hs.set_reader hne (by omega) hs.got (fun count h => absurd h (hpushed count))
    (fun count hc => ?_) (fun hc => ?_) (fun hloop hr => ?_) (fun h => absurd h hfailing)
  all_goals rcases BoundedQueue.push_cases hpush with ⟨hclosed, rfl⟩ | ⟨-, rfl⟩
  · exact hs.queued count hc
  · rcases mem_append.mp hc with hc | hc
    · exact hs.queued count hc
    · exact hitem count (mem_singleton.mp hc).symm
  · exact .inr hc
  · exact .inr hc
  · exact absurd (hs.closed hloop hclosed) hne
  · obtain ⟨count, rfl⟩ := hexiting hr
    exact .inr ⟨count, mem_append_right _ mem_cons_self⟩

theorem Safe.readerStep (hend : ∀ count ∈ input.endCount, count = n)
    (h : s.readerStep window input ok = some s') : s'.Safe n input := by
  have hcounted := hs.counted
  unfold HubListenState.readerStep at h
  split at h
  · next hpc =>
    rw [hpc] at hcounted
    split at h
    · next hfailed =>
      cases h
      exact hs.set_reader (by simp [hpc]) hcounted hs.got nofun hs.queued .inr
        (fun _ _ => .inl hfailed) nofun
    · cases h
      exact hs.set_reader (by simp [hpc]) hcounted hs.got nofun hs.queued .inr (by simp) nofun
  · next hpc =>
    rw [hpc] at hcounted
    split at h
    · split at h
      · cases h
      · next x hnext =>
        cases h
        exact hs.set_reader (by simp [hpc]) (Nat.add_le_add_right hcounted 1)
          (Wire.lt_of_next_shard hnext) nofun hs.queued .inr (by simp) nofun
      · next count hnext =>
        cases h
        refine hs.set_reader (by simp [hpc]) hcounted hs.got ?_ hs.queued .inr (by simp) nofun
        intro c hc
        cases hc
        exact hend count (Wire.endCount_of_next hnext)
    · cases h
      exact hs.tell_reader.set_reader (by simp [hpc]) hcounted hs.got nofun hs.queued .inr
        (fun _ _ => .inl rfl) fun _ => rfl
  · next x hpc =>
    obtain ⟨inbound, hpush, rfl⟩ := map_eq_some_iff.mp h
    exact hs.push hpush (by simp [hpc]) (by rw [hpc]; rfl) nofun rfl nofun nofun (by simp)
  · next count hpc =>
    obtain ⟨inbound, hpush, rfl⟩ := map_eq_some_iff.mp h
    refine hs.push hpush (by simp [hpc]) (by rw [hpc]; rfl) (fun c hc => ?_) rfl nofun nofun
      fun _ => ⟨count, rfl⟩
    cases hc
    exact hs.pushed count hpc
  · next hpc =>
    cases h
    rw [hpc] at hcounted
    exact hs.set_reader (by simp [hpc]) hcounted hs.got nofun hs.queued (fun _ => .inl rfl)
      (fun hloop _ => hs.exiting hloop (.inl hpc)) nofun
  · next hpc =>
    cases h
    rw [hpc] at hcounted
    exact hs.set_reader (by simp [hpc]) hcounted hs.got nofun hs.queued (fun _ => .inl rfl)
      (fun _ _ => .inl (hs.failing hpc)) nofun
  · cases h
  · cases h

theorem Safe.after_loop {main : HubListenPc}
    {inbound : BoundedQueue PipelineQueuedShard} {hubFailed : Bool} (hmain : main.inLoop = false)
    (hitems : inbound.items = s.inbound.items)
    (hleft : main = .closing ∨ main = .joining ∨ main = .deciding →
      s.hubReaderFailed = true ∨ s.upstreamEndCount.isSome)
    (hfinished : main = .finished → hubFailed = true ∨ s.upstreamEndCount = some s.shardsReceived) :
    Safe n input { s with main, inbound, hubFailed } where
  counted := by
    have hcounted := hs.counted
    have hhand : main.hand = 0 := by
      unfold HubListenPc.hand
      split
      · cases hmain
      · rfl
    simp only [hhand, queuedShards, hitems] at hcounted ⊢
    omega
  got := hs.got
  pushed := hs.pushed
  queued := fun count hc => hs.queued count (hitems ▸ hc)
  popped := hs.popped
  closed := fun hloop => absurd (hmain.symm.trans hloop) Bool.false_ne_true
  exiting := fun hloop => absurd (hmain.symm.trans hloop) Bool.false_ne_true
  failing := hs.failing
  left := hleft
  finished := hfinished

theorem Safe.mainStep (h : s.mainStep n len ok = some s') : s'.Safe n input := by
  have hcounted := hs.counted
  unfold HubListenState.mainStep at h
  split at h
  · next hpc =>
    simp only [hpc, HubListenPc.hand] at hcounted
    have hloop : s.main.inLoop = true := by rw [hpc]; rfl
    split at h
    · cases h
    · next x inbound hpop =>
      cases h
      have hq := queuedShards_pop_shard hpop
      rcases BoundedQueue.pop_cases hpop with ⟨y, ⟨⟩, hitems, hclosed⟩ | ⟨⟨⟩, -⟩
      have hmem : ∀ count, .endOfStream count ∈ inbound.items ↔ .endOfStream count ∈ s.inbound.items := by
        intro count
        rw [hitems, mem_cons]
        exact ⟨.inr, fun h => h.resolve_left nofun⟩
      exact { hs with
        counted := by simp only [HubListenPc.hand]; omega
        queued := fun count hc => hs.queued count ((hmem count).mp hc)
        closed := fun _ hc => hs.closed hloop (hclosed ▸ hc)
        exiting := fun _ hr => (hs.exiting hloop hr).imp_right fun ⟨c, hc⟩ => ⟨c, (hmem c).mpr hc⟩
        left := by simp
        finished := nofun }
    · next count inbound hpop =>
      cases h
      have hq := queuedShards_pop hpop
      rcases BoundedQueue.pop_cases hpop with ⟨y, ⟨⟩, hitems, hclosed⟩ | ⟨⟨⟩, -⟩
      exact { hs with
        counted := by simp only [HubListenPc.hand]; omega
        queued := fun c hc => hs.queued c (hitems ▸ mem_cons_of_mem _ hc)
        popped := fun c hc => by
          cases hc
          exact hs.queued count (hitems ▸ mem_cons_self)
        closed := nofun
        exiting := nofun
        left := fun _ => .inr rfl
        finished := nofun }
    · next inbound hpop =>
      cases h
      rcases BoundedQueue.pop_cases hpop with ⟨y, ⟨⟩, -⟩ | ⟨-, hitems, hclosed, rfl⟩
      -- the queue was closed by the reader, without an END frame in it
      have hended := hs.closed hloop hclosed
      have hfailed : s.hubReaderFailed = true := by
        rcases hs.exiting hloop (.inr hended) with hf | ⟨c, hc⟩
        · exact hf
        · rw [hitems] at hc
          cases hc
      exact hs.after_loop rfl rfl (fun _ => .inl hfailed) nofun
  · next x hpc =>
    simp only [hpc, HubListenPc.hand] at hcounted
    have hloop : s.main.inLoop = true := by rw [hpc]; rfl
    split at h
    · cases h
      exact { hs with
        counted := by simp only [HubListenPc.hand]; omega
        closed := fun _ hc => hs.closed hloop hc
        exiting := fun _ hr => hs.exiting hloop hr
        left := by simp
        finished := nofun }
    · cases h
      exact hs.after_loop rfl rfl (by simp) nofun
  · next hpc =>
    cases h
    exact hs.tell_reader.after_loop rfl rfl (fun _ => .inl rfl) nofun
  · next hpc =>
    cases h
    exact hs.after_loop rfl rfl (fun _ => hs.left (.inl hpc)) nofun
  · next hpc =>
    split at h
    · cases h
      exact hs.after_loop rfl rfl (fun _ => hs.left (.inr (.inl hpc))) nofun
    · cases h
  · next hpc =>
    have hleft := hs.left (.inr (.inr hpc))
    split at h
    · cases h
      exact hs.after_loop rfl rfl (by simp) fun _ => .inl rfl
    · next hok =>
      split at h
      · next hnone =>
        rw [hnone] at hleft
        exact absurd (hleft.resolve_left hok) nofun
      · next count hsome =>
        split at h
        · next heq =>
          cases h
          exact hs.after_loop rfl rfl (by simp) fun _ => .inr (heq ▸ hsome)
        · cases h
          exact hs.after_loop rfl rfl (by simp) fun _ => .inl rfl
  · cases h

theorem Safe.mono {input' : Wire}
    (hle : input.shards.length ≤ input'.shards.length) : s.Safe n input' :=
  { hs with got := hs.got.trans hle }

end

end HubListenState

section
variable {c : WindowChain} {window : ℕ} {e : HubEvent} {s s' : HubSystem}

theorem WindowChain.input_endCount (c : WindowChain) (procs : ℕ → Proc) (j : ℕ) :
    ∀ count ∈ (c.input procs j).endCount, count = c.shardCount := by
  intro count hcount
  cases j with
  | zero => cases hcount
  | succ j =>
    have hsome : (if (procs j).endSent then some c.shardCount else none) = some count := hcount
    rw [ite_none_right_eq_some] at hsome
    exact (some.inj hsome.2).symm

structure HubSystem.Safe (c : WindowChain) (s : HubSystem) : Prop where
  chain : c.Safe s.procs
  listener : s.listener.Safe c.shardCount (c.output s.procs)

theorem hubSystemStep_safe (hs : s.Safe c) (h : hubSystemStep c window e s = some s') : s'.Safe c := by
  cases e with
  | chain e =>
    obtain ⟨procs, hstep, rfl⟩ := map_eq_some_iff.mp h
    refine ⟨chainStep_safe hs.chain hstep, hs.listener.mono ?_⟩
    show (c.input s.procs c.stages.length).shards.length ≤ (c.input procs c.stages.length).shards.length
    cases c.stages.length with
    | zero => exact le_rfl
    | succ j => exact (chainStep_forwarded hstep j).length_le
  | listener t ok =>
    obtain ⟨listener, hstep, rfl⟩ := map_eq_some_iff.mp h
    refine ⟨hs.chain, ?_⟩
    cases t with
    | reader => exact hs.listener.readerStep (c.input_endCount _ _) hstep
    | main => exact hs.listener.mainStep hstep
    | sender => cases hstep

theorem hubSystem_safe (c : WindowChain) : HubSystem.Safe c { procs := c.start } where
  chain := start_safe c
  listener :=
    { counted := Nat.zero_le _, got := Nat.zero_le _, pushed := nofun, queued := nofun, popped := nofun
      closed := nofun
      exiting := fun _ h => by rcases h with h | h <;> cases h
      failing := nofun
      left := fun h => by rcases h with h | h | h <;> cases h
      finished := nofun }

end

/-! ## Truncated streams are rejected -/

theorem Wire.endCount_of_accepts (Accepts : ℕ → List PipelineFrame → Prop)
    (hnil : ∀ r, ¬Accepts r [])
    (hend : ∀ r slot count rest, Accepts r (.END slot count :: rest) → count = r)
    (hshard : ∀ r slot i p rest, Accepts r (.SHARD slot i p :: rest) → Accepts (r + 1) rest)
    {shards : List Shard} {endCount : Option ℕ} {r : ℕ}
    (hfs : fs <+: Wire.frames ⟨shards, endCount⟩ slot) (h : Accepts r fs) :
    endCount = some (r + shards.length) := by
  induction shards generalizing r fs with
  | nil =>
    cases fs with
    | nil => exact absurd h (hnil r)
    | cons f fs =>
      cases endCount with
      | none => exact absurd (prefix_nil.mp hfs) (cons_ne_nil _ _)
      | some count =>
        have hf : f = .END slot count := (cons_prefix_cons.mp hfs).1
        subst hf
        rw [hend r slot count fs h]
        rfl
  | cons x shards ih =>
    cases fs with
    | nil => exact absurd h (hnil r)
    | cons f fs =>
      obtain ⟨hf, hrest⟩ := cons_prefix_cons.mp hfs
      subst hf
      rw [ih hrest (hshard r slot x.1 x.2 fs h), length_cons]
      congr 1
      omega

theorem flushReady_shardsReceived (fuel : ℕ) (s : SinkState) :
    (flushReady fuel s).shardsReceived = s.shardsReceived := by
  induction fuel generalizing s with
  | zero => rfl
  | succ fuel ih =>
    unfold flushReady
    split
    · rfl
    · rw [ih]

theorem sinkLoop_endCount {w : Wire} {bytes : List UInt8}
    (hfs : fs <+: w.frames slot) (h : sinkLoop n len {} fs = .ok bytes) :
    w.endCount = some w.shards.length := by
  have hcount := Wire.endCount_of_accepts
    (fun r fs => ∃ s : SinkState, s.shardsReceived = r ∧ ∃ bytes, sinkLoop n len s fs = .ok bytes)
    (r := 0) ?_ ?_ ?_ hfs ⟨{}, rfl, bytes, h⟩
  · rwa [zero_add] at hcount
  · rintro r ⟨s, -, bytes, h⟩
    cases h
  · rintro r slot count rest ⟨s, hs, bytes, h⟩
    unfold sinkLoop at h
    split at h
    · next heq => exact heq.trans hs
    · cases h
  · rintro r slot i p rest ⟨s, hs, bytes, h⟩
    unfold sinkLoop at h
    split at h
    · refine ⟨_, ?_, bytes, h⟩
      rw [flushReady_shardsReceived]
      exact congrArg (· + 1) hs
    · cases h

theorem hubListenLoop_endCount {ctx : HubListenCtx} {hubStream : Option (List UInt8)}
    {w : Wire} {rhs out : List (Option (List UInt8))}
    (hfs : fs <+: w.frames slot) (h : hubListenLoop ctx hubStream n len 0 rhs fs = .ok out) :
    w.endCount = some w.shards.length := by
  have hcount := Wire.endCount_of_accepts
    (fun r fs => ∃ rhs out, hubListenLoop ctx hubStream n len r rhs fs = .ok out)
    (r := 0) ?_ ?_ ?_ hfs ⟨rhs, out, h⟩
  · rwa [zero_add] at hcount
  · rintro r ⟨rhs, out, h⟩
    cases h
  · rintro r slot count rest ⟨rhs, out, h⟩
    unfold hubListenLoop at h
    split at h
    · next heq => exact heq
    · cases h
  · rintro r slot i p rest ⟨rhs, out, h⟩
    obtain ⟨stored, -, hrest⟩ := except_bind_eq_ok.mp h
    exact ⟨_, out, hrest⟩

/-- **Main result.**  As long as a process of a chain has not forwarded all shards, no END frame with
the count of the shards before it has reached the fan-in.  The sink of the chain fails, and so does
the listener of the hub, with a window or without. -/
theorem truncated_chain_rejected {c : WindowChain} {window : ℕ} {es : List HubEvent} {s : HubSystem}
    (hrun : run (hubSystemStep c window) es { procs := c.start } = some s) {j : ℕ}
    (hj : j < c.stages.length) (hshort : (s.procs j).forwarded.length < c.shardCount) :
    (c.output s.procs).endCount ≠ some (c.output s.procs).shards.length ∧
    (∀ slot fs, fs <+: (c.output s.procs).frames slot →
      (∀ cfg req write, localDirectRecovery cfg req fs ≠ .ok write) ∧
      ∀ cfg disk req ci rhs, (req.ctx ci).localOnly = false →
        hubListener cfg disk req ci fs ≠ .ok rhs) ∧
    (s.listener.main = .finished → s.listener.hubFailed = true) := by
  have hsafe := run_invariant (fun _ _ _ => hubSystemStep_safe) (hubSystem_safe c) hrun
  obtain ⟨m, hm⟩ := Nat.exists_eq_succ_of_ne_zero (Nat.ne_zero_of_lt hj)
  have houtput : c.output s.procs = (s.procs m).wire c.shardCount := by
    unfold WindowChain.output
    rw [hm]
    rfl
  have hlt : (c.output s.procs).shards.length < c.shardCount := by
    rw [houtput]
    exact (hsafe.chain.antitone (by omega)).trans_lt hshort
  have hne : (c.output s.procs).endCount ≠ some (c.output s.procs).shards.length := by
    intro hcount
    exact absurd (c.input_endCount s.procs _ _ hcount) hlt.ne
  refine ⟨hne, fun slot fs hfs => ⟨?_, ?_⟩, fun hfin => ?_⟩
  · intro cfg req write h
    obtain ⟨announced, -, h⟩ := except_bind_eq_ok.mp h
    obtain ⟨bytes, hbytes, -⟩ := except_bind_eq_ok.mp h
    exact hne (sinkLoop_endCount hfs hbytes)
  · intro cfg disk req ci rhs hremote h
    unfold hubListener at h
    simp only [hremote, false_eq_true, if_false] at h
    exact hne (hubListenLoop_endCount hfs h)
  · rcases hsafe.listener.finished hfin with hfailed | hcount
    · exact hfailed
    · have heq := hsafe.listener.popped _ hcount
      have hle := hsafe.listener.counted
      have hgot := hsafe.listener.got
      omega

/-! ## A receive error that comes late -/

def raceConfig : Config := { k := 4, r := 2, z := 3, blockSize := 2, glrcShardCount := 2 }

def raceSession : PipelineSession :=
  { localShardCount := 2, globalShardBegin := 0, globalShardCount := 2 }

def racePlan : GlrcPipelinePlan := stripePlan 1 [] [localRepairChain 0 [(6, 1), (1, 186)]]

/-- the repair of block 0 from its local parity and block 1, with a window of two shards -/
def raceChain : WindowChain :=
  .ofChain raceConfig (stripeDisks (blockOf (codeword genGlrcMatrix 4 2 3 smallData 2))) raceSession racePlan
    (localRepairChain 0 [(6, 1), (1, 186)]) ⟨[20900, 20150], 20075⟩ fun _ => 2

def threadSteps (proc : ℕ) (thread : Thread) (k : ℕ) : List HubEvent :=
  replicate k (.chain ⟨proc, thread, true⟩)

/-- the head sends the whole stream, and the hop fails to read its own block -/
def readErrorRun : List HubEvent :=
  threadSteps 0 .main 6 ++ threadSteps 0 .sender 4 ++ threadSteps 0 .main 3 ++ threadSteps 0 .sender 3 ++
    threadSteps 1 .reader 3 ++ threadSteps 1 .main 1 ++ [.chain ⟨1, .main, false⟩]

/-- nothing of this stream is accepted -/
theorem read_error_rejected : ∃ s, run (hubSystemStep raceChain 2) readErrorRun
      { procs := raceChain.start } = some s ∧
    (raceChain.output s.procs).endCount ≠ some (raceChain.output s.procs).shards.length ∧
    ∀ slot fs, fs <+: (raceChain.output s.procs).frames slot →
      ∀ cfg req write, localDirectRecovery cfg req fs ≠ .ok write := by
  have hshort : ((run (hubSystemStep raceChain 2) readErrorRun { procs := raceChain.start }).map
      fun s => decide ((s.procs 1).forwarded.length < raceChain.shardCount)) = some true := by
    decide +kernel
  obtain ⟨s, hrun, hs⟩ := map_eq_some_iff.mp hshort
  have hreject := truncated_chain_rejected hrun (j := 1) (by decide +kernel) (of_decide_eq_true hs)
  exact ⟨s, hrun, hreject.1, fun slot fs hfs => (hreject.2.1 slot fs hfs).1⟩

/-- the head sends both shards and then fails to send its END frame; the hop has put both shards into
its outbound queue and waits for the next frame -/
def lateErrorBefore : List HubEvent :=
  threadSteps 0 .main 6 ++ threadSteps 0 .sender 4 ++ threadSteps 0 .main 3 ++ threadSteps 0 .sender 2 ++
    [.chain ⟨0, .sender, false⟩] ++ threadSteps 1 .reader 4 ++ threadSteps 1 .main 3 ++
    threadSteps 1 .reader 3 ++ threadSteps 1 .main 3

/-- the queues of the hop are closed, and its sender empties the outbound queue -/
def lateErrorAfter : List HubEvent :=
  threadSteps 1 .reader 2 ++ threadSteps 1 .sender 7 ++ threadSteps 1 .main 5

/-- the hop fails to receive before it has forwarded a shard; the sink accepts the stream -/
theorem late_receive_error_accepted :
    glrcBuildPipelinePlan 4 2 3 [0] (localRepair 0 [1, 6]) (allEquations 4 2 3) 1 (stripeNodes 9) 1 =
      .ok racePlan ∧
    ∃ s₁ s₂ s₃ hop write, run (hubSystemStep raceChain 2) lateErrorBefore { procs := raceChain.start } =
        some s₁ ∧
      s₁.procs 1 = .hop hop ∧ hop.reader = .receiving ∧ hop.out.forwarded.length < raceChain.shardCount ∧
      hubSystemStep raceChain 2 (.chain ⟨1, .reader, false⟩) s₁ = some s₂ ∧
      run (hubSystemStep raceChain 2) lateErrorAfter s₂ = some s₃ ∧
      (raceChain.output s₃.procs).endCount = some (raceChain.output s₃.procs).shards.length ∧
      localDirectRecovery raceConfig (fillPipelineChainFields raceSession 3 racePlan
        (localRepairChain 0 [(6, 1), (1, 186)]) ⟨[20900, 20150], 20075⟩ .LOCAL_DIRECT 0)
        ((raceChain.output s₃.procs).frames 0) = .ok write := by
  refine ⟨by decide +kernel, ?_⟩
  have hbefore : ((run (hubSystemStep raceChain 2) lateErrorBefore { procs := raceChain.start }).map
      fun s => match s.procs 1 with
        | .hop hop => decide (hop.reader = .receiving ∧ hop.out.forwarded.length < raceChain.shardCount)
        | _ => false) = some true := by decide +kernel
  obtain ⟨s₁, hrun₁, hs₁⟩ := map_eq_some_iff.mp hbefore
  have hafter : ((run (hubSystemStep raceChain 2) lateErrorBefore { procs := raceChain.start }).bind
      fun s => (hubSystemStep raceChain 2 (.chain ⟨1, .reader, false⟩) s).bind fun s =>
        (run (hubSystemStep raceChain 2) lateErrorAfter s).map fun s =>
          decide ((raceChain.output s.procs).endCount = some (raceChain.output s.procs).shards.length) &&
          (localDirectRecovery raceConfig (fillPipelineChainFields raceSession 3 racePlan
            (localRepairChain 0 [(6, 1), (1, 186)]) ⟨[20900, 20150], 20075⟩ .LOCAL_DIRECT 0)
            ((raceChain.output s.procs).frames 0)).isOk) = some true := by decide +kernel
  rw [hrun₁, bind_some] at hafter
  obtain ⟨s₂, hstep, hafter⟩ := bind_eq_some_iff.mp hafter
  obtain ⟨s₃, hrun₃, hs₃⟩ := map_eq_some_iff.mp hafter
  split at hs₁
  · next hop hhop =>
    obtain ⟨hreader, hshort⟩ := of_decide_eq_true hs₁
    rw [and_eq_true, decide_eq_true_eq] at hs₃
    obtain ⟨write, hwrite⟩ := exists_of_isOk hs₃.2
    exact ⟨s₁, s₂, s₃, hop, write, hrun₁, hhop, hreader, hshort, hstep, hrun₃, hs₃.1, hwrite⟩
  · cases hs₁

end Mlrc
