import Mlrc.Pipeline.Window

/-!
# Error-free runs of a process

A process that meets no error passes on its stream in order: what it got is the concatenation of what
it has sent, what its threads hold and what is queued between them.

* `Outlet.Clean`   the sender, its queue and the end of the stream;
* `HeadPc.Clean`, `HopState.Clean`   the threads of the chain head and of a hop server;
* `SerialHeadState.Clean`, `SerialHopState.Clean`   the same with a window of 1;
* `headStep_clean`, `hopStep_clean`  a step keeps the order, and is counted;
* `head_stuck`, `hop_stuck`   a process that cannot go on has sent everything.
-/

namespace Mlrc

open List Option Bool

variable {x : Shard} {item : PipelineQueuedShard} {pc : HeadPc} {out : Outlet} {s : SerialHeadState}
  {w : Wire} {received : ℕ}

/-! ## The shards of a complete stream -/

/-- the first `k` shards of a stream, in order -/
def shardList (payload : ℕ → List UInt8) (k : ℕ) : List Shard := (range k).map fun i => (i, payload i)

section
variable {payload : ℕ → List UInt8} {k m : ℕ}

@[simp] theorem length_shardList : (shardList payload k).length = k := by
  rw [shardList, length_map, length_range]

theorem shardList_succ : shardList payload (k + 1) = shardList payload k ++ [(k, payload k)] := by
  unfold shardList
  rw [range_succ, map_append]
  rfl

theorem getElem?_shardList : (shardList payload k)[m]? = if m < k then some (m, payload m) else none := by
  unfold shardList
  rw [getElem?_map]
  split
  · next h => rw [getElem?_range h]; rfl
  · next h => rw [getElem?_eq_none (by simpa using h)]; rfl

theorem eq_shardList_of_initial {xs : List Shard} (h : xs <+: shardList payload k) :
    xs = shardList payload xs.length ∧ xs.length ≤ k := by
  have hle : xs.length ≤ k := by
    have := h.length_le
    rwa [length_shardList] at this
  refine ⟨?_, hle⟩
  rw [prefix_iff_eq_take.mp h, length_take, length_shardList, min_eq_left hle]
  unfold shardList
  rw [← map_take, take_range, min_eq_left hle]

theorem shardList_initial (h : m ≤ k) : shardList payload m <+: shardList payload k := by
  unfold shardList
  refine List.IsPrefix.map _ ?_
  obtain ⟨d, rfl⟩ := exists_add_of_le h
  rw [range_add]
  exact prefix_append _ _

end

/-! ## Items in queues -/

def PipelineQueuedShard.shard? : PipelineQueuedShard → Option Shard
  | .shard x => some x
  | .endOfStream _ => none

/-- the items that carry a stream through a queue: shards, and then an end with a count -/
def queueItems (xs : List Shard) (ends : Option ℕ) : List PipelineQueuedShard :=
  xs.map .shard ++ (ends.map .endOfStream).toList

section
variable {xs ys : List Shard} {ends : Option ℕ} {items : List PipelineQueuedShard}

theorem filterMap_shards (xs : List Shard) :
    (xs.map PipelineQueuedShard.shard).filterMap (·.shard?) = xs := by
  rw [filterMap_map]
  exact filterMap_some

theorem filterMap_queueItems (xs : List Shard) (ends : Option ℕ) :
    (queueItems xs ends).filterMap (·.shard?) = xs := by
  unfold queueItems
  rw [filterMap_append, filterMap_shards]
  cases ends <;> simp [PipelineQueuedShard.shard?]

theorem prefix_of_queueItems (h : xs.map .shard ++ items = queueItems ys ends) : xs <+: ys := by
  have hshards := congrArg (List.filterMap (·.shard?)) h
  rw [filterMap_append, filterMap_shards, filterMap_queueItems] at hshards
  exact ⟨_, hshards⟩

theorem prefix_of_shard_queueItems (h : xs.map .shard ++ .shard x :: items = queueItems ys ends) :
    xs ++ [x] <+: ys := by
  have hall : (xs ++ [x]).map .shard ++ items = queueItems ys ends := by
    rw [← h, map_append, append_assoc]
    rfl
  exact prefix_of_queueItems hall

theorem eq_of_end_queueItems {count : ℕ}
    (h : xs.map .shard ++ .endOfStream count :: items = queueItems ys ends) :
    xs = ys ∧ ends = some count ∧ items = [] := by
  induction xs generalizing ys with
  | nil =>
    cases ys with
    | nil =>
      cases ends with
      | none => cases h
      | some c =>
        cases h
        exact ⟨rfl, rfl, rfl⟩
    | cons y ys => cases h
  | cons x xs ih =>
    cases ys with
    | nil => cases ends <;> cases h
    | cons y ys =>
      obtain ⟨hxy, hrest⟩ := cons.inj h
      cases hxy
      obtain ⟨rfl, hends, hitems⟩ := ih hrest
      exact ⟨rfl, hends, hitems⟩

theorem queueItems_none (xs : List Shard) : queueItems xs none = xs.map .shard := append_nil _

theorem queueItems_concat (xs : List Shard) (x : Shard) :
    queueItems (xs ++ [x]) none = queueItems xs none ++ [.shard x] := by
  rw [queueItems_none, queueItems_none, map_append]
  rfl

theorem queueItems_end (xs : List Shard) (count : ℕ) :
    queueItems xs (some count) = queueItems xs none ++ [.endOfStream count] := by
  rw [queueItems_none]
  rfl

end

/-! ## The sender of an error-free run -/

/-- what a sender holds; an end is held until it is sent -/
def SenderPc.items : SenderPc → List PipelineQueuedShard
  | .sending x => [.shard x]
  | .checking | .sendingEnd | .ended => [.endOfStream 0]
  | _ => []

/-- the shards `xs`, and an end if `full`, were pushed; they are sent, in the sender's hand or queued -/
structure Outlet.Clean (xs : List Shard) (full : Bool) (o : Outlet) : Prop where
  ok : o.pipelineFailed = false
  open_sender : o.sender ≠ .closingInbound ∧ o.sender ≠ .closingOutbound
  flow : o.forwarded.map .shard ++ (o.sender.items ++ o.queue.items) =
    queueItems xs (if full then some 0 else none)
  ended : o.endSent = true ↔ o.sender = .ended
  closed : o.queue.closed = true → full = true

namespace Outlet
variable {xs : List Shard} {full : Bool} {o o' : Outlet} {onFail : SenderPc} {window : ℕ}

theorem Clean.forwarded_extends (h : o.Clean xs full) : o.forwarded <+: xs := prefix_of_queueItems h.flow

theorem Clean.all_sent (h : o.Clean xs full) (hpc : o.sender.items = [.endOfStream 0]) :
    o.forwarded = xs ∧ full = true ∧ o.queue.items = [] := by
  have hflow := h.flow
  rw [hpc] at hflow
  obtain ⟨hxs, hends, hitems⟩ := eq_of_end_queueItems hflow
  refine ⟨hxs, ?_, hitems⟩
  cases full with
  | true => rfl
  | false => cases hends

theorem Clean.move (h : o.Clean xs full) (hmove : SenderMove onFail o true o') : o'.Clean xs full := by
  have hflow := h.flow
  have hend := h.ended
  cases hmove with
  | take hpc hpop =>
    rcases BoundedQueue.pop_cases hpop with ⟨y, ⟨⟩, hitems, hclosed⟩ | ⟨⟨⟩, -⟩
    rw [hpc, hitems] at hflow
    rw [hpc] at hend
    exact ⟨h.ok, by simp, hflow, by simpa using hend, fun hc => h.closed (hclosed ▸ hc)⟩
  | leave hpc hpop hitem =>
    rw [hpc] at hflow hend
    rcases BoundedQueue.pop_cases hpop with ⟨y, rfl, hitems, hclosed⟩ | ⟨rfl, hitems, hclosed, rfl⟩
    · -- the popped item is the end, and the end that was pushed has count 0
      cases y with
      | shard x => exact absurd rfl (hitem x)
      | endOfStream count =>
        rw [hitems] at hflow
        have hcount : count = 0 := by
          have hends := (eq_of_end_queueItems hflow).2.1
          split at hends
          · exact (some.inj hends).symm
          · cases hends
        subst hcount
        exact ⟨h.ok, by simp, hflow, by simpa using hend, fun hc => h.closed (hclosed ▸ hc)⟩
    · -- a queue that is closed and empty would have lost the end
      rw [hitems, h.closed hclosed] at hflow
      have hlen := congrArg List.length hflow
      have hxs := congrArg (List.filterMap (·.shard?)) hflow
      rw [filterMap_append, filterMap_shards, filterMap_queueItems] at hxs
      simp [queueItems, SenderPc.items, ← hxs] at hlen
  | send hpc =>
    rw [hpc] at hflow hend
    refine ⟨h.ok, by simp, ?_, by simpa using hend, h.closed⟩
    rw [map_append, append_assoc]
    exact hflow
  | close hpc => exact absurd hpc h.open_sender.2
  | giveUp hpc hfailed => exact absurd (h.ok.symm.trans hfailed) Bool.false_ne_true
  | goOn hpc =>
    rw [hpc] at hflow hend
    exact ⟨h.ok, by simp, hflow, by simpa using hend, h.closed⟩
  | sendEnd hpc =>
    rw [hpc] at hflow
    exact ⟨h.ok, by simp, hflow, by simp, h.closed⟩

theorem Clean.of_push {ys : List Shard} (h : o.Clean xs false) (hpush : o.push window item = some o')
    (hitems : queueItems ys (if full then some 0 else none) = queueItems xs none ++ [item]) :
    o'.Clean ys full := by
  obtain ⟨queue, hq, rfl⟩ := map_eq_some_iff.mp hpush
  rcases BoundedQueue.push_cases hq with ⟨hclosed, -⟩ | ⟨-, rfl⟩
  · exact absurd (h.closed hclosed) Bool.false_ne_true
  · refine ⟨h.ok, h.open_sender, ?_, h.ended, fun hc => absurd (h.closed hc) Bool.false_ne_true⟩
    rw [hitems, ← append_assoc, ← append_assoc]
    exact congrArg (· ++ [item]) (append_assoc _ _ _ ▸ h.flow)

theorem Clean.push (h : o.Clean xs false) (hpush : o.push window (.shard x) = some o') :
    o'.Clean (xs ++ [x]) false := h.of_push hpush (queueItems_concat xs x)

theorem Clean.pushEnd (h : o.Clean xs false) (hpush : o.push window (.endOfStream 0) = some o') :
    o'.Clean xs true := h.of_push hpush (queueItems_end xs 0)

theorem Clean.close (h : o.Clean xs true) : o.close.Clean xs true :=
  ⟨h.ok, h.open_sender, h.flow, h.ended, fun _ => rfl⟩

end Outlet

/-! ## Steps of an error-free run

Every step counts, so that the work done bounds the length of a run. -/

/-- what is on a connection is the beginning of the stream `payload` -/
structure Wire.Carries (n : ℕ) (payload : ℕ → List UInt8) (w : Wire) : Prop where
  shards : w.shards <+: shardList payload n
  ended : ∀ count ∈ w.endCount, count = n ∧ w.shards = shardList payload n

theorem Wire.carries_of_sent {n : ℕ} {payload : ℕ → List UInt8} {forwarded : List Shard} {endSent : Bool}
    (hsent : forwarded <+: shardList payload n)
    (hend : endSent = false ∨ forwarded = shardList payload n) :
    Wire.Carries n payload { shards := forwarded, endCount := if endSent then some n else none } where
  shards := hsent
  ended := by
    intro count hcount
    rw [mem_def, ite_none_right_eq_some] at hcount
    exact ⟨(some.inj hcount.2).symm, hend.resolve_left (ne_false_of_eq_true hcount.1)⟩

def SenderPc.work : SenderPc → ℕ
  | .popping | .closingInbound | .closingOutbound => 0
  | .sending _ | .checking => 1
  | .sendingEnd => 2
  | .ended => 3

def Outlet.work (o : Outlet) : ℕ := 2 * o.forwarded.length + o.sender.work

theorem SenderMove.not_ended {onFail : SenderPc} {o o' : Outlet} {ok : Bool}
    (h : SenderMove onFail o ok o') : o.sender ≠ .ended := by
  intro hended
  cases h with
  | take hpc | leave hpc | send hpc | sendFails hpc | close hpc | giveUp hpc | goOn hpc | sendEnd hpc
  | sendEndFails hpc =>
    rw [hended] at hpc
    cases hpc

namespace Outlet
variable {xs : List Shard} {full : Bool} {o o' : Outlet} {onFail : SenderPc} {window : ℕ}

theorem Clean.work_move (h : o.Clean xs full) (hmove : SenderMove onFail o true o') :
    o'.work = o.work + 1 := by
  unfold Outlet.work
  cases hmove with
  | take hpc | leave hpc | goOn hpc | sendEnd hpc => rw [hpc]; rfl
  | send hpc =>
    rw [hpc, length_append]
    show 2 * (o.forwarded.length + 1) + 0 = 2 * o.forwarded.length + 1 + 1
    omega
  | close hpc => exact absurd hpc h.open_sender.2
  | giveUp hpc hfailed => exact absurd (h.ok.symm.trans hfailed) Bool.false_ne_true

theorem work_push (hpush : o.push window item = some o') : o'.work = o.work := by
  obtain ⟨queue, -, rfl⟩ := map_eq_some_iff.mp hpush
  rfl

theorem work_close (o : Outlet) : o.close.work = o.work := rfl

theorem Clean.work_le (h : o.Clean xs full) : o.work ≤ 2 * xs.length + 3 := by
  have hlen := h.forwarded_extends.length_le
  have hpc : o.sender.work ≤ 3 := by cases o.sender <;> simp [SenderPc.work]
  unfold Outlet.work
  omega

theorem Clean.carries {n : ℕ} {payload : ℕ → List UInt8} (h : o.Clean xs full)
    (hxs : xs <+: shardList payload n) (hfull : full = true → xs = shardList payload n) :
    Wire.Carries n payload { shards := o.forwarded, endCount := if o.endSent then some n else none } := by
  refine Wire.carries_of_sent (h.forwarded_extends.trans hxs) ?_
  refine (Bool.eq_false_or_eq_true o.endSent).symm.imp_right fun hend => ?_
  obtain ⟨hall, hend, -⟩ := h.all_sent (by rw [h.ended.mp hend]; rfl)
  rw [hall, hfull hend]

theorem Clean.stuck (h : o.Clean xs full) (hstuck : o.senderStep onFail true = none) :
    o.sender = .ended ∨ o.sender = .popping ∧ o.queue.items = [] ∧ full = false := by
  unfold senderStep at hstuck
  split at hstuck
  · next hpc =>
    refine .inr ⟨hpc, ?_⟩
    split at hstuck
    · next hpop =>
      have hitems := (BoundedQueue.pop_eq_none.mp hpop).1
      refine ⟨hitems, eq_false_iff.mpr fun hfull => ?_⟩
      -- an end that was pushed is in the queue
      have hflow := h.flow
      rw [hpc, hitems, hfull] at hflow
      have hend : PipelineQueuedShard.endOfStream 0 ∈ queueItems xs (some 0) := by simp [queueItems]
      rw [if_pos rfl] at hflow
      rw [← hflow] at hend
      simp [SenderPc.items] at hend
    · cases hstuck
    · cases hstuck
  · cases hstuck
  · next hpc => exact absurd hpc h.open_sender.1
  · cases hstuck
  · split at hstuck <;> cases hstuck
  · cases hstuck
  · next hpc => exact .inl hpc

theorem Clean.stuck_push (h : o.Clean xs false) (hwindow : 0 < window)
    (hpush : o.push window item = none) : o.senderStep onFail true ≠ none := by
  intro hstuck
  have hfull := (BoundedQueue.push_eq_none.mp (map_eq_none_iff.mp hpush)).2
  rcases h.stuck hstuck with hended | ⟨-, hitems, -⟩
  · exact Bool.false_ne_true (h.all_sent (by rw [hended]; rfl)).2.1
  · rw [hitems] at hfull
    exact absurd hfull (Nat.not_le_of_lt hwindow)

end Outlet

/-! ## The chain head -/

section
variable {n len window : ℕ} {st : Stage} {t : Thread} {payload : ℕ → List UInt8}

/-- where the thread of the chain head is in the stream -/
def HeadPc.Clean (n : ℕ) (payload : ℕ → List UInt8) (out : Outlet) : HeadPc → Prop
  | .looping i => i ≤ n ∧ out.Clean (shardList payload i) false
  | .reading i => i < n ∧ out.Clean (shardList payload i) false
  | .pushing x => x.1 < n ∧ x.2 = payload x.1 ∧ out.Clean (shardList payload x.1) false
  | .pushingEnd => out.Clean (shardList payload n) false
  | .closing | .joining => out.Clean (shardList payload n) true
  | .finished => out.Clean (shardList payload n) true ∧ out.sender = .ended

def HeadPc.work (n : ℕ) : HeadPc → ℕ
  | .looping i => 3 * i
  | .reading i => 3 * i + 1
  | .pushing x => 3 * x.1 + 2
  | .pushingEnd => 3 * n + 1
  | .closing => 3 * n + 2
  | .joining => 3 * n + 3
  | .finished => 3 * n + 4

theorem HeadPc.Clean.sender {out' : Outlet} (h : pc.Clean n payload out)
    (hmove : SenderMove .closingOutbound out true out') : pc.Clean n payload out' := by
  cases pc with
  | looping i => exact ⟨h.1, h.2.move hmove⟩
  | reading i => exact ⟨h.1, h.2.move hmove⟩
  | pushing x => exact ⟨h.1, h.2.1, h.2.2.move hmove⟩
  | pushingEnd | closing | joining => exact h.move hmove
  | finished => exact absurd h.2 hmove.not_ended

theorem HeadPc.Clean.outlet (h : pc.Clean n payload out) :
    ∃ k ≤ n, ∃ full, (full = true → k = n) ∧ out.Clean (shardList payload k) full := by
  cases pc with
  | looping i => exact ⟨i, h.1, false, nofun, h.2⟩
  | reading i => exact ⟨i, h.1.le, false, nofun, h.2⟩
  | pushing x => exact ⟨x.1, h.1.le, false, nofun, h.2.2⟩
  | pushingEnd | closing | joining => exact ⟨n, le_rfl, _, fun _ => rfl, h⟩
  | finished => exact ⟨n, le_rfl, _, fun _ => rfl, h.1⟩

theorem HeadPc.Clean.work_le (h : pc.Clean n payload out) : pc.work n + out.work ≤ 5 * n + 7 := by
  obtain ⟨k, hk, full, -, hout⟩ := h.outlet
  have hsender := hout.work_le
  rw [length_shardList] at hsender
  have hmain : pc.work n ≤ 3 * n + 4 := by
    cases pc with
    | looping i | reading i | pushing x =>
      have hle := h.1
      simp only [HeadPc.work]
      omega
    | pushingEnd | closing | joining | finished =>
      simp only [HeadPc.work]
      omega
  omega

theorem headStep_clean (hread : ∀ i < n, st.headShard len i = some (i, payload i)) {s s' : HeadState}
    (hs : s.main.Clean n payload s.out) (h : headStep n len window st t true s = some s') :
    s'.main.Clean n payload s'.out ∧
      s'.main.work n + s'.out.work = s.main.work n + s.out.work + 1 := by
  obtain ⟨main, out⟩ := s
  cases t with
  | reader => cases h
  | sender =>
    obtain ⟨out', hstep, rfl⟩ := map_eq_some_iff.mp h
    have hmove := Outlet.senderStep_move hstep
    obtain ⟨k, -, full, -, hout⟩ := hs.outlet
    exact ⟨hs.sender hmove, congrArg (main.work n + ·) (hout.work_move hmove)⟩
  | main =>
    cases main with
    | looping i =>
      obtain ⟨hi, hout⟩ := hs
      unfold headStep at h
      simp only at h
      split at h
      · next hlt =>
        cases h
        exact ⟨⟨hlt.1, hout⟩, by simp only [HeadPc.work]; omega⟩
      · next hge =>
        cases h
        have hin : i = n := by
          by_contra hne
          exact hge ⟨by omega, hout.ok⟩
        subst hin
        exact ⟨hout, by simp only [HeadPc.work]; omega⟩
    | reading i =>
      obtain ⟨hi, hout⟩ := hs
      simp only [headStep, if_true, hread i hi, some.injEq] at h
      subst h
      exact ⟨⟨hi, rfl, hout⟩, by simp only [HeadPc.work]; omega⟩
    | pushing x =>
      obtain ⟨hx, hpayload, hout⟩ := hs
      obtain ⟨out', hpush, rfl⟩ := map_eq_some_iff.mp h
      refine ⟨⟨hx, ?_⟩, ?_⟩
      · rw [shardList_succ, ← hpayload]
        exact hout.push hpush
      · simp only [HeadPc.work, Outlet.work_push hpush]
        omega
    | pushingEnd =>
      obtain ⟨out', hpush, rfl⟩ := map_eq_some_iff.mp h
      refine ⟨hs.pushEnd hpush, ?_⟩
      simp only [HeadPc.work, Outlet.work_push hpush]
      omega
    | closing =>
      cases h
      exact ⟨hs.close, by simp only [HeadPc.work, Outlet.work_close]; omega⟩
    | joining =>
      obtain ⟨hended, h⟩ := ite_none_right_eq_some.mp h
      cases h
      exact ⟨⟨hs, hended⟩, by simp only [HeadPc.work]; omega⟩
    | finished => cases h

theorem head_stuck {s : HeadState} (hwindow : 0 < window) (hs : s.main.Clean n payload s.out)
    (hstuck : ∀ t, headStep n len window st t true s = none) :
    s.main = .finished ∧ s.out.forwarded = shardList payload n ∧ s.out.endSent = true := by
  have hmain := hstuck .main
  have hsender : s.out.senderStep .closingOutbound true = none := map_eq_none_iff.mp (hstuck .sender)
  obtain ⟨main, out⟩ := s
  cases main with
  | looping i =>
    unfold headStep at hmain
    simp only at hmain
    split at hmain <;> cases hmain
  | reading i =>
    unfold headStep at hmain
    simp only [if_true] at hmain
    split at hmain <;> cases hmain
  | pushing x => exact absurd hsender (hs.2.2.stuck_push hwindow (map_eq_none_iff.mp hmain))
  | pushingEnd => exact absurd hsender (Outlet.Clean.stuck_push hs hwindow (map_eq_none_iff.mp hmain))
  | closing => cases hmain
  | joining =>
    rcases Outlet.Clean.stuck hs hsender with hended | ⟨-, -, ⟨⟩⟩
    unfold headStep at hmain
    simp only at hmain hended
    rw [if_pos hended] at hmain
    cases hmain
  | finished =>
    obtain ⟨hout, hended⟩ := hs
    exact ⟨rfl, (hout.all_sent (by rw [hended]; rfl)).1, hout.ended.mpr hended⟩

end

/-! ## A window of 1 -/

section
variable {n len : ℕ} {st : Stage} {t : Thread} {inp payload : ℕ → List UInt8}

def SerialHeadState.Clean (n : ℕ) (payload : ℕ → List UInt8) (s : SerialHeadState) : Prop :=
  match s.main with
  | .looping i => i ≤ n ∧ s.forwarded = shardList payload i ∧ s.endSent = false
  | .reading i => i < n ∧ s.forwarded = shardList payload i ∧ s.endSent = false
  | .sending x => x.1 < n ∧ x.2 = payload x.1 ∧ s.forwarded = shardList payload x.1 ∧ s.endSent = false
  | .sendingEnd => s.forwarded = shardList payload n ∧ s.endSent = false
  | .finished => s.forwarded = shardList payload n ∧ s.endSent = true
  | .failed => False

def SerialHeadPc.work (n : ℕ) : SerialHeadPc → ℕ
  | .looping i => 3 * i
  | .reading i => 3 * i + 1
  | .sending x => 3 * x.1 + 2
  | .sendingEnd => 3 * n + 1
  | .finished => 3 * n + 2
  | .failed => 0

theorem SerialHeadState.Clean.work_le (h : s.Clean n payload) : s.main.work n ≤ 3 * n + 2 := by
  obtain ⟨main, forwarded, endSent⟩ := s
  cases main with
  | looping i | reading i | sending x =>
    have hle := h.1
    simp only [SerialHeadPc.work]
    omega
  | sendingEnd | finished =>
    simp only [SerialHeadPc.work]
    omega
  | failed => exact absurd h id

theorem SerialHeadState.Clean.carries (h : s.Clean n payload) :
    Wire.Carries n payload { shards := s.forwarded, endCount := if s.endSent then some n else none } := by
  obtain ⟨main, forwarded, endSent⟩ := s
  cases main with
  | looping i | reading i =>
    obtain ⟨hi, hsent, hend⟩ := h
    exact Wire.carries_of_sent (hsent ▸ shardList_initial (by omega)) (.inl hend)
  | sending x =>
    obtain ⟨hx, -, hsent, hend⟩ := h
    exact Wire.carries_of_sent (hsent ▸ shardList_initial hx.le) (.inl hend)
  | sendingEnd | finished =>
    exact Wire.carries_of_sent (h.1 ▸ prefix_rfl) (.inr h.1)
  | failed => exact absurd h id

theorem serialHeadStep_clean (hread : ∀ i < n, st.headShard len i = some (i, payload i))
    {s' : SerialHeadState} (hs : s.Clean n payload) (h : serialHeadStep n len st t true s = some s') :
    s'.Clean n payload ∧ s'.main.work n = s.main.work n + 1 := by
  obtain ⟨main, forwarded, endSent⟩ := s
  cases t with
  | reader | sender => cases h
  | main =>
    cases main with
    | looping i =>
      obtain ⟨hi, hsent⟩ := hs
      unfold serialHeadStep at h
      simp only at h
      split at h
      · next hlt =>
        cases h
        exact ⟨⟨hlt, hsent⟩, rfl⟩
      · next hge =>
        cases h
        obtain rfl : i = n := by omega
        exact ⟨hsent, rfl⟩
    | reading i =>
      obtain ⟨hi, hsent⟩ := hs
      simp only [serialHeadStep, if_true, hread i hi, some.injEq] at h
      subst h
      exact ⟨⟨hi, rfl, hsent⟩, rfl⟩
    | sending x =>
      obtain ⟨hx, hpayload, hsent, hend⟩ := hs
      cases h
      refine ⟨⟨hx, ?_, hend⟩, rfl⟩
      rw [shardList_succ, ← hpayload, ← hsent]
    | sendingEnd =>
      cases h
      exact ⟨⟨hs.1, rfl⟩, rfl⟩
    | finished | failed => cases h

theorem serialHead_stuck (hs : s.Clean n payload)
    (hstuck : serialHeadStep n len st .main true s = none) :
    s.main = .finished ∧ s.forwarded = shardList payload n ∧ s.endSent = true := by
  obtain ⟨main, forwarded, endSent⟩ := s
  cases main with
  | looping i =>
    unfold serialHeadStep at hstuck
    simp only at hstuck
    split at hstuck <;> cases hstuck
  | reading i =>
    unfold serialHeadStep at hstuck
    simp only [if_true] at hstuck
    split at hstuck <;> cases hstuck
  | sending x | sendingEnd => cases hstuck
  | finished => exact ⟨rfl, hs⟩
  | failed => exact absurd hs id

/-- a hop server reads shard `k` of its stream when it adds its block to shard `k` -/
def SerialHopState.Clean (n : ℕ) (inp payload : ℕ → List UInt8) (s : SerialHopState) : Prop :=
  match s.main with
  | .receiving => s.reads ≤ n ∧ s.received = s.reads ∧ s.forwarded = shardList payload s.reads ∧
      s.endSent = false
  | .computing x => s.reads < n ∧ s.received = s.reads + 1 ∧ x = (s.reads, inp s.reads) ∧
      s.forwarded = shardList payload s.reads ∧ s.endSent = false
  | .sending y => s.reads ≤ n ∧ s.received = s.reads ∧
      s.forwarded ++ [y] = shardList payload s.reads ∧ s.endSent = false
  | .checkingEnd count => count = n ∧ s.reads = n ∧ s.received = n ∧
      s.forwarded = shardList payload n ∧ s.endSent = false
  | .sendingEnd => s.reads = n ∧ s.received = n ∧ s.forwarded = shardList payload n ∧ s.endSent = false
  | .finished => s.reads = n ∧ s.received = n ∧ s.forwarded = shardList payload n ∧ s.endSent = true
  | .failed => False

def SerialHopState.work (s : SerialHopState) : ℕ :=
  match s.main with
  | .receiving => 3 * s.reads + 1
  | .computing _ => 3 * s.reads + 2
  | .sending _ => 3 * s.reads
  | .checkingEnd _ => 3 * s.reads + 2
  | .sendingEnd => 3 * s.reads + 3
  | .finished => 3 * s.reads + 4
  | .failed => 0

theorem SerialHopState.Clean.work_le {s : SerialHopState} (h : s.Clean n inp payload) :
    s.work ≤ 3 * n + 4 := by
  obtain ⟨main, received, reads, forwarded, endSent⟩ := s
  cases main with
  | receiving | computing x | sending y | sendingEnd | finished =>
    have hle := h.1
    simp only [SerialHopState.work] at hle ⊢
    omega
  | checkingEnd count =>
    have hle := h.2.1
    simp only [SerialHopState.work] at hle ⊢
    omega
  | failed => exact absurd h id

theorem SerialHopState.Clean.carries {s : SerialHopState} (h : s.Clean n inp payload) :
    Wire.Carries n payload { shards := s.forwarded, endCount := if s.endSent then some n else none } := by
  obtain ⟨main, received, reads, forwarded, endSent⟩ := s
  cases main with
  | receiving =>
    obtain ⟨hle, -, hsent, hend⟩ := h
    exact Wire.carries_of_sent (hsent ▸ shardList_initial hle) (.inl hend)
  | computing x =>
    obtain ⟨hlt, -, -, hsent, hend⟩ := h
    exact Wire.carries_of_sent (hsent ▸ shardList_initial hlt.le) (.inl hend)
  | sending y =>
    obtain ⟨hle, -, hsent, hend⟩ := h
    have hinitial : forwarded <+: shardList payload reads := ⟨[y], hsent⟩
    exact Wire.carries_of_sent (hinitial.trans (shardList_initial hle)) (.inl hend)
  | checkingEnd count =>
    obtain ⟨-, -, -, hsent, -⟩ := h
    exact Wire.carries_of_sent (hsent ▸ prefix_rfl) (.inr hsent)
  | sendingEnd | finished =>
    obtain ⟨-, -, hsent, -⟩ := h
    exact Wire.carries_of_sent (hsent ▸ prefix_rfl) (.inr hsent)
  | failed => exact absurd h id

theorem Wire.Carries.shard (h : w.Carries n payload)
    (hnext : w.next received = some (.shard x)) : received < n ∧ x = (received, payload received) := by
  have hx := Wire.next_shard hnext
  rw [(eq_shardList_of_initial h.shards).1, getElem?_shardList] at hx
  have hle := (eq_shardList_of_initial h.shards).2
  split at hx
  · next hlt => exact ⟨hlt.trans_le hle, (some.inj hx).symm⟩
  · cases hx

theorem Wire.Carries.endOfStream (h : w.Carries n payload) {count : ℕ}
    (hnext : w.next received = some (.endOfStream count)) : count = n ∧ n ≤ received := by
  obtain ⟨rfl, hall⟩ := h.ended count (Wire.endCount_of_next hnext)
  refine ⟨rfl, ?_⟩
  unfold Wire.next at hnext
  rw [hall, getElem?_shardList] at hnext
  by_contra hlt
  rw [if_pos (by omega)] at hnext
  cases hnext

theorem Wire.next_ne_none (hend : w.endCount = some n) (received : ℕ) : w.next received ≠ none := by
  unfold Wire.next
  split
  · simp
  · simp [hend]

theorem serialHopStep_clean {input : Wire} (hinput : input.Carries n inp)
    (hread : ∀ i < n, st.hopShard n len i (i, inp i) = some (i, payload i)) {s s' : SerialHopState}
    (hs : s.Clean n inp payload) (h : serialHopStep n len st input t true s = some s') :
    s'.Clean n inp payload ∧ s'.work = s.work + 1 := by
  obtain ⟨main, received, reads, forwarded, endSent⟩ := s
  cases t with
  | reader | sender => cases h
  | main =>
    cases main with
    | receiving =>
      obtain ⟨hle, hreceived, hsent⟩ := hs
      simp only at hreceived
      subst hreceived
      simp only [serialHopStep, if_true] at h
      split at h
      · cases h
      · next x hnext =>
        cases h
        obtain ⟨hlt, rfl⟩ := hinput.shard hnext
        exact ⟨⟨hlt, rfl, rfl, hsent⟩, rfl⟩
      · next count hnext =>
        cases h
        obtain ⟨rfl, hge⟩ := hinput.endOfStream hnext
        obtain rfl : received = count := le_antisymm hle hge
        exact ⟨⟨rfl, rfl, rfl, hsent⟩, rfl⟩
    | computing x =>
      obtain ⟨hlt, hreceived, hx, hsent, hend⟩ := hs
      simp only at hx
      subst hx
      simp only [serialHopStep, if_true, hread reads hlt, some.injEq] at h
      subst h
      refine ⟨⟨hlt, hreceived, ?_, hend⟩, rfl⟩
      simp only at hsent ⊢
      rw [hsent, shardList_succ]
    | sending y =>
      obtain ⟨hle, hreceived, hsent, hend⟩ := hs
      cases h
      exact ⟨⟨hle, hreceived, hsent, hend⟩, rfl⟩
    | checkingEnd count =>
      obtain ⟨rfl, hreads, hreceived, hsent, hend⟩ := hs
      simp only at hsent
      simp only [serialHopStep, hsent, length_shardList, if_true, some.injEq] at h
      subst h
      exact ⟨⟨hreads, hreceived, rfl, hend⟩, rfl⟩
    | sendingEnd =>
      obtain ⟨hreads, hreceived, hsent, -⟩ := hs
      cases h
      exact ⟨⟨hreads, hreceived, hsent, rfl⟩, rfl⟩
    | finished | failed => cases h

theorem serialHop_stuck {input : Wire} (hend : input.endCount = some n) {s : SerialHopState}
    (hs : s.Clean n inp payload) (hstuck : serialHopStep n len st input .main true s = none) :
    s.main = .finished ∧ s.received = n ∧ s.forwarded = shardList payload n ∧ s.endSent = true := by
  obtain ⟨main, received, reads, forwarded, endSent⟩ := s
  cases main with
  | receiving =>
    unfold serialHopStep at hstuck
    simp only [if_true] at hstuck
    split at hstuck
    · next hnext => exact absurd hnext (Wire.next_ne_none hend received)
    · cases hstuck
    · cases hstuck
  | computing x =>
    unfold serialHopStep at hstuck
    simp only [if_true] at hstuck
    split at hstuck <;> cases hstuck
  | sending y | sendingEnd => cases hstuck
  | checkingEnd count =>
    unfold serialHopStep at hstuck
    simp only at hstuck
    split at hstuck <;> cases hstuck
  | finished => exact ⟨rfl, hs.2⟩
  | failed => exact absurd hs id

end

/-! ## Hop servers -/

def ReaderPc.items : ReaderPc → List PipelineQueuedShard
  | .pushing x => [.shard x]
  | .pushingEnd count => [.endOfStream count]
  | _ => []

def ReaderPc.pastEnd : ReaderPc → Bool
  | .pushingEnd _ | .exiting | .ended => true
  | _ => false

/-- what the thread holds of the inbound queue; an end is held to the last -/
def HopPc.items (n : ℕ) : HopPc → List PipelineQueuedShard
  | .computing x => [.shard x]
  | .popping | .failing | .pushing _ => []
  | _ => [.endOfStream n]

/-- what the thread holds for the outbound queue -/
def HopPc.held : HopPc → List Shard
  | .pushing y => [y]
  | _ => []

def HopPc.full : HopPc → Bool
  | .closingInbound | .closingOutbound | .joining | .finished => true
  | _ => false

theorem HopPc.items_of_full (n : ℕ) {pc : HopPc} (h : pc.full = true) :
    pc.items n = [.endOfStream n] ∧ pc.held = [] := by
  cases pc with
  | closingInbound | closingOutbound | joining | finished => exact ⟨rfl, rfl⟩
  | _ => cases h

/-- a hop server in the middle of its stream: the shards it got are added, in the hand of the thread,
queued or in the reader's hand, in this order -/
structure HopState.Clean (n : ℕ) (inp payload : ℕ → List UInt8) (s : HopState) : Prop where
  ok : s.readerFailed = false
  open_reader : s.reader ≠ .closingInbound ∧ s.reader ≠ .closingOutbound
  adding : s.main ≠ .failing
  received_le : s.received ≤ n
  inflow : (shardList inp s.reads).map .shard ++ (s.main.items n ++ (s.inbound.items ++ s.reader.items)) =
    queueItems (shardList inp s.received) (if s.reader.pastEnd then some n else none)
  past_end : s.reader.pastEnd = true → s.received = n
  closed : s.inbound.closed = true → s.reader = .ended ∨ s.main.items n = [.endOfStream n]
  outflow : ∃ xs, xs ++ s.main.held = shardList payload s.reads ∧ s.out.Clean xs s.main.full
  finished : s.main = .finished → s.reader = .ended ∧ s.out.sender = .ended

namespace HopState
variable {n len window : ℕ} {st : Stage} {inp payload : ℕ → List UInt8} {input : Wire} {s s' : HopState}

section
variable (hs : s.Clean n inp payload)
include hs

theorem Clean.computing (hpc : s.main = .computing x) :
    s.reads < n ∧ x = (s.reads, inp s.reads) := by
  have hflow := hs.inflow
  rw [hpc] at hflow
  have hinitial : shardList inp s.reads ++ [x] <+: shardList inp s.received :=
    prefix_of_shard_queueItems hflow
  have hlen := hinitial.length_le
  rw [length_append, length_shardList, length_shardList, length_singleton] at hlen
  have hx : (shardList inp s.received)[s.reads]? = some x := by
    obtain ⟨rest, hrest⟩ := hinitial
    rw [← hrest, append_assoc, getElem?_append_right (by simp), length_shardList, Nat.sub_self]
    rfl
  rw [getElem?_shardList, if_pos (by omega)] at hx
  have hle := hs.received_le
  exact ⟨by omega, (some.inj hx).symm⟩

theorem Clean.all_added (hpc : s.main.items n = [.endOfStream n]) :
    s.reads = n ∧ s.received = n ∧ s.reader.pastEnd = true ∧ s.inbound.items = [] ∧ s.reader.items = [] := by
  have hflow := hs.inflow
  rw [hpc] at hflow
  obtain ⟨hxs, hends, hitems⟩ := eq_of_end_queueItems hflow
  have hpast : s.reader.pastEnd = true := by
    by_contra hno
    rw [if_neg hno] at hends
    cases hends
  have hlen := congrArg List.length hxs
  rw [length_shardList, length_shardList] at hlen
  obtain ⟨hinbound, hreader⟩ := append_eq_nil_iff.mp (append_eq_nil_iff.mp hitems).2
  exact ⟨hlen.trans (hs.past_end hpast), hs.past_end hpast, hpast, hinbound, hreader⟩

theorem Clean.open_inbound (hreader : s.reader.items ≠ []) : s.inbound.closed = false := by
  refine eq_false_iff.mpr fun hclosed => hreader ?_
  rcases hs.closed hclosed with hended | hitems
  · rw [hended]
    rfl
  · exact (hs.all_added hitems).2.2.2.2

theorem Clean.set_reader (hreader : s.reader ≠ .ended) {reader : ReaderPc}
    {inbound : BoundedQueue PipelineQueuedShard}
    (hopen : reader ≠ .closingInbound ∧ reader ≠ .closingOutbound) (hle : received ≤ n)
    (hflow : (shardList inp s.reads).map .shard ++ (s.main.items n ++ (inbound.items ++ reader.items)) =
      queueItems (shardList inp received) (if reader.pastEnd then some n else none))
    (hpast : reader.pastEnd = true → received = n)
    (hclosed : inbound.closed = true → reader = .ended ∨ s.inbound.closed = true) :
    Clean n inp payload { s with reader, inbound, received } where
  ok := hs.ok
  open_reader := hopen
  adding := hs.adding
  received_le := hle
  inflow := hflow
  past_end := hpast
  closed := fun hc => (hclosed hc).imp_right fun hc => (hs.closed hc).resolve_left hreader
  outflow := hs.outflow
  finished := fun hfin => absurd (hs.finished hfin).1 hreader

/-- the reader has pushed what it held -/
theorem Clean.pushed {inbound : BoundedQueue PipelineQueuedShard} {reader : ReaderPc}
    (hreader : s.reader.items = [item]) (hpush : s.inbound.push window item = some inbound)
    (hopen : reader ≠ .closingInbound ∧ reader ≠ .closingOutbound) (hitems : reader.items = [])
    (hpast : reader.pastEnd = s.reader.pastEnd) :
    Clean n inp payload { s with reader, inbound } := by
  have hinbound := hs.open_inbound (by rw [hreader]; simp)
  rcases BoundedQueue.push_cases hpush with ⟨hclosed, -⟩ | ⟨-, rfl⟩
  · exact absurd (hinbound.symm.trans hclosed) Bool.false_ne_true
  · refine hs.set_reader (fun hended => ?_) hopen hs.received_le ?_ (fun hc => hs.past_end (hpast ▸ hc)) .inr
    · rw [hended] at hreader
      cases hreader
    · rw [hitems, append_nil, ← hreader, hpast]
      exact hs.inflow

theorem Clean.reader (hinput : input.Carries n inp)
    (h : ReaderMove window input s true s') : s'.Clean n inp payload := by
  have hflow := hs.inflow
  cases h with
  | stop hpc hfailed => exact absurd (hs.ok.symm.trans hfailed) Bool.false_ne_true
  | goOn hpc =>
    rw [hpc] at hflow
    refine hs.set_reader (by simp [hpc]) (by simp) hs.received_le hflow ?_ .inr
    intro hc
    cases hc
  | receive hpc hnext =>
    obtain ⟨hlt, rfl⟩ := hinput.shard hnext
    rw [hpc] at hflow
    refine hs.set_reader (by simp [hpc]) (by simp) hlt ?_ ?_ .inr
    · have hmore := congrArg (· ++ [PipelineQueuedShard.shard (s.received, inp s.received)]) hflow
      simp only [ReaderPc.items, ReaderPc.pastEnd, false_eq_true, if_false, append_nil,
        append_assoc] at hmore ⊢
      rw [shardList_succ, queueItems_concat]
      exact hmore
    · intro hc
      cases hc
  | @receiveEnd count hpc hnext =>
    obtain ⟨rfl, hge⟩ := hinput.endOfStream hnext
    rw [hpc] at hflow
    refine hs.set_reader (by simp [hpc]) (by simp) hs.received_le ?_ ?_ .inr
    · have hmore := congrArg (· ++ [PipelineQueuedShard.endOfStream count]) hflow
      simp only [ReaderPc.items, ReaderPc.pastEnd, false_eq_true, if_false, if_true,
        append_nil, append_assoc] at hmore ⊢
      rw [queueItems_end]
      exact hmore
    · intro _
      exact le_antisymm hs.received_le hge
  | push hpc hpush | pushEnd hpc hpush =>
    exact hs.pushed (by rw [hpc]; rfl) hpush (by simp) rfl (by rw [hpc]; rfl)
  | exit hpc =>
    rw [hpc] at hflow
    refine hs.set_reader (by simp [hpc]) (by simp) hs.received_le hflow ?_ ?_
    · intro _
      exact hs.past_end (by rw [hpc]; rfl)
    · intro _
      exact .inl rfl
  | closeInbound hpc => exact absurd hpc hs.open_reader.1
  | closeOutbound hpc => exact absurd hpc hs.open_reader.2

end

end HopState

namespace HopState
variable {n len window : ℕ} {st : Stage} {inp payload : ℕ → List UInt8} {input : Wire} {s s' : HopState}

theorem Clean.not_left (hs : s.Clean n inp payload) (hpc : s.main = .popping) (hitems : s.inbound.items = []) :
    s.reader ≠ .ended := by
  intro hended
  have hflow := hs.inflow
  rw [hpc, hitems, hended] at hflow
  have hmem : PipelineQueuedShard.endOfStream n ∈ queueItems (shardList inp s.received) (some n) := by
    simp [queueItems]
  rw [show queueItems (shardList inp s.received) (some n) = _ from hflow.symm] at hmem
  simp [HopPc.items, ReaderPc.items] at hmem

theorem Clean.main (hs : s.Clean n inp payload)
    (hread : ∀ i < n, st.hopShard n len i (i, inp i) = some (i, payload i))
    (h : MainMove n len window st s true s') : s'.Clean n inp payload := by
  have hflow := hs.inflow
  have hclosed := hs.closed
  obtain ⟨xs, hxs, hout⟩ := hs.outflow
  cases h with
  | take hpc hpop =>
    rw [hpc] at hflow hclosed hxs hout
    rcases BoundedQueue.pop_cases hpop with ⟨y, ⟨⟩, hitems, hsame⟩ | ⟨⟨⟩, -⟩
    rw [hitems] at hflow
    refine { hs with adding := by simp, inflow := hflow, closed := ?_, outflow := ⟨xs, hxs, hout⟩,
                     finished := by simp }
    intro hc
    exact .inl ((hclosed (hsame ▸ hc)).resolve_right (by simp [HopPc.items]))
  | @takeEnd _ count inbound hpc hpop =>
    rw [hpc] at hflow hxs hout
    rcases BoundedQueue.pop_cases hpop with ⟨y, ⟨⟩, hitems, -⟩ | ⟨⟨⟩, -⟩
    rw [hitems] at hflow
    obtain rfl : count = n := by
      have hends := (eq_of_end_queueItems hflow).2.1
      split at hends
      · exact (some.inj hends).symm
      · cases hends
    exact { hs with adding := by simp, inflow := hflow, closed := fun _ => .inr rfl,
                    outflow := ⟨xs, hxs, hout⟩, finished := by simp }
  | leave hpc hpop =>
    rcases BoundedQueue.pop_cases hpop with ⟨y, ⟨⟩, -⟩ | ⟨-, hitems, hc, rfl⟩
    rw [hpc] at hclosed
    have hended := (hclosed hc).resolve_right (by simp [HopPc.items])
    exact absurd hended (hs.not_left hpc hitems)
  | compute hpc hy =>
    obtain ⟨hlt, rfl⟩ := hs.computing hpc
    rw [hread _ hlt] at hy
    obtain rfl := some.inj hy
    rw [hpc] at hflow hclosed hxs hout
    refine { hs with adding := by simp, inflow := ?_, closed := ?_, outflow := ⟨xs, ?_, hout⟩,
                     finished := by simp }
    · rw [shardList_succ, map_append, append_assoc]
      exact hflow
    · intro hc
      exact .inl ((hclosed hc).resolve_right (by simp [HopPc.items]))
    · simp only [HopPc.held, append_nil] at hxs ⊢
      rw [hxs, shardList_succ]
  | computeFails hpc hfail =>
    obtain ⟨hlt, rfl⟩ := hs.computing hpc
    have hnone := hfail rfl
    rw [hread _ hlt] at hnone
    cases hnone
  | tellReader hpc => exact absurd hpc hs.adding
  | push hpc hpush =>
    rw [hpc] at hflow hclosed hxs hout
    exact { hs with adding := by simp, inflow := hflow, closed := hclosed,
                    outflow := ⟨_, by simpa [HopPc.held] using hxs, hout.push hpush⟩, finished := by simp }
  | pushEnd hpc hpush =>
    rw [hpc] at hflow hxs hout
    exact { hs with adding := by simp, inflow := hflow, closed := fun _ => .inr rfl,
                    outflow := ⟨xs, hxs, hout.pushEnd hpush⟩, finished := by simp }
  | closeInbound hpc =>
    rw [hpc] at hflow hxs hout
    exact { hs with adding := by simp, inflow := hflow, closed := fun _ => .inr rfl,
                    outflow := ⟨xs, hxs, hout⟩, finished := by simp }
  | closeOutbound hpc =>
    rw [hpc] at hflow hxs hout
    exact { hs with adding := by simp, inflow := hflow, closed := fun _ => .inr rfl,
                    outflow := ⟨xs, hxs, hout.close⟩, finished := by simp }
  | join hpc hreader hsender =>
    rw [hpc] at hflow hxs hout
    exact { hs with adding := by simp, inflow := hflow, closed := fun _ => .inr rfl,
                    outflow := ⟨xs, hxs, hout⟩, finished := fun _ => ⟨hreader, hsender⟩ }

theorem Clean.sender (hs : s.Clean n inp payload)
    (h : SenderMove .closingInbound s.out true out) : Clean n inp payload { s with out } := by
  obtain ⟨xs, hxs, hout⟩ := hs.outflow
  exact { hs with outflow := ⟨xs, hxs, hout.move h⟩
                  finished := fun hfin => absurd (hs.finished hfin).2 h.not_ended }

def readerWork (s : HopState) : ℕ :=
  match s.reader with
  | .looping => 3 * s.received + 1
  | .receiving => 3 * s.received + 2
  | .pushing _ => 3 * s.received
  | .pushingEnd _ => 3 * s.received + 3
  | .exiting => 3 * s.received + 4
  | .ended => 3 * s.received + 5
  | .closingInbound | .closingOutbound => 0

def mainWork (s : HopState) : ℕ :=
  match s.main with
  | .popping => 3 * s.reads + 1
  | .computing _ => 3 * s.reads + 2
  | .pushing _ => 3 * s.reads
  | .pushingEnd => 3 * s.reads + 2
  | .closingInbound => 3 * s.reads + 3
  | .closingOutbound => 3 * s.reads + 4
  | .joining => 3 * s.reads + 5
  | .finished => 3 * s.reads + 6
  | .failing => 0

def work (s : HopState) : ℕ := s.readerWork + s.mainWork + s.out.work

section
variable (hs : s.Clean n inp payload)
include hs

theorem Clean.work_reader (h : ReaderMove window input s true s') :
    s'.readerWork = s.readerWork + 1 ∧ s'.mainWork = s.mainWork ∧ s'.out.work = s.out.work := by
  unfold readerWork
  cases h with
  | stop hpc hfailed => exact absurd (hs.ok.symm.trans hfailed) Bool.false_ne_true
  | goOn hpc | receive hpc | receiveEnd hpc | push hpc | pushEnd hpc | exit hpc =>
    rw [hpc]
    exact ⟨rfl, rfl, rfl⟩
  | closeInbound hpc => exact absurd hpc hs.open_reader.1
  | closeOutbound hpc => exact absurd hpc hs.open_reader.2

theorem Clean.work_main (hread : ∀ i < n, st.hopShard n len i (i, inp i) = some (i, payload i))
    (h : MainMove n len window st s true s') :
    s'.mainWork = s.mainWork + 1 ∧ s'.readerWork = s.readerWork ∧ s'.out.work = s.out.work := by
  unfold mainWork
  cases h with
  | computeFails hpc hfail =>
    obtain ⟨hlt, rfl⟩ := hs.computing hpc
    have hnone := hfail rfl
    rw [hread _ hlt] at hnone
    cases hnone
  | tellReader hpc => exact absurd hpc hs.adding
  | push hpc hpush | pushEnd hpc hpush =>
    rw [hpc]
    exact ⟨rfl, rfl, Outlet.work_push hpush⟩
  | take hpc | takeEnd hpc | leave hpc | compute hpc | closeInbound hpc | closeOutbound hpc | join hpc =>
    rw [hpc]
    exact ⟨rfl, rfl, rfl⟩

theorem Clean.reads_le : s.reads ≤ n := by
  have hinitial := (prefix_of_queueItems hs.inflow).length_le
  rw [length_shardList, length_shardList] at hinitial
  exact hinitial.trans hs.received_le

theorem Clean.carries : Wire.Carries n payload
      { shards := s.out.forwarded, endCount := if s.out.endSent then some n else none } := by
  obtain ⟨xs, hxs, hout⟩ := hs.outflow
  have hinitial : xs <+: shardList payload s.reads := ⟨_, hxs⟩
  refine hout.carries (hinitial.trans (shardList_initial hs.reads_le)) fun hfull => ?_
  have hlast := HopPc.items_of_full n hfull
  rw [hlast.2, append_nil, (hs.all_added hlast.1).1] at hxs
  exact hxs

theorem Clean.work_le : s.work ≤ 8 * n + 14 := by
  obtain ⟨xs, hxs, hout⟩ := hs.outflow
  have hlen := congrArg List.length hxs
  rw [length_append, length_shardList] at hlen
  have hreads := hs.reads_le
  have hreceived := hs.received_le
  have hreader : s.readerWork ≤ 3 * s.received + 5 := by
    unfold readerWork
    split <;> omega
  have hmain : s.mainWork ≤ 3 * s.reads + 6 := by
    unfold mainWork
    split <;> omega
  have hsender := hout.work_le
  unfold work
  omega

end

end HopState

section
variable {n len window : ℕ} {st : Stage} {inp payload : ℕ → List UInt8} {input : Wire}

theorem hopStep_clean (hinput : input.Carries n inp)
    (hread : ∀ i < n, st.hopShard n len i (i, inp i) = some (i, payload i)) {t : Thread} {s s' : HopState}
    (hs : s.Clean n inp payload) (h : hopStep n len window st input t true s = some s') :
    s'.Clean n inp payload ∧ s'.work = s.work + 1 := by
  unfold HopState.work
  cases hopStep_move h with
  | reader hmove =>
    obtain ⟨hreader, hmain, hsender⟩ := hs.work_reader hmove
    exact ⟨hs.reader hinput hmove, by omega⟩
  | main hmove =>
    obtain ⟨hmain, hreader, hsender⟩ := hs.work_main hread hmove
    exact ⟨hs.main hread hmove, by omega⟩
  | sender hmove =>
    obtain ⟨xs, -, hout⟩ := hs.outflow
    exact ⟨hs.sender hmove, congrArg (s.readerWork + s.mainWork + ·) (hout.work_move hmove)⟩
  | senderCloses hpc =>
    obtain ⟨xs, -, hout⟩ := hs.outflow
    exact absurd hpc hout.open_sender.1

theorem hop_stuck (hwindow : 0 < window) (hend : input.endCount = some n) {s : HopState}
    (hs : s.Clean n inp payload) (hstuck : ∀ t, hopStep n len window st input t true s = none) :
    s.main = .finished ∧ s.received = n ∧ s.out.forwarded = shardList payload n ∧ s.out.endSent = true := by
  obtain ⟨xs, hxs, hout⟩ := hs.outflow
  have hsender : s.out.senderStep .closingInbound true = none := by
    have h := hstuck .sender
    unfold hopStep at h
    simp only [if_neg hout.open_sender.1] at h
    exact map_eq_none_iff.mp h
  have hreader : s.reader = .ended ∨ s.reader.items ≠ [] ∧ 0 < s.inbound.items.length := by
    have h : s.readerStep window input true = none := hstuck .reader
    unfold HopState.readerStep at h
    split at h
    · split at h <;> cases h
    · simp only [if_true] at h
      split at h
      · next hnext => exact absurd hnext (Wire.next_ne_none hend _)
      · cases h
      · cases h
    · next hpc =>
      have hfull := (BoundedQueue.push_eq_none.mp (map_eq_none_iff.mp h)).2
      exact .inr ⟨by rw [hpc]; simp [ReaderPc.items], hwindow.trans_le hfull⟩
    · next hpc =>
      have hfull := (BoundedQueue.push_eq_none.mp (map_eq_none_iff.mp h)).2
      exact .inr ⟨by rw [hpc]; simp [ReaderPc.items], hwindow.trans_le hfull⟩
    · cases h
    · cases h
    · cases h
    · next hpc => exact .inl hpc
  have hmain : s.mainStep n len window st true = none := hstuck .main
  unfold HopState.mainStep at hmain
  split at hmain
  · next hpc =>
    split at hmain
    · next hpop =>
      have hitems := (BoundedQueue.pop_eq_none.mp hpop).1
      rcases hreader with hended | ⟨-, hpos⟩
      · exact absurd hended (hs.not_left hpc hitems)
      · simp [hitems] at hpos
    · cases hmain
    · cases hmain
    · cases hmain
  · split at hmain <;> cases hmain
  · next hpc => exact absurd hpc hs.adding
  · next hpc =>
    rw [hpc] at hout
    exact absurd hsender (hout.stuck_push hwindow (map_eq_none_iff.mp hmain))
  · next hpc =>
    rw [hpc] at hout
    exact absurd hsender (hout.stuck_push hwindow (map_eq_none_iff.mp hmain))
  · cases hmain
  · cases hmain
  · next hpc =>
    -- nothing is left to push or to send
    rw [hpc] at hout
    have hended : s.out.sender = .ended := (hout.stuck hsender).resolve_right (by simp [HopPc.full])
    have hread : s.reader = .ended :=
      hreader.resolve_right fun h => h.1 (hs.all_added (by rw [hpc]; rfl)).2.2.2.2
    rw [if_pos ⟨hread, hended⟩] at hmain
    cases hmain
  · next hpc =>
    obtain ⟨hreads, hreceived, -⟩ := hs.all_added (by rw [hpc]; rfl)
    have hended := (hs.finished hpc).2
    rw [hpc, hreads] at hxs
    refine ⟨hpc, hreceived, ?_, hout.ended.mpr hended⟩
    rw [(hout.all_sent (by rw [hended]; rfl)).1, ← hxs]
    exact (append_nil xs).symm

end

end Mlrc
