import Mlrc.Coordinator.Report
import Mlrc.Proxy.Append

/-!
# Saving a plan and reporting it

The thread of a plan reads the bytes of the client, sends the slices to their datanodes and reports
the plan to the coordinator.  A connection that ends early is only logged, and no result of
`AppendToDatanode` is looked at.

* `asioRead`   a read that may end early;
* `ProxyImpl.appendToDatanode`   one slice, with everything that can go wrong on its way;
* `ProxyImpl.appendAndSave`   one plan, and whether it is reported;
* `saveStep`   the coordinator and the threads of the proxies;
* `commit_implies_stored_iff`   when a reported plan is stored.
-/

namespace Mlrc

open List Option

/-! ## What can go wrong -/

/-- what comes over a connection before it ends, and whether it ends with an error -/
structure Incoming where
  bytes : List UInt8
  broken : Bool
deriving DecidableEq, Repr

inductive ReadError where
  | eof
  | other
deriving DecidableEq, Repr

/-- `asio::read` into a zeroed buffer of `size` bytes -/
def asioRead (size : ℕ) (conn : Incoming) : List UInt8 × Option ReadError :=
  (receive size conn.bytes,
    if size ≤ conn.bytes.length then none
    else some (if conn.broken then .other else .eof))

/-- the way of a slice: does `handleAppend` reach the datanode, is the data connection made, how many
bytes come through, and can the file be written -/
structure SliceEnv where
  rpcOk : Bool
  connected : Bool
  arrived : ℕ
  fileOk : Bool
deriving DecidableEq, Repr

/-- what has become of a slice: the bytes sent, how many of them the datanode has read, and what it
has put into the file -/
structure SliceWrite where
  slice : Slice
  bytes : List UInt8
  transferred : ℕ
  written : Option (List UInt8)
deriving DecidableEq, Repr

/-- `AppendToDatanode` and the handler that `handleAppend` starts.  The status of the call, the errors
of the connection and of the read and a failed write change nothing in the answer. -/
def ProxyImpl.appendToDatanode (env : SliceEnv) (part : Slice × List UInt8) : Bool × SliceWrite :=
  (true, {
    slice := part.1
    bytes := part.2
    transferred := if env.rpcOk ∧ env.connected then min env.arrived part.1.size else 0
    written := if env.rpcOk ∧ env.connected ∧ env.fileOk then
        some (receive part.1.size (part.2.take env.arrived))
      else none })

/-- a thread of `scheduleAppend2Datanode` that has ended -/
structure Save where
  plan : AppendStripeDataPlacement
  received : ℕ
  writes : List SliceWrite
  reported : Bool
deriving DecidableEq, Repr

/-- `append_and_save` after its connection is accepted; `none` is a failed assertion.  An error other
than the end of the connection throws, and nothing is reported.  The merging of parities does not
matter for the report. -/
def ProxyImpl.appendAndSave (plan : AppendStripeDataPlacement) (conn : Incoming)
    (env : ℕ → SliceEnv) : Option Save :=
  let received := min conn.bytes.length plan.appendSize
  match asioRead plan.appendSize conn with
  | (_, some .other) => some { plan := plan, received := received, writes := [], reported := false }
  | (appendBuf, _) => do
    let parts ← splitAppend plan appendBuf
    let writes := parts.zipIdx.map fun p => (ProxyImpl.appendToDatanode (env p.2) p.1).2
    some { plan := plan, received := received, writes := writes, reported := true }

/-- the proxy has received all bytes of the plan, and every slice is in its file as it was sent -/
@[mk_iff]
structure Save.Complete (save : Save) : Prop where
  received : save.received = save.plan.appendSize
  slices : save.writes.map (·.slice) = save.plan.slices
  written : ∀ w ∈ save.writes, w.transferred = w.slice.size ∧ w.written = some w.bytes

@[mk_iff]
structure SliceEnv.Reliable (env : SliceEnv) (size : ℕ) : Prop where
  rpc : env.rpcOk = true
  connection : env.connected = true
  bytes : size ≤ env.arrived
  file : env.fileOk = true

/-- either the client's connection breaks with an error before all bytes have come, or all bytes come
and nothing goes wrong on the way of any slice -/
def SaveOk (plan : AppendStripeDataPlacement) (conn : Incoming) (env : ℕ → SliceEnv) : Prop :=
  (conn.bytes.length < plan.appendSize ∧ conn.broken = true) ∨
  (plan.appendSize ≤ conn.bytes.length ∧
    ∀ j slice, plan.slices[j]? = some slice → (env j).Reliable slice.size)

instance (save : Save) : Decidable save.Complete :=
  decidable_of_iff _ (Save.complete_iff save).symm

instance (env : SliceEnv) (size : ℕ) : Decidable (env.Reliable size) :=
  decidable_of_iff _ (SliceEnv.reliable_iff env size).symm

instance (plan : AppendStripeDataPlacement) (conn : Incoming) (env : ℕ → SliceEnv) :
    Decidable (SaveOk plan conn env) :=
  decidable_of_iff ((conn.bytes.length < plan.appendSize ∧ conn.broken = true) ∨
      (plan.appendSize ≤ conn.bytes.length ∧
        ∀ p ∈ plan.slices.zipIdx, (env p.2).Reliable p.1.size)) (by
    simp only [SaveOk, Prod.forall, mk_mem_zipIdx_iff_getElem?]
    rw [forall_comm])

/-! ## One plan -/

section
variable {plan : AppendStripeDataPlacement} {conn : Incoming} {env : ℕ → SliceEnv} {save : Save}

theorem receive_eq_self {bytes : List UInt8} {size : ℕ} (h : bytes.length = size) :
    receive size bytes = bytes := by
  rw [receive, h, Nat.sub_self, take_of_length_le (le_of_eq h), replicate_zero,
    append_nil]

theorem appendToDatanode_written_iff (e : SliceEnv) {part : Slice × List UInt8}
    (hlen : part.2.length = part.1.size) :
    ((ProxyImpl.appendToDatanode e part).2.transferred = part.1.size ∧
      (ProxyImpl.appendToDatanode e part).2.written = some part.2) ↔ e.Reliable part.1.size := by
  unfold ProxyImpl.appendToDatanode
  simp only
  constructor
  · rintro ⟨htransferred, hwritten⟩
    rw [ite_none_right_eq_some] at hwritten
    obtain ⟨⟨hrpc, hconn, hfile⟩, -⟩ := hwritten
    rw [if_pos ⟨hrpc, hconn⟩] at htransferred
    exact ⟨hrpc, hconn, by omega, hfile⟩
  · intro h
    rw [if_pos ⟨h.rpc, h.connection⟩, if_pos ⟨h.rpc, h.connection, h.file⟩,
      take_of_length_le (by rw [hlen]; exact h.bytes), receive_eq_self hlen]
    exact ⟨min_eq_right h.bytes, rfl⟩

theorem appendToDatanode_slices (parts : List (Slice × List UInt8)) :
    (parts.zipIdx.map fun p => (ProxyImpl.appendToDatanode (env p.2) p.1).2).map (·.slice) =
      parts.map Prod.fst := by
  rw [List.map_map]
  conv_rhs => rw [← zipIdx_map_fst 0 parts, List.map_map]
  rfl

theorem writes_iff (env : ℕ → SliceEnv) {parts : List (Slice × List UInt8)}
    (hlen : ∀ part ∈ parts, part.2.length = part.1.size) :
    (∀ w ∈ parts.zipIdx.map fun p => (ProxyImpl.appendToDatanode (env p.2) p.1).2,
      w.transferred = w.slice.size ∧ w.written = some w.bytes) ↔
    ∀ j slice, (parts.map Prod.fst)[j]? = some slice → (env j).Reliable slice.size := by
  constructor
  · intro h j slice hj
    rw [getElem?_map, map_eq_some_iff] at hj
    obtain ⟨part, hpart, rfl⟩ := hj
    have hmem : (part, j) ∈ parts.zipIdx := mk_mem_zipIdx_iff_getElem?.mpr hpart
    exact (appendToDatanode_written_iff _ (hlen part (mem_of_getElem? hpart))).mp
      (h _ (mem_map.mpr ⟨_, hmem, rfl⟩))
  · intro h w hw
    obtain ⟨⟨part, j⟩, hmem, rfl⟩ := mem_map.mp hw
    have hpart := mk_mem_zipIdx_iff_getElem?.mp hmem
    refine (appendToDatanode_written_iff _ (hlen part (mem_of_getElem? hpart))).mpr (h j _ ?_)
    rw [getElem?_map, hpart]
    rfl

variable (h : ProxyImpl.appendAndSave plan conn env = some save)
include h

theorem appendAndSave_some :
    (conn.bytes.length < plan.appendSize ∧ conn.broken = true ∧ save.reported = false) ∨
    (¬(conn.bytes.length < plan.appendSize ∧ conn.broken = true) ∧
      ∃ parts, splitAppend plan (receive plan.appendSize conn.bytes) = some parts ∧ save = {
        plan := plan
        received := min conn.bytes.length plan.appendSize
        writes := parts.zipIdx.map fun p => (ProxyImpl.appendToDatanode (env p.2) p.1).2
        reported := true }) := by
  unfold ProxyImpl.appendAndSave asioRead at h
  simp only at h
  by_cases hshort : conn.bytes.length < plan.appendSize
  · rw [if_neg (by omega)] at h
    cases hbroken : conn.broken with
    | true =>
      rw [hbroken] at h
      cases h
      exact .inl ⟨hshort, rfl, rfl⟩
    | false =>
      rw [hbroken] at h
      obtain ⟨parts, hparts, h⟩ := bind_eq_some_iff.mp h
      exact .inr ⟨fun hno => Bool.false_ne_true hno.2, parts, hparts, (some.inj h).symm⟩
  · rw [if_pos (by omega)] at h
    obtain ⟨parts, hparts, h⟩ := bind_eq_some_iff.mp h
    exact .inr ⟨fun hno => hshort hno.1, parts, hparts, (some.inj h).symm⟩

theorem appendAndSave_plan : save.plan = plan := by
  unfold ProxyImpl.appendAndSave at h
  simp only at h
  split at h
  · cases h
    rfl
  · obtain ⟨parts, -, h⟩ := bind_eq_some_iff.mp h
    cases h
    rfl

theorem appendAndSave_complete_iff :
    (save.reported = true → save.Complete) ↔ SaveOk plan conn env := by
  rcases appendAndSave_some h with ⟨hshort, hbroken, hrep⟩ | ⟨hno, parts, hparts, rfl⟩
  · refine iff_of_true (fun hr => ?_) (.inl ⟨hshort, hbroken⟩)
    rw [hrep] at hr
    cases hr
  · obtain ⟨hslices, hlen⟩ := splitAppend_some (length_receive _ _) hparts
    have hwrites := writes_iff env hlen
    rw [hslices] at hwrites
    constructor
    · intro hcomplete
      have hc := hcomplete rfl
      have hreceived : min conn.bytes.length plan.appendSize = plan.appendSize := hc.received
      exact .inr ⟨by omega, hwrites.mp hc.written⟩
    · rintro (hbad | ⟨hall, hreliable⟩) -
      · exact absurd hbad hno
      · exact ⟨min_eq_right hall, (appendToDatanode_slices parts).trans hslices,
          hwrites.mpr hreliable⟩

theorem SaveOk.reported_iff (hok : SaveOk plan conn env) :
    save.reported = true ↔ plan.appendSize ≤ conn.bytes.length := by
  rcases appendAndSave_some h with ⟨hshort, hbroken, hrep⟩ | ⟨hno, parts, hparts, rfl⟩
  · rw [hrep]
    exact iff_of_false Bool.false_ne_true (by omega)
  · rcases hok with hbad | hgood
    · exact absurd hbad hno
    · exact iff_of_true rfl hgood.1

end

/-! ## The coordinator and the threads -/

/-- the coordinator, the plans it has handed out, the threads that have not ended and the ones that
have -/
structure SaveSystem where
  coord : Coordinator := {}
  accepted : List AppendStripeDataPlacement := []
  threads : List AppendStripeDataPlacement := []
  saves : List Save := []

def Deletion.request (s : Coordinator) : Deletion → Option (Coordinator × DeleteRequest)
  | .stripe stripeId => delByStripe s stripeId
  | .key name => delByKey s name

/-- `schedule`: the end of an upload; `stray i` threads of plan `i` are of calls whose answer has not
come back.  `save`: a thread ends; one that waits forever takes no step.  The report may be lost.
`del`, `deleted`: the beginning and the end of a deletion. -/
inductive SaveEvent where
  | schedule (plans : List AppendStripeDataPlacement) (ready : ℕ → Bool) (stray : ℕ → ℕ)
  | save (thread : ℕ) (conn : Incoming) (env : ℕ → SliceEnv) (delivered : Bool)
  | del (d : Deletion)
  | deleted (d : Deletion)

/-- the plans whose proxies have accepted them -/
def acceptedPlans (plans : List AppendStripeDataPlacement) (ready : ℕ → Bool) :
    List AppendStripeDataPlacement :=
  (plans.zipIdx.filter fun p => ready p.2).map Prod.fst

def saveStep (clusterNum : ℕ) : SaveEvent → SaveSystem → Option SaveSystem
  | .schedule plans ready stray, st =>
    some { st with
      coord := (schedulePlans st.coord plans ready).1
      accepted := st.accepted ++ acceptedPlans plans ready
      threads := st.threads ++ acceptedPlans plans ready ++
        plans.zipIdx.flatMap fun p => replicate (stray p.2) p.1 }
  | .save thread conn env delivered, st => do
    let plan ← st.threads[thread]?
    let save ← ProxyImpl.appendAndSave plan conn env
    some { st with
      coord := if save.reported ∧ delivered then
          reportCommitAbort clusterNum st.coord plan.key .APPEND plan.stripeId true
        else st.coord
      threads := st.threads.eraseIdx thread
      saves := st.saves ++ [save] }
  | .del d, st => do
    let p ← d.request st.coord
    some { st with coord := p.1 }
  | .deleted d, st => some { st with coord := d.report clusterNum st.coord }

/-- some thread has saved the plan completely -/
def SaveSystem.Saved (st : SaveSystem) (plan : AppendStripeDataPlacement) : Prop :=
  ∃ save ∈ st.saves, save.plan = plan ∧ save.Complete

/-- reported plans are complete, and no plan that is not saved is taken for committed -/
structure CommitImpliesStored (st : SaveSystem) : Prop where
  reported : ∀ save ∈ st.saves, save.reported = true → save.Complete
  committed : ∀ plan ∈ st.accepted,
    checkCommitAbort st.coord plan.key .APPEND plan.stripeId = some true → st.Saved plan

/-- a thread ends without a report, or nothing goes wrong with its plan; and when its report arrives
no other plan handed out under the same key is still to be saved -/
def NothingLost : SaveEvent → SaveSystem → Prop
  | .save thread conn env delivered, st => ∀ plan, st.threads[thread]? = some plan →
    SaveOk plan conn env ∧
      (plan.appendSize ≤ conn.bytes.length → delivered = true → ∀ other ∈ st.accepted,
        other.key = plan.key → other = plan ∨ st.Saved other)
  | _, _ => True

instance (st : SaveSystem) (plan : AppendStripeDataPlacement) : Decidable (st.Saved plan) :=
  inferInstanceAs (Decidable (∃ save ∈ st.saves, save.plan = plan ∧ save.Complete))

instance : ∀ (e : SaveEvent) (st : SaveSystem), Decidable (NothingLost e st)
  | .save thread _ _ _, st =>
    inferInstanceAs (Decidable (∀ plan, st.threads[thread]? = some plan → _))
  | .schedule _ _ _, _ => isTrue trivial
  | .del _, _ => isTrue trivial
  | .deleted _, _ => isTrue trivial

/-! ## Runs -/

theorem schedulePlans_commit (s : Coordinator) (plans : List AppendStripeDataPlacement)
    (ready : ℕ → Bool) (key : String) : (schedulePlans s plans ready).1.objectCommitTable key =
      if key ∈ plans.map (·.key) then none else s.objectCommitTable key := by
  have hnotify : ∀ (l : List (AppendStripeDataPlacement × ℕ)) (t : Coordinator),
      (l.foldl (fun s p => notifyProxiesReady s p.1 (ready p.2)) t).objectCommitTable =
        t.objectCommitTable := by
    intro l
    induction l with
    | nil => exact fun _ => rfl
    | cons p l ih => exact fun t => ih _
  have herase : ∀ (l : List AppendStripeDataPlacement) (t : Coordinator),
      (l.foldl (fun s plan => { s with
          objectCommitTable := Function.update s.objectCommitTable plan.key none })
        t).objectCommitTable key =
        if key ∈ l.map (·.key) then none else t.objectCommitTable key := by
    intro l
    induction l with
    | nil => exact fun _ => rfl
    | cons plan l ih =>
      intro t
      rw [foldl_cons, ih]
      by_cases hkey : key = plan.key <;> simp [hkey]
  unfold schedulePlans
  simp only
  split <;> rw [hnotify, herase]

theorem deletion_commit {clusterNum : ℕ} {s : Coordinator} {d : Deletion} {key : String}
    (h : ((d.report clusterNum s).objectCommitTable key).isSome = true) :
    (s.objectCommitTable key).isSome = true := by
  cases d with
  | stripe stripeId =>
    simp only [Deletion.report, reportCommitAbort, if_true] at h
    rw [if_neg (by omega)] at h
    simp only [deleteStripe] at h
    split at h
    · cases h
    · exact h
  | key name =>
    simp only [Deletion.report, reportCommitAbort, if_true] at h
    rw [if_pos (by omega), deleteKey] at h
    split at h
    · exact h
    · by_cases hkey : key = name
      · simp [hkey] at h
      · simpa [hkey] using h

theorem deletion_request_commit {s s' : Coordinator} {d : Deletion} {request : DeleteRequest}
    (h : d.request s = some (s', request)) : s'.objectCommitTable = s.objectCommitTable := by
  cases d with
  | stripe stripeId =>
    obtain ⟨r, -, h⟩ := bind_eq_some_iff.mp h
    cases h
    rfl
  | key name =>
    obtain ⟨info, -, h⟩ := bind_eq_some_iff.mp h
    obtain ⟨r, -, h⟩ := bind_eq_some_iff.mp h
    cases h
    rfl

/-- what `NothingLost` keeps: reported plans are complete, and under a committed key all are saved -/
structure SaveInv (st : SaveSystem) : Prop where
  reported : ∀ save ∈ st.saves, save.reported = true → save.Complete
  committed : ∀ plan ∈ st.accepted, (st.coord.objectCommitTable plan.key).isSome = true →
    st.Saved plan

theorem checkCommitAbort_true {s : Coordinator} {key : String} {opp : OpperateType} {stripeId : ℤ}
    (h : checkCommitAbort s key opp stripeId = some true) :
    (s.objectCommitTable key).isSome = true := by
  unfold checkCommitAbort at h
  simp only [ite_none_left_eq_some, some.injEq] at h
  exact h.2

theorem checkCommitAbort_report (clusterNum : ℕ) (s : Coordinator) (key : String)
    (stripeId stripeId' : ℤ) :
    checkCommitAbort (reportCommitAbort clusterNum s key .APPEND stripeId true) key .APPEND stripeId' =
      some true := by
  simp [checkCommitAbort, reportCommitAbort]

section
variable {clusterNum : ℕ} {st st' : SaveSystem}

theorem SaveInv.stored (h : SaveInv st) : CommitImpliesStored st :=
  ⟨h.reported, fun plan hplan hcheck => h.committed plan hplan (checkCommitAbort_true hcheck)⟩

theorem SaveInv.of_commit (h : SaveInv st) (hsaves : st'.saves = st.saves)
    (hcommit : ∀ plan ∈ st'.accepted, (st'.coord.objectCommitTable plan.key).isSome = true →
      plan ∈ st.accepted ∧ (st.coord.objectCommitTable plan.key).isSome = true) : SaveInv st' := by
  constructor
  · rw [hsaves]
    exact h.reported
  · intro plan hplan hsome
    obtain ⟨hmem, hbefore⟩ := hcommit plan hplan hsome
    obtain ⟨save, hsave, hcomplete⟩ := h.committed plan hmem hbefore
    exact ⟨save, by rwa [hsaves], hcomplete⟩

theorem mem_acceptedPlans {plans : List AppendStripeDataPlacement} {ready : ℕ → Bool}
    {plan : AppendStripeDataPlacement} (h : plan ∈ acceptedPlans plans ready) : plan ∈ plans := by
  obtain ⟨⟨plan, j⟩, hp, rfl⟩ := mem_map.mp h
  exact mem_of_getElem? (mk_mem_zipIdx_iff_getElem?.mp (mem_of_mem_filter hp))

theorem SaveInv.schedule (h : SaveInv st) {plans : List AppendStripeDataPlacement}
    {ready : ℕ → Bool} {stray : ℕ → ℕ}
    (hstep : saveStep clusterNum (.schedule plans ready stray) st = some st') : SaveInv st' := by
  cases hstep
  refine h.of_commit rfl fun plan hplan hsome => ?_
  simp only [schedulePlans_commit] at hsome
  split at hsome
  · cases hsome
  · next hkey =>
    refine ⟨?_, hsome⟩
    rcases mem_append.mp hplan with hmem | hmem
    · exact hmem
    · exact absurd (mem_map_of_mem (mem_acceptedPlans hmem)) hkey

theorem SaveSystem.Saved.append {other : AppendStripeDataPlacement} {save : Save} {st'' : SaveSystem}
    (hsaves : st''.saves = st.saves ++ [save]) (h : st.Saved other) : st''.Saved other := by
  obtain ⟨old, hold, hcomplete⟩ := h
  exact ⟨old, by rw [hsaves]; exact mem_append_left _ hold, hcomplete⟩

section
variable {thread : ℕ} {conn : Incoming} {env : ℕ → SliceEnv} {delivered : Bool}
  (hstep : saveStep clusterNum (.save thread conn env delivered) st = some st')
include hstep

theorem saveStep_save : ∃ plan save, st.threads[thread]? = some plan ∧
      ProxyImpl.appendAndSave plan conn env = some save ∧ st' = { st with
        coord := if save.reported ∧ delivered then
            reportCommitAbort clusterNum st.coord plan.key .APPEND plan.stripeId true
          else st.coord
        threads := st.threads.eraseIdx thread
        saves := st.saves ++ [save] } := by
  obtain ⟨plan, hplan, hstep⟩ := bind_eq_some_iff.mp hstep
  obtain ⟨save, hsave, hstep⟩ := bind_eq_some_iff.mp hstep
  exact ⟨plan, save, hplan, hsave, (some.inj hstep).symm⟩

theorem SaveInv.ended (h : SaveInv st)
    (hok : NothingLost (.save thread conn env delivered) st) : SaveInv st' := by
  obtain ⟨plan, save, hplan, hsave, rfl⟩ := saveStep_save hstep
  obtain ⟨hok, hothers⟩ := hok plan hplan
  have hcomplete := (appendAndSave_complete_iff hsave).mpr hok
  constructor
  · intro save' hsave'
    rcases mem_append.mp hsave' with hold | hnew
    · exact h.reported save' hold
    · rw [mem_singleton] at hnew
      subst hnew
      exact hcomplete
  · intro other hother hsome
    simp only at hsome hother
    by_cases hreport : save.reported = true ∧ delivered = true
    · rw [if_pos hreport] at hsome
      by_cases hkey : other.key = plan.key
      · rcases hothers ((hok.reported_iff hsave).mp hreport.1) hreport.2 other hother hkey with
          rfl | hsaved
        · exact ⟨save, mem_append_right _ (mem_singleton_self _),
            appendAndSave_plan hsave, hcomplete hreport.1⟩
        · exact hsaved.append rfl
      · simp only [reportCommitAbort, if_true, Function.update_of_ne hkey] at hsome
        exact (h.committed other hother hsome).append rfl
    · rw [if_neg hreport] at hsome
      exact (h.committed other hother hsome).append rfl

theorem not_stored_of_lost (hbad : ¬NothingLost (.save thread conn env delivered) st) :
    ¬CommitImpliesStored st' := by
  obtain ⟨plan, save, hplan, hsave, rfl⟩ := saveStep_save hstep
  intro hstored
  apply hbad
  intro plan' hplan'
  rw [hplan, some.injEq] at hplan'
  subst hplan'
  have hok : SaveOk plan conn env := (appendAndSave_complete_iff hsave).mp
    (hstored.reported save (mem_append_right _ (mem_singleton_self _)))
  refine ⟨hok, fun hfull hdelivered other hother hkey => ?_⟩
  have hreport : save.reported = true ∧ delivered = true :=
    ⟨(hok.reported_iff hsave).mpr hfull, hdelivered⟩
  have hcommitted := hstored.committed other hother
  simp only [if_pos hreport, hkey] at hcommitted
  obtain ⟨save', hsave', hplan', hcomplete⟩ := hcommitted (checkCommitAbort_report _ _ _ _ _)
  rcases mem_append.mp hsave' with hold | hnew
  · exact .inr ⟨save', hold, hplan', hcomplete⟩
  · rw [mem_singleton] at hnew
    subst hnew
    exact .inl (hplan'.symm.trans (appendAndSave_plan hsave))

end

theorem SaveInv.step (e : SaveEvent) (h : SaveInv st) (hok : NothingLost e st)
    (hstep : saveStep clusterNum e st = some st') : SaveInv st' := by
  cases e with
  | schedule plans ready stray => exact h.schedule hstep
  | save thread conn env delivered => exact h.ended hstep hok
  | del d =>
    obtain ⟨⟨coord, request⟩, hrequest, hstep⟩ := bind_eq_some_iff.mp hstep
    cases hstep
    refine h.of_commit rfl fun plan hplan hsome => ⟨hplan, ?_⟩
    rwa [← deletion_request_commit hrequest]
  | deleted d =>
    cases hstep
    exact h.of_commit rfl fun plan hplan hsome => ⟨hplan, deletion_commit hsome⟩

/-- **Main result.** In every state of a run a reported plan is stored, and the client is told so of
no other, exactly when nothing goes wrong in any thread that reports and no report arrives while
another plan under the same key is still to be saved. -/
theorem commit_implies_stored_iff (clusterNum : ℕ) (events : List SaveEvent) (st : SaveSystem)
    (h : run (saveStep clusterNum) events {} = some st) :
    Throughout (saveStep clusterNum) CommitImpliesStored events {} ↔
      Along (saveStep clusterNum) NothingLost events {} := by
  refine throughout_iff (I := SaveInv) (fun _ hI => hI.stored)
    (fun e _ _ hI hok hstep => hI.step e hok hstep) (fun e s s' hI hbad hstep => ?_) ⟨?_, ?_⟩ h
  · cases e with
    | save thread conn env delivered => exact not_stored_of_lost hstep hbad
    | _ => exact absurd trivial hbad
  · exact fun _ hmem => absurd hmem not_mem_nil
  · exact fun _ hmem => absurd hmem not_mem_nil

end

/-! ## One plan of a set -/

def reliable : SliceEnv := { rpcOk := true, connected := true, arrived := 2, fileOk := true }

/-- the first plan of the two sets is handed out, and its thread gets `bytes` -/
def saveRun (bytes : List UInt8) (env : ℕ → SliceEnv) : List SaveEvent :=
  [.schedule (plansOfCluster1.take 1) (fun _ => true) (fun _ => 0), .save 0 ⟨bytes, false⟩ env true]

/-- what the client is told of a plan, and what the proxy and the datanodes have got of it -/
structure SaveOutcome where
  told : Option Bool
  received : ℕ
  written : List (Option (List UInt8))
deriving DecidableEq, Repr

def saveOutcomes (events : List SaveEvent) : List SaveOutcome :=
  (run (saveStep 4) events {}).elim [] fun st => st.saves.map fun save =>
    ⟨checkCommitAbort st.coord save.plan.key .APPEND save.plan.stripeId, save.received,
      save.writes.map (·.written)⟩

theorem commit_implies_stored_set :
    saveOutcomes (saveRun [1, 2, 3, 4, 5, 6] fun _ => reliable) =
      [⟨some true, 6, [some [1, 2], some [3, 4], some [5, 6]]⟩] ∧
    Throughout (saveStep 4) CommitImpliesStored (saveRun [1, 2, 3, 4, 5, 6] fun _ => reliable) {} := by
  obtain ⟨st, hst⟩ := isSome_iff_exists.mp (show (run (saveStep 4)
    (saveRun [1, 2, 3, 4, 5, 6] fun _ => reliable) {}).isSome = true by decide +kernel)
  exact ⟨by decide +kernel, (commit_implies_stored_iff 4 _ st hst).mpr (by decide +kernel)⟩

theorem not_throughout_of_incomplete {clusterNum : ℕ} {events : List SaveEvent}
    (h : ((run (saveStep clusterNum) events {}).map fun st =>
      st.saves.any fun save => save.reported && !decide save.Complete) = some true) :
    ¬Throughout (saveStep clusterNum) CommitImpliesStored events {} := by
  intro hall
  obtain ⟨st, hst, hany⟩ := map_eq_some_iff.mp h
  obtain ⟨save, hsave, hbad⟩ := any_eq_true.mp hany
  rw [Bool.and_eq_true, Bool.not_eq_true', decide_eq_false_iff_not] at hbad
  exact hbad.2 ((hall events prefix_rfl st hst).reported save hsave hbad.1)

/-- a client that closes its connection after one byte, and a datanode that cannot write its file:
the plan is committed both times -/
theorem torn_plan_committed :
    saveOutcomes (saveRun [1] fun _ => reliable) =
      [⟨some true, 1, [some [1, 0], some [0, 0], some [0, 0]]⟩] ∧
    saveOutcomes (saveRun [1, 2, 3, 4, 5, 6] fun j => { reliable with fileOk := j != 1 }) =
      [⟨some true, 6, [some [1, 2], none, some [5, 6]]⟩] ∧
    ¬Throughout (saveStep 4) CommitImpliesStored (saveRun [1] fun _ => reliable) {} ∧
    ¬Throughout (saveStep 4) CommitImpliesStored
      (saveRun [1, 2, 3, 4, 5, 6] fun j => { reliable with fileOk := j != 1 }) {} :=
  ⟨by decide +kernel, by decide +kernel, not_throughout_of_incomplete (by decide +kernel),
    not_throughout_of_incomplete (by decide +kernel)⟩

end Mlrc
