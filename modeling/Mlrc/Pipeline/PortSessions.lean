import Mlrc.Data.Pool
import Mlrc.Data.Run
import Mlrc.Pipeline.LocalDirect
import Mlrc.Pipeline.Ports

/-!
# The ports of recovery sessions

A session allocates the ports of its chains one by one, checks them, asks the listeners to get ready,
runs the data plane and releases its ports, whatever has failed before.  Each allocation, and the
release, runs under one lock, and any number of sessions may be on their way.  The ports of a chain
enter the session's table when all of them are allocated, and the release goes through the table.

* `portSystemStep`   the sessions, one locked section or phase at a time;
* `SessionMove`   what a step of a session can do;
* `PortSystem.pool`   the sessions as clients of a pool of ports;
* `ports_given_back_iff`   when a session leaves no port in flight.
-/

namespace Mlrc

open PortAllocator List Option Function

variable {p : Endpoint × ℕ} {s session : PortSession} {a : PortAllocator}

/-! ## Sessions -/

def GlrcPipelineHopInfo.proxyKey (hop : GlrcPipelineHopInfo) : Endpoint := ⟨hop.proxyIp, hop.proxyPort⟩

/-- a chain with the proxy it ends at and the word for that proxy in messages -/
structure SinkChain where
  chain : GlrcPipelineChainPlan
  sinkKey : Endpoint
  sinkTag : String

/-- the chains of a plan in the order in which their ports are allocated, checked and released -/
def GlrcPipelinePlan.sinkChains (plan : GlrcPipelinePlan) : List SinkChain :=
  plan.hubChains.map (⟨·, ⟨plan.hubProxyIp, plan.hubProxyPort⟩, "hub"⟩) ++
    plan.localDirectChains.map fun c =>
      ⟨c, ⟨c.localDirectSinkProxyIp, c.localDirectSinkProxyPort⟩, "local sink"⟩

structure SessionPlan extends GlrcPipelinePlan where
  chainIds : (toGlrcPipelinePlan.sinkChains.map (·.chain.chainId)).Nodup

section
variable {k r z hub epoch : ℕ} {failed : List ℕ} {repairPlan : GlrcIlpRepairPlan}
  {equations : List GlrcEquation} {lookup : List GlrcPipelineNodeLookup} {plan : GlrcPipelinePlan}

theorem buildChain_chainId {localDirectSet : List ℕ} {e id : ℕ} {chain : GlrcPipelineChainPlan}
    (h : buildChain k r z failed equations localDirectSet hub lookup e id = .ok chain) :
    chain.chainId = id := by
  unfold buildChain at h
  split at h
  · cases h
  · simp only at h
    split at h
    · unfold localDirectChain at h
      simp only at h
      split at h
      · cases h
      · obtain ⟨hops, -, hret⟩ := except_bind_eq_ok.mp h
        cases hret
        rfl
    · obtain ⟨hops, -, hret⟩ := except_bind_eq_ok.mp h
      cases hret
      rfl

theorem glrcBuildPipelinePlan_chainIds
    (h : glrcBuildPipelinePlan k r z failed repairPlan equations hub lookup epoch = .ok plan) :
    (plan.sinkChains.map (·.chain.chainId)).Nodup := by
  unfold glrcBuildPipelinePlan at h
  split at h
  · cases h
  · obtain ⟨chains, hchains, hret⟩ := except_bind_eq_ok.mp h
    cases hret
    have hids : chains.map (·.chainId) = range repairPlan.selectedEquationIndices.length := by
      have hall : Forall₂ (· = ·) (repairPlan.selectedEquationIndices.zipIdx.map (·.2))
          (chains.map (·.chainId)) := by
        rw [forall₂_map_left_iff, forall₂_map_right_iff]
        exact (mapM_except_ok hchains).imp fun p c hc => (buildChain_chainId hc).symm
      rw [forall₂_eq_eq_eq, zipIdx_map_snd] at hall
      rw [← hall, range_eq_range']
    have hperm : (chains.filter (fun c => !c.localDirect) ++ chains.filter (·.localDirect)).Perm chains :=
      perm_append_comm.trans (filter_append_perm _ _)
    have hmap := hperm.map (·.chainId)
    rw [hids, map_append] at hmap
    unfold GlrcPipelinePlan.sinkChains
    rw [map_append, List.map_map, List.map_map]
    exact hmap.nodup_iff.mpr nodup_range

def SessionPlan.ofBuild
    (h : glrcBuildPipelinePlan k r z failed repairPlan equations hub lookup epoch = .ok plan) :
    SessionPlan :=
  { plan with chainIds := glrcBuildPipelinePlan_chainIds h }

end

/-- the ports of a chain, each with the proxy that listens on it -/
def SinkChain.listenPorts (c : SinkChain) (ports : GlrcPipelineChainPorts) : List (Endpoint × ℕ) :=
  (c.chain.hops.map (·.proxyKey)).zip ports.hopListenPorts ++ [(c.sinkKey, ports.hubListenPort)]

/-- the ports of the chains that have an entry in the table -/
def tablePorts (chainPorts : ℕ → Option GlrcPipelineChainPorts) (chains : List SinkChain) :
    List (Endpoint × ℕ) :=
  chains.flatMap fun c => ((chainPorts c.chain.chainId).map c.listenPorts).getD []

/-- `release_inflight_ports`; a port is not handed out again for 30 seconds -/
def PortAllocator.releaseInflightPorts (dedicatedHost : Bool) (now : ℕ)
    (chainPorts : ℕ → Option GlrcPipelineChainPorts) (plan : GlrcPipelinePlan) (a : PortAllocator) :
    PortAllocator :=
  (tablePorts chainPorts plan.sinkChains).foldl (releasePort dedicatedHost (now + 30)) a

/-- the check for a port assigned twice; the error is the reply's message, which a port 0 leaves
empty -/
def checkPorts : List (Endpoint × ℕ) → (Endpoint → Finset ℕ) → Except String Unit
  | [], _ => .ok ()
  | (key, port) :: ps, assigned =>
    if port = 0 then .error ""
    else if port ∈ assigned key then
      .error ("pipeline duplicate listen port on proxy " ++ key.ip ++ ":" ++ toString key.port)
    else checkPorts ps (update assigned key (insert port (assigned key)))

inductive SessionPhase where
  /-- ports are allocated for the chains that are left -/
  | allocating
  | readying
  | running
  /-- the guard's function is about to run, with the result of the session -/
  | finalizing (result : Except String Unit)
  | finished (result : Except String Unit)

def SessionPhase.Live (phase : SessionPhase) : Prop := ∀ result, phase ≠ .finished result

/-- the local variables of `recovery_glrc_ilp_pipeline_breakdown_ex` that ports go through -/
structure PortSession where
  plan : SessionPlan
  usedPorts : Endpoint → Finset ℕ := fun _ => ∅
  chainPorts : ℕ → Option GlrcPipelineChainPorts := fun _ => none
  /-- the chains without an entry in the table, the first one in work -/
  chains : List SinkChain := plan.sinkChains
  /-- the hop ports of the first of these chains -/
  hopListenPorts : List ℕ := []
  phase : SessionPhase := .allocating

namespace PortSession

/-- the next call of `allocate_hop_port` or `allocate_hub_port` for a chain -/
def nextRequest (c : SinkChain) (hopListenPorts : List ℕ) : PortRequest :=
  match c.chain.hops[hopListenPorts.length]? with
  | some hop => ⟨hop.proxyKey, false, c.chain.chainId, hopListenPorts.length⟩
  | none => ⟨c.sinkKey, true, 0, 0⟩

/-- what a session does with the answer to a request of `allocate_chain_ports` -/
def allocated (s : PortSession) (c : SinkChain) (rest : List SinkChain) :
    Option ℕ → PortSession
  | none =>
    match c.chain.hops[s.hopListenPorts.length]? with
    | some hop => { s with
        phase := .finalizing (.error ("pipeline port allocation failed for hop proxy " ++ hop.proxyIp)) }
    | none => { s with
        phase := .finalizing (.error ("pipeline port allocation failed for " ++ c.sinkTag ++ " proxy " ++
          c.sinkKey.ip)) }
  | some port =>
    match c.chain.hops[s.hopListenPorts.length]? with
    | some _ => { s with hopListenPorts := s.hopListenPorts ++ [port] }
    | none => { s with
        chainPorts := update s.chainPorts c.chain.chainId (some ⟨s.hopListenPorts, port⟩)
        chains := rest
        hopListenPorts := [] }

/-- the guard is armed when the plan has a chain -/
def armed (s : PortSession) : Bool := !s.plan.sinkChains.isEmpty

end PortSession

inductive SessionEvent where
  | start (plan : SessionPlan)
  | allocate (probe : PortProbe)
  | checkPorts
  /-- all listeners were asked to get ready; the error is empty when they are -/
  | ready (readyError : String)
  /-- all calls of the data plane have returned; the errors are empty when none failed -/
  | dataPlane (rpcErrors : String)
  | finalize (now : ℕ)

def SessionEvent.leaves : SessionEvent → Bool
  | .finalize _ => true
  | _ => false

structure PortSystem where
  alloc : PortAllocator
  sessions : ℕ → Option PortSession := fun _ => none

namespace PortSystem

def setSession (s : PortSystem) (i : ℕ) (session : PortSession) : PortSystem :=
  { s with sessions := update s.sessions i (some session) }

end PortSystem

/-- one step of session `i`, in a session record that exists -/
def sessionStep (dedicatedHost : Bool) (a : PortAllocator) (session : PortSession) :
    SessionEvent → Option (PortAllocator × PortSession)
  | .start _ => none
  | .allocate probe =>
    match session.phase, session.chains with
    | .allocating, c :: rest =>
      let (port, usedPorts, a) := a.allocate dedicatedHost session.plan.exchangeEpoch
        (PortSession.nextRequest c session.hopListenPorts) probe session.usedPorts
      some (a, { session with usedPorts }.allocated c rest port)
    | _, _ => none
  | .checkPorts =>
    match session.phase, session.chains with
    | .allocating, [] =>
      match checkPorts (tablePorts session.chainPorts session.plan.sinkChains) fun _ => ∅ with
      | .ok () => some (a, { session with phase := .readying })
      | .error message => some (a, { session with phase := .finalizing (.error message) })
    | _, _ => none
  | .ready readyError =>
    match session.phase with
    | .readying =>
      -- without a chain no listener is asked
      if readyError = "" ∨ session.plan.sinkChains = [] then some (a, { session with phase := .running })
      else some (a, { session with phase := .finalizing (.error readyError) })
    | _ => none
  | .dataPlane rpcErrors =>
    match session.phase with
    | .running =>
      if rpcErrors = "" ∨ session.plan.sinkChains = [] then
        some (a, { session with phase := .finalizing (.ok ()) })
      else some (a, { session with
        phase := .finalizing (.error ("pipeline rpc failures: " ++ rpcErrors)) })
    | _ => none
  | .finalize now =>
    let released := a.releaseInflightPorts dedicatedHost now session.chainPorts
      session.plan.toGlrcPipelinePlan
    match session.phase with
    -- on success the guard is disarmed first and its function called
    | .finalizing (.ok ()) => some (released, { session with phase := .finished (.ok ()) })
    | .finalizing (.error message) =>
      some (if session.armed then released else a, { session with phase := .finished (.error message) })
    | _ => none

/-- one step of session `e.1` -/
def portSystemStep (dedicatedHost : Bool) (e : ℕ × SessionEvent) (s : PortSystem) : Option PortSystem :=
  match s.sessions e.1 with
  | none =>
    match e.2 with
    | .start plan => some (s.setSession e.1 { plan })
    | _ => none
  | some session =>
    (sessionStep dedicatedHost s.alloc session e.2).map fun r =>
      { s with alloc := r.1 }.setSession e.1 r.2

/-! ## The table of a session -/

theorem mem_tablePorts {table : ℕ → Option GlrcPipelineChainPorts} {chains : List SinkChain} :
    p ∈ tablePorts table chains ↔
      ∃ c ∈ chains, ∃ ports, table c.chain.chainId = some ports ∧ p ∈ c.listenPorts ports := by
  unfold tablePorts
  rw [mem_flatMap]
  refine exists_congr fun c => and_congr_right fun _ => ?_
  cases table c.chain.chainId with
  | none => simp
  | some ports => simp

theorem mem_tablePorts_update {table : ℕ → Option GlrcPipelineChainPorts} {chains : List SinkChain}
    (hnd : (chains.map (·.chain.chainId)).Nodup) {c : SinkChain} (hc : c ∈ chains)
    (hnew : table c.chain.chainId = none) (ports : GlrcPipelineChainPorts) :
    p ∈ tablePorts (update table c.chain.chainId (some ports)) chains ↔
      p ∈ tablePorts table chains ∨ p ∈ c.listenPorts ports := by
  rw [mem_tablePorts, mem_tablePorts]
  constructor
  · rintro ⟨d, hd, ports', htable, hp⟩
    by_cases hid : d.chain.chainId = c.chain.chainId
    · rw [hid, update_self, some.injEq] at htable
      rw [inj_on_of_nodup_map hnd hd hc hid, ← htable] at hp
      exact .inr hp
    · rw [update_of_ne hid] at htable
      exact .inl ⟨d, hd, ports', htable, hp⟩
  · rintro (⟨d, hd, ports', htable, hp⟩ | hp)
    · have hid : d.chain.chainId ≠ c.chain.chainId := by
        intro hid
        rw [hid, hnew] at htable
        cases htable
      exact ⟨d, hd, ports', by rw [update_of_ne hid, htable], hp⟩
    · exact ⟨c, hc, ports, update_self .., hp⟩

theorem zip_concat {α β : Type*} {l : List α} {xs : List β} {a : α} (h : l[xs.length]? = some a)
    (x : β) : l.zip (xs ++ [x]) = l.zip xs ++ [(a, x)] := by
  induction xs generalizing l with
  | nil =>
    cases l with
    | nil => cases h
    | cons b l =>
      cases h
      simp
  | cons y xs ih =>
    cases l with
    | nil => cases h
    | cons b l =>
      rw [cons_append, zip_cons_cons, ih (l := l) (by simpa using h)]
      rfl

namespace PortSession

/-- the ports of the chain in work, which are not in the table yet -/
def pending (s : PortSession) : List (Endpoint × ℕ) :=
  match s.chains with
  | [] => []
  | c :: _ => (c.chain.hops.map (·.proxyKey)).zip s.hopListenPorts

def listed (s : PortSession) : List (Endpoint × ℕ) := tablePorts s.chainPorts s.plan.sinkChains

/-- the ports of a session are those in its table and those of the chain in work -/
structure Ok (s : PortSession) : Prop where
  suffix : s.chains <:+ s.plan.sinkChains
  fresh : ∀ c ∈ s.chains, s.chainPorts c.chain.chainId = none
  reserved : ∀ p, p.2 ∈ s.usedPorts p.1 ↔ p ∈ s.listed ∨ p ∈ s.pending
  disjoint : ∀ p ∈ s.pending, p ∉ s.listed
  hops_le : ∀ c ∈ s.chains.head?, s.hopListenPorts.length ≤ c.chain.hops.length
  hops_nil : s.chains = [] → s.hopListenPorts = []
  chains_nil : s.phase = .readying ∨ s.phase = .running → s.chains = []

theorem Ok.start (plan : SessionPlan) : Ok { plan } where
  suffix := suffix_rfl
  fresh _ _ := rfl
  reserved p := by
    refine iff_of_false (Finset.notMem_empty _) ?_
    rintro (h | h)
    · obtain ⟨c, -, ports, hnone, -⟩ := mem_tablePorts.mp h
      cases hnone
    · unfold pending at h
      split at h
      · cases h
      · rw [zip_nil_right] at h
        cases h
  disjoint p _ h := by
    obtain ⟨c, -, ports, hnone, -⟩ := mem_tablePorts.mp h
    cases hnone
  hops_le _ _ := Nat.zero_le _
  hops_nil _ := rfl
  chains_nil h := by rcases h with h | h <;> cases h

theorem Ok.setPhase (hs : s.Ok) {phase : SessionPhase}
    (h : phase = .readying ∨ phase = .running → s.chains = []) : Ok { s with phase } :=
  ⟨hs.suffix, hs.fresh, hs.reserved, hs.disjoint, hs.hops_le, hs.hops_nil, h⟩

theorem pending_nil_iff (hs : s.Ok) : s.pending = [] ↔ s.hopListenPorts = [] := by
  unfold pending
  cases hc : s.chains with
  | nil => exact iff_of_true rfl (hs.hops_nil hc)
  | cons c rest =>
    have hle : s.hopListenPorts.length ≤ c.chain.hops.length := hs.hops_le c (by rw [hc]; rfl)
    rw [← length_eq_zero_iff, ← length_eq_zero_iff, length_zip, length_map,
      min_eq_right hle]

theorem mem_usedPorts_update {used : Endpoint → Finset ℕ} {key : Endpoint} {port : ℕ} :
    p.2 ∈ update used key (insert port (used key)) p.1 ↔ p = (key, port) ∨ p.2 ∈ used p.1 := by
  by_cases hk : p.1 = key
  · rw [hk, update_self, Finset.mem_insert]
    refine or_congr_left ?_
    exact ⟨fun h => Prod.ext hk h, fun h => congrArg Prod.snd h⟩
  · rw [update_of_ne hk]
    exact (or_iff_right fun h => hk (congrArg Prod.fst h)).symm

def take (s : PortSession) (key : Endpoint) (port : ℕ) : PortSession :=
  { s with usedPorts := update s.usedPorts key (insert port (s.usedPorts key)) }

theorem Ok.allocated (hs : s.Ok) {c : SinkChain} {rest : List SinkChain}
    (hc : s.chains = c :: rest) (hphase : s.phase = .allocating) {port : ℕ}
    (hport : port ∉ s.usedPorts (nextRequest c s.hopListenPorts).proxyKey) :
    ((s.take (nextRequest c s.hopListenPorts).proxyKey port).allocated c rest (some port)).Ok := by
  have hmem : c ∈ s.chains := by rw [hc]; exact mem_cons_self
  have hplan : c ∈ s.plan.sinkChains := hs.suffix.subset hmem
  have hpend : s.pending = (c.chain.hops.map (·.proxyKey)).zip s.hopListenPorts := by
    unfold pending
    rw [hc]
  have hids : ((c :: rest).map (·.chain.chainId)).Nodup :=
    (hc ▸ hs.suffix).sublist.map _ |>.nodup s.plan.chainIds
  have hle := hs.hops_le c (by rw [hc]; rfl)
  have hnotlisted : ((nextRequest c s.hopListenPorts).proxyKey, port) ∉ s.listed :=
    fun h => hport ((hs.reserved (_, port)).mpr (.inl h))
  unfold PortSession.allocated take nextRequest at *
  cases hhop : c.chain.hops[s.hopListenPorts.length]? with
  | some hop =>
    simp only [hhop] at hport hnotlisted ⊢
    have hzip : (c.chain.hops.map (·.proxyKey)).zip (s.hopListenPorts ++ [port]) =
        s.pending ++ [(hop.proxyKey, port)] := by
      rw [hpend]
      exact zip_concat (by rw [getElem?_map, hhop]; rfl) port
    have hpend' : pending { s with
        usedPorts := update s.usedPorts hop.proxyKey (insert port (s.usedPorts hop.proxyKey))
        hopListenPorts := s.hopListenPorts ++ [port] } = s.pending ++ [(hop.proxyKey, port)] := by
      rw [← hzip]
      unfold pending
      simp only [hc]
    refine ⟨hs.suffix, hs.fresh, fun p => ?_, fun p hp => ?_, fun d hd => ?_, fun h => ?_, hs.chains_nil⟩
    · rw [hpend', mem_append, mem_singleton]
      show p.2 ∈ update s.usedPorts hop.proxyKey _ p.1 ↔ p ∈ s.listed ∨ _
      rw [mem_usedPorts_update, hs.reserved p]
      tauto
    · rw [hpend', mem_append, mem_singleton] at hp
      rcases hp with hp | rfl
      · exact hs.disjoint p hp
      · exact hnotlisted
    · simp only [hc, head?_cons, mem_def, some.injEq] at hd
      subst hd
      have hlt := (List.getElem?_eq_some_iff.mp hhop).1
      simpa using hlt
    · rw [hc] at h
      cases h
  | none =>
    simp only [hhop] at hport hnotlisted ⊢
    have hlisted (p) : p ∈ tablePorts (update s.chainPorts c.chain.chainId
          (some ⟨s.hopListenPorts, port⟩)) s.plan.sinkChains ↔
        p ∈ s.listed ∨ p ∈ s.pending ∨ p = (c.sinkKey, port) := by
      rw [mem_tablePorts_update s.plan.chainIds hplan (hs.fresh c hmem), SinkChain.listenPorts,
        mem_append, mem_singleton, hpend]
      rfl
    have hpend' (t : PortSession) (ht : t.hopListenPorts = []) : t.pending = [] := by
      unfold pending
      split
      · rfl
      · rw [ht, zip_nil_right]
    refine ⟨?_, fun d hd => ?_, fun p => ?_, fun p hp => ?_, fun d hd => Nat.zero_le _, fun _ => rfl,
      fun h => ?_⟩
    · exact (suffix_cons c rest).trans (hc ▸ hs.suffix)
    · have hne : d.chain.chainId ≠ c.chain.chainId := by
        rw [map_cons, nodup_cons] at hids
        intro hid
        exact hids.1 (hid ▸ List.mem_map_of_mem hd)
      show update s.chainPorts c.chain.chainId _ d.chain.chainId = none
      rw [update_of_ne hne]
      exact hs.fresh d (by rw [hc]; exact mem_cons_of_mem _ hd)
    · rw [hpend' _ rfl]
      show p.2 ∈ update s.usedPorts c.sinkKey _ p.1 ↔ p ∈ tablePorts _ _ ∨ p ∈ []
      rw [mem_usedPorts_update, hlisted, hs.reserved p]
      simp only [not_mem_nil, or_false]
      tauto
    · rw [hpend' _ rfl] at hp
      cases hp
    · rw [hphase] at h
      rcases h with h | h <;> cases h

end PortSession

/-! ## What a step of a session can do -/

/-- the steps of a session, with what they do to the ports in flight -/
inductive SessionMove (a : PortAllocator) (s : PortSession) :
    SessionEvent → PortAllocator → PortSession → Prop
  /-- no port was found, and the session fails -/
  | starved {c : SinkChain} {rest : List SinkChain} {probe : PortProbe} {a' : PortAllocator}
      (message : String) (hphase : s.phase = .allocating) (hc : s.chains = c :: rest)
      (hfree : ¬FreePort false probe a (PortSession.nextRequest c s.hopListenPorts))
      (ha : a'.inflightPorts = a.inflightPorts) :
      SessionMove a s (.allocate probe) a' { s with phase := .finalizing (.error message) }
  | found {c : SinkChain} {rest : List SinkChain} {probe : PortProbe} {a' : PortAllocator} {port : ℕ}
      (hphase : s.phase = .allocating) (hc : s.chains = c :: rest)
      (hfree : FreePort false probe a (PortSession.nextRequest c s.hopListenPorts))
      (hport : port ∉ a.inflightPorts (PortSession.nextRequest c s.hopListenPorts).proxyKey)
      (ha : a'.inflightPorts =
        (a.reserve (PortSession.nextRequest c s.hopListenPorts).proxyKey port).inflightPorts) :
      SessionMove a s (.allocate probe) a'
        ((s.take (PortSession.nextRequest c s.hopListenPorts).proxyKey port).allocated c rest (some port))
  /-- a phase after the allocation ends, with success or an error -/
  | passed {e : SessionEvent} {phase : SessionPhase} (he : ∀ probe, e ≠ .allocate probe)
      (hstay : e.leaves = false) (hc : s.chains = [])
      (hphase : s.phase = .allocating ∨ s.phase = .readying ∨ s.phase = .running)
      (hlive' : phase.Live) :
      SessionMove a s e a { s with phase }
  | left {now : ℕ} {result : Except String Unit} (hphase : s.phase = .finalizing result) :
      SessionMove a s (.finalize now)
        (a.releaseInflightPorts false now s.chainPorts s.plan.toGlrcPipelinePlan)
        { s with phase := .finished result }

theorem PortSession.allocated_none (s : PortSession) (c : SinkChain) (rest : List SinkChain) :
    ∃ message, s.allocated c rest none = { s with phase := .finalizing (.error message) } := by
  simp only [allocated]
  split
  · exact ⟨_, rfl⟩
  · exact ⟨_, rfl⟩

theorem releaseInflightPorts_of_not_armed (h : s.armed = false) (now : ℕ) (a : PortAllocator) :
    a.releaseInflightPorts false now s.chainPorts s.plan.toGlrcPipelinePlan = a := by
  unfold PortSession.armed at h
  rw [Bool.not_eq_false', List.isEmpty_iff] at h
  unfold PortAllocator.releaseInflightPorts
  rw [h]
  rfl

theorem sessionStep_move {a' : PortAllocator} {s' : PortSession} {e : SessionEvent} (hs : s.Ok)
    (hused : ∀ key, s.usedPorts key ⊆ a.inflightPorts key)
    (h : sessionStep false a s e = some (a', s')) : SessionMove a s e a' s' := by
  cases e with
  | start plan => cases h
  | allocate probe =>
    unfold sessionStep at h
    simp only at h
    split at h
    · next c rest hphase hc =>
      cases h
      have hiff := allocate_isSome_iff false s.plan.exchangeEpoch probe
        (hused (PortSession.nextRequest c s.hopListenPorts).proxyKey)
      rcases allocate_cases false s.plan.exchangeEpoch (PortSession.nextRequest c s.hopListenPorts) probe
          s.usedPorts a with ⟨a', ha, hsame⟩ | ⟨port, a', ha, hport, hsame⟩
      · rw [ha] at hiff ⊢
        obtain ⟨message, hmsg⟩ := s.allocated_none c rest
        simp only
        rw [hmsg]
        exact .starved message hphase hc (fun hfree => Bool.false_ne_true (hiff.mpr hfree)) hsame
      · rw [ha] at hiff ⊢
        exact .found hphase hc (hiff.mp rfl) hport hsame
    · cases h
  | checkPorts =>
    unfold sessionStep at h
    simp only at h
    split at h
    · next hphase hc =>
      split at h <;> cases h <;>
        exact .passed (fun _ => nofun) rfl hc (.inl hphase) fun _ => nofun
    · cases h
  | ready readyError =>
    unfold sessionStep at h
    simp only at h
    split at h
    · next hphase =>
      have hc := hs.chains_nil (.inl hphase)
      split at h <;> cases h <;>
        exact .passed (fun _ => nofun) rfl hc (.inr (.inl hphase)) fun _ => nofun
    · cases h
  | dataPlane rpcErrors =>
    unfold sessionStep at h
    simp only at h
    split at h
    · next hphase =>
      have hc := hs.chains_nil (.inr hphase)
      split at h <;> cases h <;>
        exact .passed (fun _ => nofun) rfl hc (.inr (.inr hphase)) fun _ => nofun
    · cases h
  | finalize now =>
    unfold sessionStep at h
    simp only at h
    split at h
    · next hphase =>
      cases h
      exact .left hphase
    · next message hphase =>
      cases h
      cases harmed : s.armed with
      | true => exact .left hphase
      | false =>
        have hleft : SessionMove a s (.finalize now) _ _ := .left hphase
        rw [releaseInflightPorts_of_not_armed harmed] at hleft
        exact hleft
    · cases h

theorem SessionMove.ok {a' : PortAllocator} {s' : PortSession} {e : SessionEvent}
    (h : SessionMove a s e a' s') (hs : s.Ok) (hused : ∀ key, s.usedPorts key ⊆ a.inflightPorts key) :
    s'.Ok := by
  cases h with
  | starved message => exact hs.setPhase fun h => by rcases h with h | h <;> cases h
  | found hphase hc _ hport => exact hs.allocated hc hphase fun hmem => hport (hused _ hmem)
  | passed _ _ hc => exact hs.setPhase fun _ => hc
  | left => exact hs.setPhase fun h => by rcases h with h | h <;> cases h

/-! ## The sessions as clients of a pool -/

namespace PortSession

/-- the ports a session has reserved, until it has left -/
def held (s : PortSession) : Set (Endpoint × ℕ) :=
  match s.phase with
  | .finished _ => ∅
  | _ => { p | p.2 ∈ s.usedPorts p.1 }

theorem held_of_live (h : s.phase.Live) : s.held = { p | p.2 ∈ s.usedPorts p.1 } := by
  unfold held
  split
  · next result hphase => exact absurd hphase (h result)
  · rfl

theorem held_setPhase {phase : SessionPhase} (h : s.phase.Live) (h' : phase.Live) :
    held { s with phase } = s.held := by
  rw [held_of_live h, held_of_live (s := { s with phase }) h']

end PortSession

def PortAllocator.busy (a : PortAllocator) : Set (Endpoint × ℕ) := { p | p.2 ∈ a.inflightPorts p.1 }

def PortSystem.pool (s : PortSystem) : Pool ℕ (Endpoint × ℕ) where
  busy := s.alloc.busy
  held i := ((s.sessions i).map (·.held)).getD ∅

structure PortSystem.Ok (s : PortSystem) : Prop where
  pool : s.pool.Ok
  sessions : ∀ i, ∀ session ∈ s.sessions i, session.Ok

section
variable {s s' : PortSystem} {i : ℕ} {session session' : PortSession} {a a' : PortAllocator}
  {e : SessionEvent}

theorem PortSystem.pool_held (h : s.sessions i = some session) : s.pool.held i = session.held := by
  show ((s.sessions i).map (·.held)).getD ∅ = _
  rw [h]
  rfl

theorem PortSystem.pool_setSession (s : PortSystem) (a : PortAllocator) (i : ℕ)
    (session : PortSession) : ({ s with alloc := a }.setSession i session).pool =
      ⟨a.busy, update s.pool.held i session.held⟩ := by
  refine Pool.ext rfl (funext fun j => ?_)
  show ((update s.sessions i (some session) j).map (·.held)).getD ∅ =
    update s.pool.held i session.held j
  by_cases hj : j = i
  · subst hj
    rw [update_self, update_self]
    rfl
  · rw [update_of_ne hj, update_of_ne hj]
    rfl

theorem busy_congr (h : a'.inflightPorts = a.inflightPorts) : a'.busy = a.busy := by
  unfold PortAllocator.busy
  rw [h]

theorem busy_reserve (key : Endpoint) (port : ℕ) :
    (a.reserve key port).busy = insert (key, port) a.busy :=
  Set.ext fun _ => PortSession.mem_usedPorts_update

theorem busy_releaseInflightPorts (a : PortAllocator) (session : PortSession) (now : ℕ) :
    (a.releaseInflightPorts false now session.chainPorts session.plan.toGlrcPipelinePlan).busy =
      a.busy \ { p | p ∈ session.listed } :=
  Set.ext fun _ => mem_foldl_releasePort

theorem PortSession.allocated_some_fields (t : PortSession) (c : SinkChain) (rest : List SinkChain)
    (port : ℕ) : (t.allocated c rest (some port)).phase = t.phase ∧
      (t.allocated c rest (some port)).usedPorts = t.usedPorts := by
  simp only [PortSession.allocated]
  split
  · exact ⟨rfl, rfl⟩
  · exact ⟨rfl, rfl⟩

theorem PortSession.Ok.listed_subset_held (hs : session.Ok) (hlive : session.phase.Live) :
    { p | p ∈ session.listed } ⊆ session.held := by
  rw [PortSession.held_of_live hlive]
  exact fun p hp => (hs.reserved p).mpr (.inl hp)

theorem PortSession.Ok.held_subset_listed_iff (hs : session.Ok) (hlive : session.phase.Live) :
    session.held ⊆ { p | p ∈ session.listed } ↔ session.hopListenPorts = [] := by
  rw [PortSession.held_of_live hlive, ← PortSession.pending_nil_iff hs, eq_nil_iff_forall_not_mem]
  constructor
  · exact fun h p hp => hs.disjoint p hp (h ((hs.reserved p).mpr (.inr hp)))
  · intro h p hp
    exact ((hs.reserved p).mp hp).resolve_right (h p)

theorem SessionMove.act (h : SessionMove s.alloc session e a' session')
    (hsession : s.sessions i = some session) (hs : session.Ok) :
    Pool.Act i s.pool e.leaves ({ s with alloc := a' }.setSession i session').pool := by
  have hheld := PortSystem.pool_held hsession
  rw [PortSystem.pool_setSession]
  have hidle (hbusy : a'.busy = s.alloc.busy) (hsame : session'.held = session.held) :
      Pool.Act i s.pool false ⟨a'.busy, update s.pool.held i session'.held⟩ := by
    rw [hbusy, hsame, ← hheld, update_eq_self]
    exact .idle
  cases h with
  | starved message hphase hc hfree ha =>
    have hlive : session.phase.Live := hphase ▸ fun _ => nofun
    exact hidle (busy_congr ha) (PortSession.held_setPhase hlive fun _ => nofun)
  | @found c rest probe a' port hphase hc hfree hport ha =>
    set req := PortSession.nextRequest c session.hopListenPorts
    have hfields := (session.take req.proxyKey port).allocated_some_fields c rest port
    have hlive : session.phase.Live := hphase ▸ fun _ => nofun
    have hnew : ((session.take req.proxyKey port).allocated c rest (some port)).held =
        insert (req.proxyKey, port) session.held := by
      rw [PortSession.held_of_live (by rw [hfields.1]; exact hlive), PortSession.held_of_live hlive,
        hfields.2]
      exact Set.ext fun _ => PortSession.mem_usedPorts_update
    have hbusy : a'.busy = insert (req.proxyKey, port) s.alloc.busy := by
      rw [busy_congr ha, busy_reserve]
    rw [hnew, hbusy, ← hheld]
    exact .reserve (req.proxyKey, port) hport
  | passed he hstay hc hphase hlive' =>
    rw [hstay]
    have hlive : session.phase.Live := by
      rcases hphase with h | h | h <;> exact h ▸ fun _ => nofun
    exact hidle rfl (PortSession.held_setPhase hlive hlive')
  | left hphase =>
    rw [busy_releaseInflightPorts]
    have hlive : session.phase.Live := hphase ▸ fun _ => nofun
    exact .release _ (hheld ▸ hs.listed_subset_held hlive)

end

/-! ## Runs -/

section
variable {s s' : PortSystem} {e : ℕ × SessionEvent} {sid : ℕ}

theorem sessionStep_finished {result : Except String Unit}
    (h : session.phase = .finished result) (e : SessionEvent) : sessionStep false a session e = none := by
  cases e <;> simp only [sessionStep, h]

theorem portSystemStep_cases (hs : s.Ok) (h : portSystemStep false e s = some s') :
    (∃ plan, s.sessions e.1 = none ∧ e.2 = .start plan ∧ s' = s.setSession e.1 { plan }) ∨
    ∃ session a' session', s.sessions e.1 = some session ∧ session.phase.Live ∧
      (∀ key, session.usedPorts key ⊆ s.alloc.inflightPorts key) ∧
      SessionMove s.alloc session e.2 a' session' ∧
      s' = { s with alloc := a' }.setSession e.1 session' := by
  obtain ⟨i, e⟩ := e
  unfold portSystemStep at h
  simp only at h ⊢
  cases hsession : s.sessions i with
  | none =>
    rw [hsession] at h
    cases e with
    | start plan =>
      cases h
      exact .inl ⟨plan, rfl, rfl, rfl⟩
    | _ => cases h
  | some session =>
    rw [hsession] at h
    obtain ⟨⟨a', session'⟩, hstep, rfl⟩ := map_eq_some_iff.mp h
    have hlive : session.phase.Live := by
      intro result hphase
      rw [sessionStep_finished hphase] at hstep
      cases hstep
    have hused : ∀ key, session.usedPorts key ⊆ s.alloc.inflightPorts key := by
      intro key port hport
      have hheld := hs.pool.held_busy i
      rw [PortSystem.pool_held hsession, PortSession.held_of_live hlive] at hheld
      exact @hheld (key, port) hport
    exact .inr ⟨session, a', session', rfl, hlive, hused,
      sessionStep_move (hs.sessions i session hsession) hused hstep, rfl⟩

theorem PortSystem.pool_start (h : s.sessions sid = none) (plan : SessionPlan) :
    (s.setSession sid { plan }).pool = s.pool := by
  have hpool := s.pool_setSession s.alloc sid { plan }
  have hheld : PortSession.held { plan } = s.pool.held sid := by
    show { p : Endpoint × ℕ | p.2 ∈ (∅ : Finset ℕ) } = ((s.sessions sid).map (·.held)).getD ∅
    rw [h]
    exact Set.eq_empty_of_forall_notMem fun p hp => absurd hp (Finset.notMem_empty _)
  rw [hheld, update_eq_self] at hpool
  exact hpool

theorem PortSystem.Ok.setSession {i : ℕ} (hs : s.Ok)
    (hpool : ({ s with alloc := a }.setSession i session).pool.Ok) (hsession : session.Ok) :
    ({ s with alloc := a }.setSession i session).Ok := by
  refine ⟨hpool, fun j t ht => ?_⟩
  have ht' : update s.sessions i (some session) j = some t := ht
  by_cases hj : j = i
  · subst hj
    rw [update_self, some.injEq] at ht'
    exact ht' ▸ hsession
  · rw [update_of_ne hj] at ht'
    exact hs.sessions j t ht'

theorem portSystemStep_ok (hs : s.Ok) (h : portSystemStep false e s = some s') : s'.Ok := by
  rcases portSystemStep_cases hs h with ⟨plan, hnone, -, rfl⟩ | ⟨t, a', t', ht, -, hused, hmove, rfl⟩
  · refine PortSystem.Ok.setSession (a := s.alloc) hs ?_ (PortSession.Ok.start plan)
    exact (PortSystem.pool_start hnone plan).symm ▸ hs.pool
  · have hok := hs.sessions _ t ht
    exact hs.setSession ((hmove.act ht hok).ok hs.pool) (hmove.ok hok hused)

theorem portSystem_ok (a : PortAllocator) : PortSystem.Ok { alloc := a } where
  pool := ⟨fun _ => Set.empty_subset _, fun _ _ _ => Set.empty_disjoint _⟩
  sessions _ _ h := by cases h

/-! ## When all ports are given back -/

/-- the ports of session `sid` are not in flight -/
def GivenBack (sid : ℕ) (s : PortSystem) : Prop :=
  ∀ session ∈ s.sessions sid, ∀ key, ∀ port ∈ session.usedPorts key, port ∉ s.alloc.inflightPorts key

/-- an allocation of session `sid` for a chain that has a port already finds half a band with a free
port -/
def FindsPort (sid : ℕ) : ℕ × SessionEvent → PortSystem → Prop
  | (i, .allocate probe), s => i = sid → ∀ session ∈ s.sessions sid, ∀ c ∈ session.chains.head?,
      session.hopListenPorts ≠ [] →
        FreePort false probe s.alloc (PortSession.nextRequest c session.hopListenPorts)
  | _, _ => True

instance (sid : ℕ) (e : ℕ × SessionEvent) (s : PortSystem) : Decidable (FindsPort sid e s) :=
  match e with
  | (i, .allocate probe) => inferInstanceAs (Decidable (i = sid → ∀ session ∈ s.sessions sid,
      ∀ c ∈ session.chains.head?, session.hopListenPorts ≠ [] →
        FreePort false probe s.alloc (PortSession.nextRequest c session.hopListenPorts)))
  | (_, .start _) => isTrue trivial
  | (_, .checkPorts) => isTrue trivial
  | (_, .ready _) => isTrue trivial
  | (_, .dataPlane _) => isTrue trivial
  | (_, .finalize _) => isTrue trivial

/-- the session ends without a port outside its table -/
def EndsClean (session : PortSession) : Prop :=
  ∀ result, session.phase = .finalizing result → session.hopListenPorts = []

/-- the session ends or has ended with a port outside its table -/
def EndsShort (session : PortSession) : Prop :=
  (∃ result, session.phase = .finalizing result ∨ session.phase = .finished result) ∧
    session.hopListenPorts ≠ []

theorem portSystemStep_of_ne (hs : s.Ok) (h : portSystemStep false e s = some s') (hne : e.1 ≠ sid) :
    s'.sessions sid = s.sessions sid := by
  rcases portSystemStep_cases hs h with ⟨plan, -, -, rfl⟩ | ⟨t, a', t', -, -, -, -, rfl⟩
  · exact update_of_ne hne.symm ..
  · exact update_of_ne hne.symm ..

theorem sessions_setSession_self : (s.setSession sid session).sessions sid = some session :=
  update_self ..

theorem endsClean_step (hs : s.Ok ∧ ∀ session ∈ s.sessions sid, EndsClean session)
    (hP : FindsPort sid e s) (h : portSystemStep false e s = some s') :
    s'.Ok ∧ ∀ session ∈ s'.sessions sid, EndsClean session := by
  refine ⟨portSystemStep_ok hs.1 h, ?_⟩
  obtain ⟨i, ev⟩ := e
  by_cases hi : i = sid
  · subst hi
    rcases portSystemStep_cases hs.1 h with ⟨plan, -, -, rfl⟩ | ⟨t, a', t', ht, -, -, hmove, rfl⟩
    · intro session hsession
      rw [sessions_setSession_self] at hsession
      cases hsession
      exact fun _ => nofun
    · intro session hsession
      rw [sessions_setSession_self] at hsession
      cases hsession
      have hok := hs.1.sessions i t ht
      simp only at hmove
      cases hmove with
      | starved message hphase hc hfree =>
        intro _ _
        by_contra hne
        exact hfree (hP rfl t ht _ (by rw [hc]; rfl) hne)
      | @found c rest probe _ port hphase =>
        intro result hphase'
        rw [(PortSession.allocated_some_fields _ c rest port).1] at hphase'
        exact absurd (hphase.symm.trans hphase') nofun
      | passed _ _ hc => exact fun _ _ => hok.hops_nil hc
      | left => exact fun _ => nofun
  · rw [portSystemStep_of_ne hs.1 h hi]
    exact hs.2

theorem endsShort_of_not_findsPort (hs : s.Ok) (hP : ¬FindsPort sid e s)
    (h : portSystemStep false e s = some s') : ∃ session ∈ s'.sessions sid, EndsShort session := by
  obtain ⟨i, ev⟩ := e
  cases ev with
  | allocate probe =>
    simp only [FindsPort, not_forall] at hP
    obtain ⟨rfl, t, ht, c, hc, hne, hfree⟩ := hP
    rcases portSystemStep_cases hs h with ⟨plan, -, hev, -⟩ | ⟨u, a', u', hu, -, -, hmove, rfl⟩
    · cases hev
    · have hut : u = t := some.inj (hu.symm.trans ht)
      subst hut
      refine ⟨u', sessions_setSession_self, ?_⟩
      simp only at hmove
      cases hmove with
      | starved message => exact ⟨⟨_, .inl rfl⟩, hne⟩
      | found hphase hc' hfree' =>
        rw [hc'] at hc
        cases hc
        exact absurd hfree' hfree
      | passed he => exact absurd rfl (he probe)
  | _ => exact absurd trivial hP

theorem endsShort_step (hs : s.Ok) (hJ : ∃ session ∈ s.sessions sid, EndsShort session)
    (h : portSystemStep false e s = some s') : ∃ session ∈ s'.sessions sid, EndsShort session := by
  by_cases hi : e.1 = sid
  · obtain ⟨t, ht, ⟨result, hphase⟩, hne⟩ := hJ
    obtain ⟨i, ev⟩ := e
    subst hi
    rcases portSystemStep_cases hs h with ⟨plan, hnone, -, rfl⟩ | ⟨u, a', u', hu, hlive, -, hmove, rfl⟩
    · exact absurd (hnone.symm.trans ht) nofun
    · have hut : u = t := some.inj (hu.symm.trans ht)
      subst hut
      have hfin : u.phase = .finalizing result := hphase.resolve_right (hlive result)
      refine ⟨u', sessions_setSession_self, ?_⟩
      simp only at hmove
      cases hmove with
      | starved _ hphase' => exact absurd (hfin.symm.trans hphase') nofun
      | found hphase' => exact absurd (hfin.symm.trans hphase') nofun
      | passed _ _ _ hphase' => rw [hfin] at hphase'; simp at hphase'
      | left => exact ⟨⟨_, .inr rfl⟩, hne⟩
  · rw [portSystemStep_of_ne hs h hi]
    exact hJ

theorem alone_step {base : Set (Endpoint × ℕ)} (hs : s.Ok ∧
      ((∀ session ∈ s.sessions sid, session.phase.Live) → s.pool.Alone base sid))
    (hP : e.1 = sid) (h : portSystemStep false e s = some s') : s'.Ok ∧
      ((∀ session ∈ s'.sessions sid, session.phase.Live) → s'.pool.Alone base sid) := by
  refine ⟨portSystemStep_ok hs.1 h, fun hlive' => ?_⟩
  subst hP
  rcases portSystemStep_cases hs.1 h with ⟨plan, hnone, -, rfl⟩ | ⟨t, a', t', ht, hlive, -, hmove, rfl⟩
  · rw [PortSystem.pool_start hnone]
    exact hs.2 fun session hsession => absurd (hnone.symm.trans hsession) nofun
  · have halone := hs.2 fun _ h => some.inj (ht.symm.trans h) ▸ hlive
    have hact := hmove.act ht (hs.1.sessions _ t ht)
    have hstay : e.2.leaves = false := by
      cases hev : e.2.leaves with
      | false => rfl
      | true =>
        rw [hev] at hact
        have hfin : ∃ result, t'.phase = .finished result := by
          generalize e.2 = ev at hmove hev
          cases hmove with
          | passed _ hstay => exact absurd (hstay.symm.trans hev) Bool.false_ne_true
          | left => exact ⟨_, rfl⟩
          | _ => cases hev
        obtain ⟨result, hphase⟩ := hfin
        exact absurd hphase (hlive' t' sessions_setSession_self result)
    rw [hstay] at hact
    exact hact.alone halone

theorem finalize_cases {now : ℕ} (hs : s.Ok) (h : portSystemStep false (sid, .finalize now) s = some s') :
    ∃ t ∈ s.sessions sid, (∃ result, t.phase = .finalizing result) ∧
      t.phase.Live ∧
      s'.alloc.busy = (s.pool.release sid { p | p ∈ t.listed }).busy ∧
      (GivenBack sid s' ↔ t.hopListenPorts = []) := by
  rcases portSystemStep_cases hs h with ⟨plan, -, hev, -⟩ | ⟨t, a', t', ht, hlive, -, hmove, rfl⟩
  · cases hev
  · have hok := hs.sessions sid t ht
    have hheld := PortSystem.pool_held ht
    simp only at hmove
    cases hmove with
    | passed _ hstay => cases hstay
    | left hphase =>
      have hbusy := busy_releaseInflightPorts s.alloc t now
      refine ⟨t, ht, ⟨_, hphase⟩, hlive, hbusy, ?_⟩
      rw [← hok.held_subset_listed_iff hlive, ← hheld, ← Pool.release_clears_iff hs.pool, hheld,
        PortSession.held_of_live hlive, Set.disjoint_left]
      show _ ↔ ∀ ⦃p⦄, p.2 ∈ t.usedPorts p.1 → p ∉ s.alloc.busy \ { p | p ∈ t.listed }
      rw [← hbusy]
      constructor
      · intro hback p hp
        exact hback _ sessions_setSession_self p.1 p.2 hp
      · intro hback session hsession key port hport
        rw [sessions_setSession_self] at hsession
        cases hsession
        exact @hback (key, port) hport

end

/-- **Main result.**  Whatever other sessions do, a session leaves no port behind exactly when every
allocation for a chain that has a port already finds a free one; if no other session runs, the ports
in flight are then those before the session. -/
theorem ports_given_back_iff {a : PortAllocator} {es₀ es : List (ℕ × SessionEvent)}
    {s₀ s₁ s₂ : PortSystem} {sid now : ℕ} (h₀ : run (portSystemStep false) es₀ { alloc := a } = some s₀)
    (hnew : s₀.sessions sid = none) (hrun : run (portSystemStep false) es s₀ = some s₁)
    (hfin : portSystemStep false (sid, .finalize now) s₁ = some s₂) :
    (GivenBack sid s₂ ∧
        ((∀ e ∈ es, e.1 = sid) → s₂.alloc.inflightPorts = s₀.alloc.inflightPorts)) ↔
      Along (portSystemStep false) (FindsPort sid) es s₀ := by
  have hs₀ : s₀.Ok := run_invariant (fun _ _ _ => portSystemStep_ok) (portSystem_ok a) h₀
  have hs₁ : s₁.Ok := run_invariant (fun _ _ _ => portSystemStep_ok) hs₀ hrun
  obtain ⟨t, ht, ⟨result, hphase⟩, hlive, hbusy, hback⟩ := finalize_cases hs₁ hfin
  constructor
  · rintro ⟨hgiven, -⟩
    by_contra hnot
    obtain ⟨t', ht', -, hne⟩ := run_not_along (fun _ _ _ => portSystemStep_ok)
      (fun _ _ _ => endsShort_of_not_findsPort) (fun _ _ _ => endsShort_step) hs₀ hnot hrun
    have htt : t' = t := some.inj (ht'.symm.trans ht)
    exact hne (htt ▸ hback.mp hgiven)
  · intro halong
    have hclean := run_along (fun _ _ _ => endsClean_step)
      ⟨hs₀, fun session hsession => absurd (hnew.symm.trans hsession) nofun⟩ halong hrun
    have hnil : t.hopListenPorts = [] := hclean.2 t ht result hphase
    refine ⟨hback.mpr hnil, fun honly => ?_⟩
    -- the session's own ports are all that was added, and all of them are in its table
    have hstart : s₀.pool.Alone s₀.alloc.busy sid := by
      have hheld : s₀.pool.held sid = ∅ := by
        show ((s₀.sessions sid).map (·.held)).getD ∅ = ∅
        rw [hnew]
        rfl
      exact ⟨by rw [hheld, Set.union_empty]; rfl, by rw [hheld]; exact Set.disjoint_empty _⟩
    have halone := (run_along (fun _ _ _ => alone_step) ⟨hs₀, fun _ => hstart⟩
      (along_of_mem honly s₀) hrun).2 fun _ h => some.inj (ht.symm.trans h) ▸ hlive
    have hok := hs₁.sessions sid t ht
    have hall : { p | p ∈ t.listed } = s₁.pool.held sid := by
      rw [PortSystem.pool_held ht]
      exact Set.Subset.antisymm (hok.listed_subset_held hlive)
        ((hok.held_subset_listed_iff hlive).mpr hnil)
    rw [halone.release hall] at hbusy
    funext key
    refine Finset.ext fun port => ?_
    exact Set.ext_iff.mp hbusy (key, port)

/-! ## A chain of four ports -/

def idleAllocator : PortAllocator := ⟨fun _ => ∅, fun _ => 0, fun _ => 0, fun _ _ => none⟩

theorem localPlan_build :
    glrcBuildPipelinePlan 4 2 2 [0] (localRepair 0 [1, 2, 6]) (allEquations 4 2 2) 1 (stripeNodes 8) 1 =
      .ok (stripePlan 1 [] [localRepairChain 0 [(6, 1), (2, 71), (1, 186)]]) := by
  decide +kernel

/-- allocations at a host where the given ports cannot be bound -/
def allocations (n : ℕ) (blocked : ℕ → Bool) : List (ℕ × SessionEvent) :=
  replicate n (0, .allocate { now := 0, bindable := fun port => !blocked port })

/-- a session that fails in its last phase gives back its four ports -/
theorem ports_given_back_after_ready_failure : ∃ s₁ s₂,
    run (portSystemStep false) ((0, .start (SessionPlan.ofBuild localPlan_build)) ::
      allocations 4 (fun _ => false) ++ [(0, .checkPorts), (0, .ready "pipeline hop ready failed: timeout")])
      { alloc := idleAllocator } = some s₁ ∧
    portSystemStep false (0, .finalize 5) s₁ = some s₂ ∧ GivenBack 0 s₂ ∧
    s₂.alloc.inflightPorts = idleAllocator.inflightPorts := by
  set es := (0, SessionEvent.start (SessionPlan.ofBuild localPlan_build)) :: allocations 4 (fun _ => false) ++
    [(0, .checkPorts), (0, .ready "pipeline hop ready failed: timeout")]
  have hsome : ((run (portSystemStep false) es { alloc := idleAllocator }).bind
      (portSystemStep false (0, .finalize 5))).isSome := by decide +kernel
  obtain ⟨s₂, hrun₂⟩ := isSome_iff_exists.mp hsome
  obtain ⟨s₁, hrun, hfin⟩ := bind_eq_some_iff.mp hrun₂
  have hback := (@ports_given_back_iff idleAllocator [] es _ s₁ s₂ 0 5 rfl rfl hrun hfin).mpr
    (by decide +kernel)
  exact ⟨s₁, s₂, hrun, hfin, hback.1, hback.2 (by decide)⟩

/-- the ports of the proxy of block 2 cannot be bound: the port reserved for block 6 stays in flight -/
theorem starved_hop_leaves_port : ∃ s₁ s₂,
    run (portSystemStep false) ((0, .start (SessionPlan.ofBuild localPlan_build)) ::
      allocations 2 (fun port => decide (20300 ≤ port ∧ port < 20450))) { alloc := idleAllocator } = some s₁ ∧
    portSystemStep false (0, .finalize 5) s₁ = some s₂ ∧ ¬GivenBack 0 s₂ ∧
    20931 ∈ s₂.alloc.inflightPorts ⟨"10.0.0.1", 50417⟩ ∧
    idleAllocator.inflightPorts ⟨"10.0.0.1", 50417⟩ = ∅ := by
  set es := (0, SessionEvent.start (SessionPlan.ofBuild localPlan_build)) ::
    allocations 2 (fun port => decide (20300 ≤ port ∧ port < 20450))
  have hleft : ((run (portSystemStep false) es { alloc := idleAllocator }).bind fun s₁ =>
      (portSystemStep false (0, .finalize 5) s₁).map fun s₂ => decide (∃ session ∈ s₂.sessions 0,
        20931 ∈ session.usedPorts ⟨"10.0.0.1", 50417⟩ ∧
        20931 ∈ s₂.alloc.inflightPorts ⟨"10.0.0.1", 50417⟩)) = some true := by decide +kernel
  obtain ⟨s₁, hrun, hrest⟩ := bind_eq_some_iff.mp hleft
  obtain ⟨s₂, hfin, hport⟩ := map_eq_some_iff.mp hrest
  obtain ⟨session, hsession, hused, hbusy⟩ := of_decide_eq_true hport
  exact ⟨s₁, s₂, hrun, hfin, fun h => h session hsession _ _ hused hbusy, hbusy, rfl⟩

end Mlrc
