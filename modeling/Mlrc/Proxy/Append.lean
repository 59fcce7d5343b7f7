import Mlrc.Coordinator.Upload
import Mlrc.Data.Port
import Mlrc.Proxy.Split

/-!
# Connections of appends and sets

`scheduleAppend2Datanode` starts a thread for a plan, which accepts the next connection on the data
port of the proxy; `handleAppend` does the same on the data port of a datanode.  What is sent over a
connection is bytes only.  Only these two calls are made in a run of the model: `encodeAndSetObject`,
`handleSet`, `handleGet` and the recoveries accept on the same ports and are left out.

* `proxyPort`, `datanodePort`   the two ports;
* `streams_reach_plans_iff`   when every connection is served by its own call.
-/

namespace Mlrc

/-- what decides how a plan cuts and stores the bytes it gets -/
def AppendStripeDataPlacement.cut (plan : AppendStripeDataPlacement) : ℕ × List Slice :=
  (plan.appendSize, plan.slices)

theorem appendSlices_of_cut {plan own : AppendStripeDataPlacement} (h : plan.cut = own.cut)
    (bytes : List UInt8) : ProxyImpl.appendSlices plan bytes = ProxyImpl.appendSlices own bytes := by
  rw [AppendStripeDataPlacement.cut, AppendStripeDataPlacement.cut, Prod.mk.injEq] at h
  unfold ProxyImpl.appendSlices splitAppend
  rw [h.1, h.2]

/-- the connection of `async_append_to_proxies` for a plan -/
structure PlanConnection where
  plan : AppendStripeDataPlacement
  bytes : List UInt8
deriving DecidableEq, Repr

structure AppendInfo where
  blockKey : String
  blockId : ℕ
  appendSize : ℕ
  appendOffset : ℤ
  isSerialized : Bool
deriving DecidableEq, Repr

/-- the connection of `AppendToDatanode` after a call of `handleAppend` -/
structure SliceConnection where
  info : AppendInfo
  bytes : List UInt8
deriving DecidableEq, Repr

/-- the data port of a proxy; a call of `notify_proxies_ready` that is made again adds a stray thread -/
def proxyPort : PortEvent AppendStripeDataPlacement PlanConnection →
    Port AppendStripeDataPlacement PlanConnection (ℕ × List Slice) →
    Option (Port AppendStripeDataPlacement PlanConnection (ℕ × List Slice)) :=
  portStep AppendStripeDataPlacement.cut fun c => c.plan.cut

def datanodePort : PortEvent AppendInfo SliceConnection →
    Port AppendInfo SliceConnection String → Option (Port AppendInfo SliceConnection String) :=
  portStep AppendInfo.blockKey fun c => c.info.blockKey

/-- whichever threads get the connections, the bytes for a plan are cut and stored as it says -/
def PlansServed (events : List (PortEvent AppendStripeDataPlacement PlanConnection)) : Prop :=
  ∀ events', Rescheduled events events' → ∀ p, run proxyPort events' {} = some p →
    ∀ q ∈ p.served, q.1.cut = q.2.plan.cut ∧
      ProxyImpl.appendSlices q.1 q.2.bytes = ProxyImpl.appendSlices q.2.plan q.2.bytes

/-- whichever threads get the connections, the bytes of a slice are written under its block key -/
def SlicesServed (events : List (PortEvent AppendInfo SliceConnection)) : Prop :=
  ∀ events', Rescheduled events events' → ∀ p, run datanodePort events' {} = some p →
    ∀ q ∈ p.served, q.1.blockKey = q.2.info.blockKey

/-- only threads of one plan wait when the proxy accepts a connection -/
def OnePlanWaits : PortEvent AppendStripeDataPlacement PlanConnection →
    Port AppendStripeDataPlacement PlanConnection (ℕ × List Slice) → Prop :=
  OneName AppendStripeDataPlacement.cut

/-- only calls for one block wait when the datanode accepts a connection -/
def OneBlockWaits : PortEvent AppendInfo SliceConnection →
    Port AppendInfo SliceConnection String → Prop :=
  OneName AppendInfo.blockKey

instance (e : PortEvent AppendStripeDataPlacement PlanConnection)
    (p : Port AppendStripeDataPlacement PlanConnection (ℕ × List Slice)) :
    Decidable (OnePlanWaits e p) :=
  inferInstanceAs (Decidable (OneName _ e p))

instance (e : PortEvent AppendInfo SliceConnection) (p : Port AppendInfo SliceConnection String) :
    Decidable (OneBlockWaits e p) :=
  inferInstanceAs (Decidable (OneName _ e p))

theorem plansServed_iff {events : List (PortEvent AppendStripeDataPlacement PlanConnection)} :
    PlansServed events ↔ AlwaysRight AppendStripeDataPlacement.cut (fun c => c.plan.cut) events := by
  constructor
  · intro h events' hre p hp q hq
    exact (h events' hre p hp q hq).1
  · intro h events' hre p hp q hq
    have hcut := h events' hre p hp q hq
    exact ⟨hcut, appendSlices_of_cut hcut _⟩

/-- **Main result.** In any run of the data port of a proxy and of the data port of a datanode, no
choice of threads mixes up plans or blocks exactly when only threads of one plan, and only calls for
one block, wait whenever a connection is accepted. -/
theorem streams_reach_plans_iff
    (events : List (PortEvent AppendStripeDataPlacement PlanConnection))
    (p : Port AppendStripeDataPlacement PlanConnection (ℕ × List Slice))
    (hp : run proxyPort events {} = some p)
    (slices : List (PortEvent AppendInfo SliceConnection))
    (d : Port AppendInfo SliceConnection String) (hd : run datanodePort slices {} = some d) :
    (PlansServed events ↔ Along proxyPort OnePlanWaits events {}) ∧
      (SlicesServed slices ↔ Along datanodePort OneBlockWaits slices {}) := by
  constructor
  · rw [plansServed_iff]
    exact port_right_iff hp
  · exact port_right_iff hd

/-! ## Two clients -/

/-- the plans of two sets that two clients make at the same time, as far as they go to cluster 1 -/
def plansOfCluster1 : List AppendStripeDataPlacement :=
  ((uploadSetValue unilrcConfig clustersOfFour {} "a" 4 [0, 0, 1, 1, 2, 2] fun _ => true).bind fun p =>
    (uploadSetValue unilrcConfig clustersOfFour p.1 "b" 4 [0, 0, 1, 1, 2, 2] fun _ => true).bind fun q =>
      (q.1.stripeTable 0).bind fun a => (q.1.stripeTable 1).bind fun b =>
        (generateAddPlans unilrcConfig a).bind fun as =>
          (generateAddPlans unilrcConfig b).map fun bs =>
            (as ++ bs).filter fun plan => plan.clusterId = 1).getD []

/-- the connections of the clients; client `i` sends bytes `i` only -/
def connectionsOfCluster1 : List PlanConnection :=
  plansOfCluster1.zipIdx.map fun p => ⟨p.1, List.replicate p.1.appendSize (UInt8.ofNat p.2)⟩

/-- the first slices of the two plans, both for node 4 -/
def slicesOfNode4 : List SliceConnection :=
  connectionsOfCluster1.filterMap fun c => c.plan.slices.head?.map fun slice =>
    ⟨⟨slice.blockKey, slice.blockId, slice.size, slice.offset, c.plan.isSerialized⟩,
      c.bytes.take slice.size⟩

/-- one after the other: every connection is accepted before the next call -/
def inTurn {κ γ : Type} (callOf : γ → κ) (connections : List γ) : List (PortEvent κ γ) :=
  connections.flatMap fun c => [.call (callOf c), .connect c, .accept 0]

/-- both at once, and the second thread gets the first connection -/
def atOnce {κ γ : Type} (callOf : γ → κ) (connections : List γ) : List (PortEvent κ γ) :=
  connections.map (fun c => .call (callOf c)) ++ connections.map .connect ++ [.accept 1, .accept 0]

theorem streams_reach_plans_in_turn :
    connectionsOfCluster1.length = 2 ∧
      PlansServed (inTurn PlanConnection.plan connectionsOfCluster1) ∧
      SlicesServed (inTurn SliceConnection.info slicesOfNode4) := by
  obtain ⟨p, hp⟩ := Option.isSome_iff_exists.mp (show (run proxyPort
    (inTurn PlanConnection.plan connectionsOfCluster1) {}).isSome = true by decide +kernel)
  obtain ⟨d, hd⟩ := Option.isSome_iff_exists.mp (show (run datanodePort
    (inTurn SliceConnection.info slicesOfNode4) {}).isSome = true by decide +kernel)
  have h := streams_reach_plans_iff _ p hp _ d hd
  exact ⟨by decide +kernel, h.1.mpr (by decide +kernel), h.2.mpr (by decide +kernel)⟩

/-- at once, what client `a` sends for its second group is stored as data block 0 of client `b`, and
at node 4 the bytes of either block are written under the key of the other -/
theorem streams_mixed_up :
    ((run proxyPort (atOnce PlanConnection.plan connectionsOfCluster1) {}).map fun p =>
      p.served.map fun q => (q.2.plan.key, ((ProxyImpl.appendSlices q.1 q.2.bytes).getD []).map
        fun s => (s.1.blockKey, s.2))) =
      some [("0_1", [("1_D00", [0, 0]), ("1_G00", [0, 0]), ("1_L00", [0, 0])]),
        ("1_0", [("0_D01", [1, 1]), ("0_G01", [1, 1]), ("0_L01", [1, 1])])] ∧
    ((run datanodePort (atOnce SliceConnection.info slicesOfNode4) {}).map fun d =>
      d.served.map fun q => (q.2.info.blockKey, q.1.blockKey)) =
      some [("0_D01", "1_D00"), ("1_D00", "0_D01")] ∧
    ¬PlansServed (atOnce PlanConnection.plan connectionsOfCluster1) ∧
    ¬SlicesServed (atOnce SliceConnection.info slicesOfNode4) := by
  have hproxy : ((run proxyPort (atOnce PlanConnection.plan connectionsOfCluster1) {}).map fun p =>
      p.served.all fun q => q.1.cut = q.2.plan.cut) = some false := by decide +kernel
  have hnode : ((run datanodePort (atOnce SliceConnection.info slicesOfNode4) {}).map fun d =>
      d.served.all fun q => q.1.blockKey = q.2.info.blockKey) = some false := by decide +kernel
  refine ⟨by decide +kernel, by decide +kernel, fun h => ?_, fun h => ?_⟩
  · obtain ⟨p, hp, hall⟩ := Option.map_eq_some_iff.mp hproxy
    rw [List.all_eq_false] at hall
    obtain ⟨q, hq, hne⟩ := hall
    exact hne (decide_eq_true (h _ (Rescheduled.refl _) p hp q hq).1)
  · obtain ⟨d, hd, hall⟩ := Option.map_eq_some_iff.mp hnode
    rw [List.all_eq_false] at hall
    obtain ⟨q, hq, hne⟩ := hall
    exact hne (decide_eq_true (h _ (Rescheduled.refl _) d hd q hq))

end Mlrc
