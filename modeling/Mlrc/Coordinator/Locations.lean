import Mlrc.Coordinator.Recovery

/-!
# Recorded locations

A set records every block where it is stored.  A recovery rebuilds a block on another node, and no
table learns of it.

* `LocationsCorrect`   the tables say where the blocks are;
* `Moved`   a block is on a node that has no entry for its stripe;
* `locations_correct_iff`   the tables are right exactly after runs that recover no block.
-/

namespace Mlrc

open List Option Function

/-- the tables agree with the nodes that hold the blocks -/
structure LocationsCorrect (sys : System) : Prop where
  /-- `map2node` is the node with the valid copy -/
  located : ∀ stripeId stripe, sys.coord.stripeTable stripeId = some stripe →
    ∀ b ∈ stripe.blocks, sys.holder stripeId b.blockId = some b.map2node
  /-- no node has two blocks of a stripe -/
  distinct : ∀ stripeId i j node, sys.holder stripeId i = some node →
    sys.holder stripeId j = some node → i = j
  /-- the stripe map of a node lists the blocks on it -/
  listed : ∀ node stripeId index, (sys.coord.nodeTable node).stripes stripeId = some index ↔
    ∃ i : ℕ, index = i ∧ sys.holder stripeId i = some node

/-- a block is on a node that has no entry for its stripe -/
def Moved (sys : System) : Prop :=
  ∃ stripeId i node, sys.coord.stripeTable stripeId ≠ none ∧ sys.holder stripeId i = some node ∧
    (sys.coord.nodeTable node).stripes stripeId = none

def RecoversNothing : StorageEvent → System → Prop
  | .set .., _ => True
  | .recoveryOneBlock .., _ => False
  | .fullNodeRecovery node _, sys => blocksOnNode sys.coord node = []

instance : ∀ (e : StorageEvent) (sys : System), Decidable (RecoversNothing e sys)
  | .set .., _ => isTrue trivial
  | .recoveryOneBlock .., _ => isFalse id
  | .fullNodeRecovery node _, sys => inferInstanceAs (Decidable (blocksOnNode sys.coord node = []))

section
variable {cfg : SysConfig} {topo : Topology} {sys sys' : System}

theorem Moved.not_correct (h : Moved sys) : ¬LocationsCorrect sys := by
  intro hcorrect
  obtain ⟨stripeId, i, node, -, hheld, hnone⟩ := h
  have hentry := (hcorrect.listed node stripeId i).mpr ⟨i, rfl, hheld⟩
  rw [hnone] at hentry
  cases hentry

/-! ## Recoveries -/

theorem moveBlock_self (holder : ℕ → ℕ → Option ℕ) (stripeId : ℕ) (recovery : RecoveryRequest) :
    moveBlock holder stripeId recovery stripeId recovery.failedBlockId =
      some recovery.replacedNode := by
  unfold moveBlock
  rw [update_self, update_self]

theorem Rebuilt.moved {recoveries : List (ℕ × RecoveryRequest)} (h : Rebuilt recoveries sys sys')
    (hne : recoveries ≠ []) : Moved sys' := by
  rcases eq_nil_or_concat' recoveries with hnil | ⟨before, last, hlast⟩
  · exact absurd hnil hne
  -- the last recovery is not overwritten
  subst hlast
  obtain ⟨hstripe, hfree⟩ := h.free last (mem_append_right _ mem_cons_self)
  refine ⟨last.1, last.2.failedBlockId, last.2.replacedNode, ?_, ?_, ?_⟩
  · rwa [h.coord]
  · rw [h.holder, foldl_append, foldl_cons, foldl_nil, moveBlock_self]
  · rwa [h.coord]

theorem Rebuilt.eq_of_nil (h : Rebuilt [] sys sys') : sys' = sys :=
  System.ext h.coord h.holder

theorem Rebuilt.moved_or_eq {recoveries : List (ℕ × RecoveryRequest)}
    (h : Rebuilt recoveries sys sys') : Moved sys' ∨ sys' = sys := by
  by_cases hnil : recoveries = []
  · subst hnil
    exact .inr h.eq_of_nil
  · exact .inl (h.moved hnil)

/-! ## Sets -/

section
variable {clientId : String} {group : ℕ → ℤ} {bs : List Block} {t : Coordinator} {stripe : Stripe}

section
variable (h : NewStripe cfg topo clientId group bs t stripe sys sys')
include h

theorem NewStripe.holder_self (i : ℕ) :
    sys'.holder sys.coord.curStripeId i = (stripe.blocks[i]?).map Block.map2node := by
  have hid : stripe.stripeId = sys.coord.curStripeId := by rw [h.placed.stripe_eq]; rfl
  rw [h.holder, storeStripe, hid, update_self]

theorem NewStripe.holder_of_ne {stripeId : ℕ} (hne : stripeId ≠ sys.coord.curStripeId) :
    sys'.holder stripeId = sys.holder stripeId := by
  have hid : stripe.stripeId = sys.coord.curStripeId := by rw [h.placed.stripe_eq]; rfl
  rw [h.holder, storeStripe, hid, update_of_ne hne]

theorem NewStripe.held_iff {i node : ℕ} : sys'.holder sys.coord.curStripeId i = some node ↔
      ∃ b ∈ bs, b.blockId = i ∧ b.map2node = node := by
  rw [h.holder_self, map_eq_some_iff]
  constructor
  · rintro ⟨b, hb, hnode⟩
    have hlt : i < cfg.n := by
      rw [← h.placed.length_blocks]
      exact (List.getElem?_eq_some_iff.mp hb).1
    obtain ⟨a, ha, hget, hid⟩ := h.placed.exists_block hlt
    rw [hget, some.injEq] at hb
    exact ⟨a, ha, hid, by rw [hb]; exact hnode⟩
  · rintro ⟨b, hb, hid, hnode⟩
    obtain ⟨a, ha, hget, haid⟩ := h.placed.exists_block (h.placed.blockId_lt hb)
    rw [h.placed.eq_of_blockId ha hb haid, hid] at hget
    exact ⟨b, hget, hnode⟩

theorem NewStripe.moved (hrec : Recorded cfg topo sys.coord) (hmoved : Moved sys) : Moved sys' := by
  obtain ⟨stripeId, i, node, hstripe, hheld, hnone⟩ := hmoved
  have hne : stripeId ≠ sys.coord.curStripeId := ne_of_lt (hrec.bound stripeId hstripe)
  refine ⟨stripeId, i, node, ?_, ?_, ?_⟩
  · rwa [h.table, update_of_ne hne]
  · rwa [h.holder_of_ne hne]
  · rwa [h.entry_of_ne hne]

theorem NewStripe.correct (hrec : Recorded cfg topo sys.coord) (hcorrect : LocationsCorrect sys) :
    LocationsCorrect sys' := by
  refine ⟨fun stripeId stripe' hstripe b hb => ?_, fun stripeId i j node hi hj => ?_,
    fun node stripeId index => ?_⟩
  · rw [h.table] at hstripe
    by_cases heq : stripeId = sys.coord.curStripeId
    · subst heq
      rw [update_self, some.injEq] at hstripe
      subst hstripe
      exact h.held_iff.mpr ⟨b, h.placed.blocks_perm.mem_iff.mp hb, rfl, rfl⟩
    · rw [update_of_ne heq] at hstripe
      rw [h.holder_of_ne heq]
      exact hcorrect.located stripeId stripe' hstripe b hb
  · by_cases heq : stripeId = sys.coord.curStripeId
    · subst heq
      obtain ⟨a, ha, haid, hanode⟩ := h.held_iff.mp hi
      obtain ⟨b, hb, hbid, hbnode⟩ := h.held_iff.mp hj
      rw [← haid, ← hbid, h.placed.eq_of_node ha hb (hanode.trans hbnode.symm)]
    · rw [h.holder_of_ne heq] at hi hj
      exact hcorrect.distinct stripeId i j node hi hj
  · by_cases heq : stripeId = sys.coord.curStripeId
    · subst heq
      rw [h.node, h.placed.state]
      constructor
      · intro hentry
        -- the node had no entry before, so it got a block
        by_cases hmem : ∃ b ∈ bs, b.map2node = node
        · obtain ⟨b, hb, hnode⟩ := hmem
          have hset := Coordinator.recordAll_stripes
            (s := { sys.coord with curStripeId := sys.coord.curStripeId + 1 }) h.placed.nodup hb
          rw [h.placed.map2stripe_eq hb, hnode, hentry, some.injEq] at hset
          exact ⟨b.blockId, hset, h.held_iff.mpr ⟨b, hb, rfl, hnode⟩⟩
        · rw [Coordinator.recordAll_stripes_of_not fun b hb hn => absurd ⟨b, hb, hn⟩ hmem] at hentry
          have hfresh := hrec.fresh _ le_rfl node
          rw [hfresh] at hentry
          cases hentry
      · rintro ⟨i, rfl, hheld⟩
        obtain ⟨b, hb, hid, hnode⟩ := h.held_iff.mp hheld
        have hset := Coordinator.recordAll_stripes
          (s := { sys.coord with curStripeId := sys.coord.curStripeId + 1 }) h.placed.nodup hb
        rwa [h.placed.map2stripe_eq hb, hnode, hid] at hset
    · rw [h.entry_of_ne heq, h.holder_of_ne heq]
      exact hcorrect.listed node stripeId index

end

end

/-! ## Runs -/

theorem Moved.step {e : StorageEvent} (hrec : Recorded cfg topo sys.coord) (hmoved : Moved sys)
    (h : storageStep cfg topo e sys = some sys') : Moved sys' := by
  cases e with
  | set clientId sizeBytes draws ready =>
    obtain ⟨group, bs, t, stripe, hnew⟩ := storageStep_set h
    exact hnew.moved hrec hmoved
  | recoveryOneBlock stripeId failed draws =>
    obtain ⟨recovery, hreb⟩ := storageStep_recoveryOneBlock h
    exact hreb.moved (cons_ne_nil _ _)
  | fullNodeRecovery node draws =>
    obtain ⟨recoveries, hreb, -⟩ := storageStep_fullNodeRecovery h
    rcases hreb.moved_or_eq with hm | rfl
    · exact hm
    · exact hmoved

theorem moved_of_recovers {e : StorageEvent} (hbreak : ¬RecoversNothing e sys)
    (h : storageStep cfg topo e sys = some sys') : Moved sys' := by
  cases e with
  | set => exact absurd trivial hbreak
  | recoveryOneBlock stripeId failed draws =>
    obtain ⟨recovery, hreb⟩ := storageStep_recoveryOneBlock h
    exact hreb.moved (cons_ne_nil _ _)
  | fullNodeRecovery node draws =>
    obtain ⟨recoveries, hreb, hmap⟩ := storageStep_fullNodeRecovery h
    apply hreb.moved
    rintro rfl
    exact hbreak hmap.symm

theorem LocationsCorrect.step {e : StorageEvent} (hrec : Recorded cfg topo sys.coord)
    (hcorrect : LocationsCorrect sys) (hnothing : RecoversNothing e sys)
    (h : storageStep cfg topo e sys = some sys') : LocationsCorrect sys' := by
  cases e with
  | set clientId sizeBytes draws ready =>
    obtain ⟨group, bs, t, stripe, hnew⟩ := storageStep_set h
    exact hnew.correct hrec hcorrect
  | recoveryOneBlock => exact absurd hnothing id
  | fullNodeRecovery node draws =>
    obtain ⟨recoveries, hreb, hmap⟩ := storageStep_fullNodeRecovery h
    rw [show blocksOnNode sys.coord node = [] from hnothing, map_eq_nil_iff] at hmap
    subst hmap
    rwa [hreb.eq_of_nil]

theorem LocationsCorrect.init : LocationsCorrect {} where
  located _ _ h := nomatch h
  distinct _ _ _ _ h := nomatch h
  listed node stripeId index := by
    constructor
    · intro h
      cases h
    · rintro ⟨i, -, h⟩
      cases h

end

/-- **Main result.**  After a run of sets and recoveries the tables say where the blocks are exactly
when no step of the run has recovered a block. -/
theorem locations_correct_iff (cfg : SysConfig) (topo : Topology) (es : List StorageEvent)
    (sys : System) (h : run (storageStep cfg topo) es {} = some sys) :
    LocationsCorrect sys ↔ Along (storageStep cfg topo) RecoversNothing es {} := by
  constructor
  · intro hcorrect
    by_contra hnot
    refine Moved.not_correct ?_ hcorrect
    exact run_not_along (I := fun sys => Recorded cfg topo sys.coord)
      (fun _ _ _ hrec hs => hrec.step hs) (fun _ _ _ _ hbreak hs => moved_of_recovers hbreak hs)
      (fun _ _ _ hrec hm hs => hm.step hrec hs) Recorded.init hnot h
  · intro halong
    have hboth : Recorded cfg topo sys.coord ∧ LocationsCorrect sys :=
      run_along (I := fun sys => Recorded cfg topo sys.coord ∧ LocationsCorrect sys)
        (fun _ _ _ hI hP hs => ⟨hI.1.step hs, hI.2.step hI.1 hP hs⟩)
        ⟨Recorded.init, LocationsCorrect.init⟩ halong h
    exact hboth.2

/-- a set, and the full recovery of a node of the unused cluster -/
def setThenEmptyNode : List StorageEvent :=
  [.set "c" 4 [0, 0, 1, 1, 2, 2] fun _ => true, .fullNodeRecovery 11 []]

theorem locations_correct_after_set :
    ∃ sys, run (storageStep unilrcConfig clustersOfFour) setThenEmptyNode {} = some sys ∧
      LocationsCorrect sys := by
  have hrun : (run (storageStep unilrcConfig clustersOfFour) setThenEmptyNode {}).isSome = true := by
    decide +kernel
  obtain ⟨sys, hsys⟩ := isSome_iff_exists.mp hrun
  exact ⟨sys, hsys, (locations_correct_iff _ _ _ _ hsys).mpr (by decide +kernel)⟩

def setThenRecoveries : List StorageEvent :=
  [.set "c" 4 [0, 0, 1, 1, 2, 2] fun _ => true, .recoveryOneBlock 0 0 [3], .recoveryOneBlock 0 2 [3]]

/-- blocks 0 and 2 are both rebuilt on node 3, and are still recorded on the nodes 0 and 1 -/
theorem locations_wrong_after_recovery :
    validateConfig unilrcConfig = true ∧
    (run (storageStep unilrcConfig clustersOfFour) setThenRecoveries {}).map (fun sys =>
        ((sys.coord.stripeTable 0).map fun stripe => stripe.blocks.map Block.map2node,
          (sys.coord.nodeTable 3).stripes 0, sys.holder 0 0, sys.holder 0 2)) =
      some (some [0, 4, 1, 5, 2, 6], none, some 3, some 3) ∧
    ∀ sys, run (storageStep unilrcConfig clustersOfFour) setThenRecoveries {} = some sys →
      ¬LocationsCorrect sys := by
  refine ⟨by decide, (and_iff_left_of_imp fun hrun sys hsys hcorrect => ?_).mpr (by decide +kernel)⟩
  rw [hsys, map_some, some.injEq] at hrun
  simp only [Prod.mk.injEq] at hrun
  have hsame := hcorrect.distinct 0 0 2 3 hrun.2.2.1 hrun.2.2.2
  cases hsame

end Mlrc
