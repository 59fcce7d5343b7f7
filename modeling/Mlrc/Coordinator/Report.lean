import Mlrc.Coordinator.Upload

/-!
# Reports of the proxies

A proxy reports the end of an upload or of a deletion with `reportCommitAbort`; clients wait for it
in `checkCommitAbort`.  An upload commits each plan under the key of the plan, and the blocks of a key
are those of its plan; a deletion looks for blocks by their `map2key`, which is the client.

* `reportCommitAbort`, `checkCommitAbort`   the commit, updating and deleting tables;
* `deleteStripe`, `deleteKey`   what a deletion does to the tables;
* `Deleted`   what it should do;
* `deletion_complete_iff`   when it does.
-/

namespace Mlrc

open List Option Function

inductive OpperateType where
  | SET
  | GET
  | DEL
  | REPAIR
  | MERGE
  | APPEND
deriving DecidableEq, Repr

/-! ## Deleting -/

/-- the blocks with `p` in the lists of the clusters -/
def clusterBlocks (clusterNum : ℕ) (s : Coordinator) (p : Block → Bool) : List Block :=
  (range clusterNum).flatMap fun c => (s.clusterTable c).blocks.filter p

/-- every cluster without its blocks with `p`; the stripe sets stay -/
def eraseBlocks (s : Coordinator) (p : Block → Bool) : ℕ → Cluster := fun c =>
  { s.clusterTable c with blocks := (s.clusterTable c).blocks.filter fun b => !p b }

/-- `update_stripe_info_in_node(add_or_sub, ..)`, which takes the entry for a number of blocks -/
def countBlock (addOrSub : Bool) (entry : Option ℤ) : Option ℤ :=
  let stripeBlockNum := entry.getD 1
  if addOrSub then some (stripeBlockNum + 1)
  else if stripeBlockNum = 1 then none else some (stripeBlockNum - 1)

def updateBlockNumInNode (addOrSub : Bool) (nodeTable : ℕ → Node) (node stripeId : ℕ) : ℕ → Node :=
  update nodeTable node
    { stripes := update (nodeTable node).stripes stripeId
        (countBlock addOrSub ((nodeTable node).stripes stripeId)) }

/-- a stripe without its blocks with `p`; an empty one leaves the stripe table -/
def Stripe.drop (p : Block → Bool) (stripe : Stripe) : Option Stripe :=
  let blocks := stripe.blocks.filter fun b => !p b
  if blocks = [] then none else some { stripe with blocks := blocks }

/-- the report of a deleted key; for a key that is not committed `at` throws before anything changes -/
def deleteKey (clusterNum : ℕ) (s : Coordinator) (key : String) : Coordinator :=
  match s.objectCommitTable key with
  | none => s
  | some objectInfo =>
    let stripeId := objectInfo.map2stripe
    let removed := clusterBlocks clusterNum s fun b => b.map2key = key
    { s with
      objectCommitTable := update s.objectCommitTable key none
      objectUpdatingTable := update s.objectUpdatingTable key none
      stripeTable := update s.stripeTable stripeId
        ((s.stripeTable stripeId).bind (Stripe.drop fun b => b.map2key = key))
      nodeTable := removed.foldl (fun nodes b =>
        updateBlockNumInNode false nodes b.map2node b.map2stripe) s.nodeTable
      clusterTable := eraseBlocks s fun b => b.map2key = key }

/-- the report of a deleted stripe: the commit entries under the keys of its blocks go, too -/
def deleteStripe (clusterNum : ℕ) (s : Coordinator) (stripeId : ℕ) : Coordinator :=
  let keys := (clusterBlocks clusterNum s fun b => b.map2stripe = stripeId).map Block.map2key
  { s with
    stripeDeletingTable := s.stripeDeletingTable.erase stripeId
    stripeTable := update s.stripeTable stripeId none
    clusterTable := eraseBlocks s fun b => b.map2stripe = stripeId
    nodeTable := fun node => { stripes := update (s.nodeTable node).stripes stripeId none }
    objectCommitTable := fun key => if key ∈ keys then none else s.objectCommitTable key }

/-! ## Reports and questions -/

/-- `reportCommitAbort`; committing a key that is not pending enters a default object -/
def reportCommitAbort (clusterNum : ℕ) (s : Coordinator) (key : String) (opp : OpperateType)
    (stripeId : ℤ) (ifCommitMetadata : Bool) : Coordinator :=
  if ifCommitMetadata then
    match opp with
    | .SET | .APPEND =>
      { s with
        objectCommitTable := update s.objectCommitTable key
          (some ((s.objectUpdatingTable key).getD {}))
        objectUpdatingTable := update s.objectUpdatingTable key none }
    | .DEL =>
      if stripeId < 0 then deleteKey clusterNum s key else deleteStripe clusterNum s stripeId.toNat
    | _ => s
  else { s with objectUpdatingTable := update s.objectUpdatingTable key none }

/-- `checkCommitAbort`; `none` while it waits -/
def checkCommitAbort (s : Coordinator) (key : String) (opp : OpperateType) (stripeId : ℤ) :
    Option Bool :=
  let waits : Bool := match opp with
    | .SET | .APPEND => (s.objectUpdatingTable key).isSome
    | .DEL => if stripeId < 0 then (s.objectCommitTable key).isSome
      else decide (stripeId.toNat ∈ s.stripeDeletingTable)
    | _ => false
  if waits then none else some (s.objectCommitTable key).isSome

/-- `NodeAndBlock`: the blocks to delete, with their nodes -/
structure DeleteRequest where
  stripeId : ℤ
  key : String
  blocks : List (ℕ × String)
deriving DecidableEq, Repr

/-- the request for the blocks with `p` of a stripe; `none` when there is no cluster to send it to -/
def deleteRequest (s : Coordinator) (tableId : ℕ) (stripeId : ℤ) (key : String) (p : Block → Bool) :
    Option DeleteRequest := do
  let stripe ← s.stripeTable tableId
  let blocks := stripe.blocks.filter p
  if blocks = [] then none
  else some {
    stripeId := stripeId
    key := key
    blocks := blocks.map fun b => (b.map2node, b.blockKey) }

def delByKey (s : Coordinator) (key : String) : Option (Coordinator × DeleteRequest) := do
  let objectInfo ← s.objectCommitTable key
  let request ← deleteRequest s objectInfo.map2stripe (-1) key fun b => b.map2key = key
  some ({ s with objectUpdatingTable := update s.objectUpdatingTable key (some objectInfo) },
    request)

def delByStripe (s : Coordinator) (stripeId : ℕ) : Option (Coordinator × DeleteRequest) := do
  let request ← deleteRequest s stripeId stripeId "" fun b => b.map2stripe = stripeId
  some ({ s with stripeDeletingTable := s.stripeDeletingTable ++ [stripeId] }, request)

/-! ## What a deletion should do -/

inductive Deletion where
  | stripe (stripeId : ℕ)
  | key (name : String)
deriving DecidableEq, Repr

/-- the report with which a proxy ends a deletion -/
def Deletion.report (clusterNum : ℕ) (s : Coordinator) : Deletion → Coordinator
  | .stripe stripeId => reportCommitAbort clusterNum s "" .DEL stripeId true
  | .key name => reportCommitAbort clusterNum s name .DEL (-1) true

def Deletion.Possible (s : Coordinator) : Deletion → Prop
  | .stripe _ => True
  | .key name => s.objectCommitTable name ≠ none

instance (s : Coordinator) : ∀ d : Deletion, Decidable (d.Possible s)
  | .stripe _ => isTrue trivial
  | .key name => inferInstanceAs (Decidable (s.objectCommitTable name ≠ none))

/-- no table refers to the stripe, and nothing else has changed -/
structure StripeDeleted (s s' : Coordinator) (stripeId : ℕ) : Prop where
  stripe : s'.stripeTable = update s.stripeTable stripeId none
  blocks : ∀ c, (s'.clusterTable c).blocks =
    (s.clusterTable c).blocks.filter fun b => b.map2stripe ≠ stripeId
  stripes : ∀ c, (s'.clusterTable c).stripes = (s.clusterTable c).stripes.erase stripeId
  node : ∀ node, (s'.nodeTable node).stripes =
    update (s.nodeTable node).stripes stripeId none
  commit : ∀ key, s'.objectCommitTable key =
    (s.objectCommitTable key).filter fun info => info.map2stripe ≠ stripeId
  updating : ∀ key, s'.objectUpdatingTable key =
    (s.objectUpdatingTable key).filter fun info => info.map2stripe ≠ stripeId

/-- the key of the plan with which the block was uploaded -/
def Block.planKey (b : Block) : String := genAppendKey b.map2stripe b.map2group.toNat

/-- the blocks of a key that a cluster or a stripe lists -/
def KeyBlock (clusterNum : ℕ) (s : Coordinator) (key : String) (b : Block) : Prop :=
  b.planKey = key ∧ (b ∈ clusterBlocks clusterNum s (fun b => b.planKey = key) ∨
    ∃ stripeId stripe, s.stripeTable stripeId = some stripe ∧ b ∈ stripe.blocks)

/-- a cluster has blocks of the stripe, and all of them are of the key -/
def OnlyOfKey (cluster : Cluster) (key : String) (stripeId : ℕ) : Prop :=
  (∃ b ∈ cluster.blocks, b.map2stripe = stripeId) ∧
    ∀ b ∈ cluster.blocks, b.map2stripe = stripeId → b.planKey = key

/-- no table refers to the blocks of the key, and nothing else has changed -/
structure KeyDeleted (clusterNum : ℕ) (s s' : Coordinator) (key : String) : Prop where
  commit : s'.objectCommitTable = update s.objectCommitTable key none
  updating : s'.objectUpdatingTable = update s.objectUpdatingTable key none
  stripe : ∀ stripeId stripe, s.stripeTable stripeId = some stripe → s'.stripeTable stripeId =
    if ∃ b ∈ stripe.blocks, b.planKey = key then stripe.drop fun b => b.planKey = key else some stripe
  no_stripe : ∀ stripeId, s.stripeTable stripeId = none → s'.stripeTable stripeId = none
  blocks : ∀ c, (s'.clusterTable c).blocks =
    (s.clusterTable c).blocks.filter fun b => b.planKey ≠ key
  stripes : ∀ c stripeId, stripeId ∈ (s'.clusterTable c).stripes ↔
    stripeId ∈ (s.clusterTable c).stripes ∧ ¬OnlyOfKey (s.clusterTable c) key stripeId
  node : ∀ b, KeyBlock clusterNum s key b → (s'.nodeTable b.map2node).stripes b.map2stripe = none
  other_node : ∀ node stripeId,
    (∀ b, KeyBlock clusterNum s key b → ¬(b.map2node = node ∧ b.map2stripe = stripeId)) →
    (s'.nodeTable node).stripes stripeId = (s.nodeTable node).stripes stripeId

def Deleted (clusterNum : ℕ) (s s' : Coordinator) : Deletion → Prop
  | .stripe stripeId => StripeDeleted s s' stripeId
  | .key name => KeyDeleted clusterNum s s' name

/-! ## When it does -/

/-- no cluster has the stripe in its stripe set, no upload to it is pending, and the committed keys
of the stripe are the keys of its blocks -/
structure StripeDeletable (clusterNum : ℕ) (s : Coordinator) (stripeId : ℕ) : Prop where
  stripes : ∀ c, stripeId ∉ (s.clusterTable c).stripes
  updating : ∀ key info, s.objectUpdatingTable key = some info → info.map2stripe ≠ stripeId
  commit : ∀ key info, s.objectCommitTable key = some info →
    (info.map2stripe = stripeId ↔
      ∃ b ∈ clusterBlocks clusterNum s (fun b => b.map2stripe = stripeId), b.map2key = key)

/-- the blocks of the key that the clusters list on a node, for a stripe -/
def keyBlocksOn (clusterNum : ℕ) (s : Coordinator) (key : String) (node stripeId : ℕ) : ℕ :=
  (clusterBlocks clusterNum s fun b => b.planKey = key).countP
    fun b => b.map2node = node ∧ b.map2stripe = stripeId

/-- the client of the blocks of the key, and of no others, has the key for its id -/
def NamedLikeKey (key : String) (blocks : List Block) : Prop :=
  ∀ b ∈ blocks, b.map2key = key ↔ b.planKey = key

/-- clients are named like the keys of their blocks, the blocks of the key are in the stripe of its commit
entry, the clusters with blocks of the key keep other blocks of that stripe or do not have it in their
stripe set, and the entries of the nodes are numbers of blocks of the key -/
structure KeyDeletable (clusterNum : ℕ) (s : Coordinator) (key : String) (info : ObjectInfo) :
    Prop where
  listed : ∀ c, NamedLikeKey key (s.clusterTable c).blocks
  own : ∀ stripe, s.stripeTable info.map2stripe = some stripe →
    stripe.blocks ≠ [] ∧ NamedLikeKey key stripe.blocks
  others : ∀ stripeId stripe, s.stripeTable stripeId = some stripe → stripeId ≠ info.map2stripe →
    ∀ b ∈ stripe.blocks, b.planKey ≠ key
  stripes : ∀ c, ∀ stripeId ∈ (s.clusterTable c).stripes, ¬OnlyOfKey (s.clusterTable c) key stripeId
  node : ∀ b, KeyBlock clusterNum s key b → ∀ index,
    (s.nodeTable b.map2node).stripes b.map2stripe = some index →
      1 ≤ index ∧ index ≤ keyBlocksOn clusterNum s key b.map2node b.map2stripe

def Deletable (clusterNum : ℕ) (s : Coordinator) : Deletion → Prop
  | .stripe stripeId => StripeDeletable clusterNum s stripeId
  | .key name => ∀ info, s.objectCommitTable name = some info → KeyDeletable clusterNum s name info

section
variable {clusterNum : ℕ} {s : Coordinator}

theorem iterate_countBlock_none (m : ℕ) : (countBlock false)^[m] none = none := by
  induction m with
  | zero => rfl
  | succ m ih => exact ih

theorem iterate_countBlock_eq_none (m : ℕ) (v : ℤ) :
    (countBlock false)^[m] (some v) = none ↔ 1 ≤ v ∧ v ≤ m := by
  induction m generalizing v with
  | zero =>
    rw [iterate_zero, id]
    constructor
    · intro h
      cases h
    · intro h
      omega
  | succ m ih =>
    rw [iterate_succ_apply]
    by_cases hv : v = 1
    · subst hv
      have hone : countBlock false (some 1) = none := rfl
      rw [hone, iterate_countBlock_none]
      constructor
      · intro _
        omega
      · intro _
        rfl
    · have hstep : countBlock false (some v) = some (v - 1) := by
        unfold countBlock
        simp [hv]
      rw [hstep, ih]
      omega

theorem updateBlockNumInNode_stripes (nodes : ℕ → Node) (b : Block) (node stripeId : ℕ) :
    (updateBlockNumInNode false nodes b.map2node b.map2stripe node).stripes stripeId =
      if b.map2node = node ∧ b.map2stripe = stripeId then
        countBlock false ((nodes node).stripes stripeId) else (nodes node).stripes stripeId := by
  unfold updateBlockNumInNode
  by_cases hn : b.map2node = node
  · subst hn
    rw [update_self]
    show update _ _ _ _ = _
    by_cases hs : b.map2stripe = stripeId
    · subst hs
      rw [update_self, if_pos ⟨rfl, rfl⟩]
    · rw [update_of_ne (Ne.symm hs), if_neg fun h => hs h.2]
  · rw [update_of_ne (Ne.symm hn), if_neg fun h => hn h.1]

theorem foldl_updateBlockNumInNode (removed : List Block) (nodes : ℕ → Node) (node stripeId : ℕ) :
    ((removed.foldl (fun nodes b => updateBlockNumInNode false nodes b.map2node b.map2stripe)
        nodes) node).stripes stripeId =
      (countBlock false)^[removed.countP fun b => b.map2node = node ∧ b.map2stripe = stripeId]
        ((nodes node).stripes stripeId) := by
  induction removed generalizing nodes with
  | nil => rfl
  | cons b removed ih =>
    rw [foldl_cons, ih, countP_cons, updateBlockNumInNode_stripes]
    by_cases h : b.map2node = node ∧ b.map2stripe = stripeId
    · rw [if_pos h, if_pos (decide_eq_true h), iterate_succ_apply]
    · rw [if_neg h, if_neg (by simpa using h), add_zero]

/-! ## Stripes -/

theorem stripe_deleted_iff (clusterNum : ℕ) (s : Coordinator) (stripeId : ℕ) :
    StripeDeleted s (deleteStripe clusterNum s stripeId) stripeId ↔
      StripeDeletable clusterNum s stripeId := by
  constructor
  · intro h
    refine ⟨fun c hmem => ?_, fun key info hup heq => ?_, fun key info hcom => ?_⟩
    · have hstripes : (s.clusterTable c).stripes = _ := h.stripes c
      rw [hstripes] at hmem
      exact Finset.notMem_erase stripeId _ hmem
    · have hupd : s.objectUpdatingTable key = _ := h.updating key
      rw [hup, filter_some] at hupd
      simp [heq] at hupd
    · have hcommit := h.commit key
      rw [hcom, filter_some] at hcommit
      unfold deleteStripe at hcommit
      simp only [List.mem_map] at hcommit
      rw [hcom] at hcommit
      by_cases hkey : ∃ b ∈ clusterBlocks clusterNum s (fun b => b.map2stripe = stripeId),
          b.map2key = key
      · rw [if_pos hkey] at hcommit
        by_cases hid : info.map2stripe = stripeId
        · exact iff_of_true hid hkey
        · simp [hid] at hcommit
      · rw [if_neg hkey] at hcommit
        by_cases hid : info.map2stripe = stripeId
        · simp [hid] at hcommit
        · exact iff_of_false hid hkey
  · intro h
    refine ⟨rfl, fun c => ?_, fun c => ?_, fun node => rfl, fun key => ?_, fun key => ?_⟩
    · show (s.clusterTable c).blocks.filter _ = _
      simp
    · exact (Finset.erase_eq_of_notMem (h.stripes c)).symm
    · show (if key ∈ List.map _ _ then none else _) = _
      cases hcom : s.objectCommitTable key with
      | none => simp
      | some info =>
        have hiff := h.commit key info hcom
        rw [← List.mem_map] at hiff
        rw [filter_some]
        by_cases hid : info.map2stripe = stripeId
        · rw [if_pos (hiff.mp hid)]
          simp [hid]
        · rw [if_neg fun hkey => hid (hiff.mpr hkey)]
          simp [hid]
    · show s.objectUpdatingTable key = _
      cases hup : s.objectUpdatingTable key with
      | none => rfl
      | some info =>
        have hne := h.updating key info hup
        rw [filter_some]
        simp [hne]

/-! ## Keys -/

variable {key : String} {info : ObjectInfo}

theorem namedLikeKey_iff {blocks : List Block} : NamedLikeKey key blocks ↔
    (blocks.filter fun b => !decide (b.map2key = key)) = blocks.filter fun b => !decide (b.planKey = key) := by
  constructor
  · intro h
    exact filter_congr fun b hb => by rw [decide_eq_decide.mpr (h b hb)]
  · intro h b hb
    have hmem := congrArg (b ∈ ·) h
    simp only [mem_filter, hb, true_and, Bool.not_eq_true', decide_eq_false_iff_not, eq_iff_iff] at hmem
    exact not_iff_not.mp hmem

theorem Stripe.drop_of_not {p : Block → Bool} {stripe : Stripe} (hnot : ∀ b ∈ stripe.blocks, p b = false)
    (hne : stripe.blocks ≠ []) : stripe.drop p = some stripe := by
  have hall : stripe.blocks.filter (fun b => !p b) = stripe.blocks :=
    filter_eq_self.mpr fun b hb => by rw [hnot b hb]; rfl
  unfold Stripe.drop
  simp only
  rw [hall, if_neg hne]

theorem Stripe.filter_of_drop {p : Block → Bool} {stripe t : Stripe} (h : stripe.drop p = some t) :
    stripe.blocks.filter (fun b => !p b) = t.blocks ∧ t.blocks ≠ [] := by
  unfold Stripe.drop at h
  simp only [ite_none_left_eq_some, some.injEq] at h
  rw [← h.2]
  exact ⟨rfl, h.1⟩

theorem Stripe.filter_of_drop_none {p : Block → Bool} {stripe : Stripe} (h : stripe.drop p = none) :
    stripe.blocks.filter (fun b => !p b) = [] := by
  unfold Stripe.drop at h
  simp only [ite_eq_left_iff, reduceCtorEq, imp_false, not_not] at h
  exact h

section
variable (hcom : s.objectCommitTable key = some info)
include hcom

theorem deleteKey_eq : deleteKey clusterNum s key = { s with
      objectCommitTable := update s.objectCommitTable key none
      objectUpdatingTable := update s.objectUpdatingTable key none
      stripeTable := update s.stripeTable info.map2stripe
        ((s.stripeTable info.map2stripe).bind (Stripe.drop fun b => b.map2key = key))
      nodeTable := (clusterBlocks clusterNum s fun b => b.map2key = key).foldl (fun nodes b =>
        updateBlockNumInNode false nodes b.map2node b.map2stripe) s.nodeTable
      clusterTable := eraseBlocks s fun b => b.map2key = key } := by
  unfold deleteKey
  rw [hcom]

theorem deleteKey_entry (hnamed : ∀ c, NamedLikeKey key (s.clusterTable c).blocks) (node stripeId : ℕ) :
    ((deleteKey clusterNum s key).nodeTable node).stripes stripeId =
      (countBlock false)^[keyBlocksOn clusterNum s key node stripeId]
        ((s.nodeTable node).stripes stripeId) := by
  have hsame : (clusterBlocks clusterNum s fun b => b.map2key = key) =
      clusterBlocks clusterNum s fun b => b.planKey = key :=
    flatMap_congr fun c _ => filter_congr fun b hb => decide_eq_decide.mpr (hnamed c b hb)
  rw [deleteKey_eq hcom, keyBlocksOn, ← hsame]
  exact foldl_updateBlockNumInNode _ _ _ _

theorem KeyDeleted.own (h : KeyDeleted clusterNum s (deleteKey clusterNum s key) key) {stripe : Stripe}
    (hstripe : s.stripeTable info.map2stripe = some stripe) :
    stripe.blocks ≠ [] ∧ NamedLikeKey key stripe.blocks := by
  have hdrop := h.stripe _ stripe hstripe
  rw [deleteKey_eq hcom] at hdrop
  simp only [update_self, hstripe, bind_some] at hdrop
  rw [namedLikeKey_iff]
  split at hdrop
  · -- the blocks of the key are dropped, and only these
    rename_i hkey
    obtain ⟨b, hb, -⟩ := hkey
    refine ⟨ne_nil_of_mem hb, ?_⟩
    cases hplan : stripe.drop fun b => b.planKey = key with
    | none =>
      rw [hplan] at hdrop
      rw [Stripe.filter_of_drop_none hdrop, Stripe.filter_of_drop_none hplan]
    | some t =>
      rw [hplan] at hdrop
      rw [(Stripe.filter_of_drop hdrop).1, (Stripe.filter_of_drop hplan).1]
  · rename_i hkey
    obtain ⟨hfilter, hne⟩ := Stripe.filter_of_drop hdrop
    refine ⟨hne, hfilter.trans (filter_eq_self.mpr fun b hb => ?_).symm⟩
    rw [decide_eq_false fun h => hkey ⟨b, hb, h⟩]
    rfl

theorem KeyDeletable.of_deleted (h : KeyDeleted clusterNum s (deleteKey clusterNum s key) key) :
    KeyDeletable clusterNum s key info := by
  have hlisted : ∀ c, NamedLikeKey key (s.clusterTable c).blocks := by
    intro c
    have hblocks := h.blocks c
    rw [deleteKey_eq hcom] at hblocks
    simp only [decide_not] at hblocks
    exact namedLikeKey_iff.mpr hblocks
  refine ⟨hlisted, fun stripe => h.own hcom, fun stripeId stripe hstripe hne b hb hkey => ?_,
    fun c stripeId hmem => ?_, fun b hb index hentry => ?_⟩
  · have hdrop := h.stripe stripeId stripe hstripe
    rw [if_pos ⟨b, hb, hkey⟩, deleteKey_eq hcom] at hdrop
    simp only [update_of_ne hne, hstripe] at hdrop
    have hfilter := (Stripe.filter_of_drop hdrop.symm).1
    rw [← hfilter, mem_filter, hkey] at hb
    simp at hb
  · have hsame : ((deleteKey clusterNum s key).clusterTable c).stripes =
        (s.clusterTable c).stripes := by
      rw [deleteKey_eq hcom]
      rfl
    rw [← hsame, h.stripes] at hmem
    exact hmem.2
  · have hnone := h.node b hb
    rw [deleteKey_entry hcom hlisted, hentry, iterate_countBlock_eq_none] at hnone
    exact hnone

theorem KeyDeletable.deleted (h : KeyDeletable clusterNum s key info) :
    KeyDeleted clusterNum s (deleteKey clusterNum s key) key where
  commit := by rw [deleteKey_eq hcom]
  updating := by rw [deleteKey_eq hcom]
  stripe stripeId stripe hstripe := by
    rw [deleteKey_eq hcom]
    show update _ _ _ _ = _
    by_cases heq : stripeId = info.map2stripe
    · subst heq
      obtain ⟨hne, hnamed⟩ := h.own stripe hstripe
      rw [update_self, hstripe, bind_some]
      split
      · unfold Stripe.drop
        simp only
        rw [namedLikeKey_iff.mp hnamed]
      · rename_i hnot
        refine Stripe.drop_of_not (fun b hb => decide_eq_false fun hkey => ?_) hne
        exact hnot ⟨b, hb, (hnamed b hb).mp hkey⟩
    · rw [update_of_ne heq, hstripe, if_neg]
      rintro ⟨b, hb, hkey⟩
      exact h.others stripeId stripe hstripe heq b hb hkey
  no_stripe stripeId hnone := by
    rw [deleteKey_eq hcom]
    show update _ _ _ _ = _
    by_cases heq : stripeId = info.map2stripe
    · subst heq
      rw [update_self, hnone, bind_none]
    · rw [update_of_ne heq, hnone]
  blocks c := by
    rw [deleteKey_eq hcom]
    simp only [decide_not]
    exact namedLikeKey_iff.mp (h.listed c)
  stripes c stripeId := by
    rw [deleteKey_eq hcom]
    exact ⟨fun hmem => ⟨hmem, h.stripes c stripeId hmem⟩, fun hmem => hmem.1⟩
  node b hb := by
    rw [deleteKey_entry hcom h.listed]
    cases hentry : (s.nodeTable b.map2node).stripes b.map2stripe with
    | none => exact iterate_countBlock_none _
    | some index => exact (iterate_countBlock_eq_none _ _).mpr (h.node b hb index hentry)
  other_node node stripeId hnot := by
    rw [deleteKey_entry hcom h.listed]
    have hzero : keyBlocksOn clusterNum s key node stripeId = 0 := by
      apply countP_eq_zero.mpr
      intro b hb
      have hkey : b.planKey = key := by
        obtain ⟨c, -, hc⟩ := mem_flatMap.mp hb
        exact of_decide_eq_true (mem_filter.mp hc).2
      rw [decide_eq_true_eq]
      exact hnot b ⟨hkey, .inl hb⟩
    rw [hzero, iterate_zero, id]

end

end

/-- **Main result.**  The report of a deletion leaves no trace and changes nothing else exactly when
`Deletable`. -/
theorem deletion_complete_iff (clusterNum : ℕ) (s : Coordinator) (d : Deletion)
    (hd : d.Possible s) : Deleted clusterNum s (d.report clusterNum s) d ↔ Deletable clusterNum s d := by
  cases d with
  | stripe stripeId => exact stripe_deleted_iff clusterNum s stripeId
  | key name =>
    obtain ⟨info, hcom⟩ := ne_none_iff_exists'.mp hd
    constructor
    · intro h info' hcom'
      exact KeyDeletable.of_deleted hcom' h
    · intro h
      exact (h info hcom).deleted hcom

/-- the last block of a stripe, of a client named like its key -/
def lastBlock : Block :=
  { blockId := 1, blockKey := "0_D01", blockType := .D, blockSize := 6, map2group := 0,
    map2stripe := 0, map2cluster := 0, map2node := 0, map2key := "0_0" }

/-- only `lastBlock` is left, and the stripe set of its cluster does not have its stripe -/
def lastBlockTables : Coordinator :=
  { clusterTable := fun c => { blocks := if c = 0 then [lastBlock] else [] }
    nodeTable := fun _ => { stripes := fun _ => some 1 }
    stripeTable := update (fun _ => none) 0 (some ⟨0, 2, 2, 2, ["0_0"], [lastBlock], 2, []⟩)
    objectCommitTable := update (fun _ => none) "0_0" (some ⟨6, 0⟩) }

/-- the block goes from the cluster, its stripe and its node -/
theorem deletion_complete_last :
    Deleted 3 lastBlockTables ((Deletion.key "0_0").report 3 lastBlockTables) (.key "0_0") ∧
    ((Deletion.key "0_0").report 3 lastBlockTables).stripeTable 0 = none := by
  have hnamed : NamedLikeKey "0_0" [lastBlock] := by
    intro b hb
    rw [mem_singleton.mp hb]
    decide
  have hinfo : ∀ info, lastBlockTables.objectCommitTable "0_0" = some info → info.map2stripe = 0 := by
    intro info hinfo
    rw [← (some.inj hinfo : (⟨6, 0⟩ : ObjectInfo) = info)]
  have hstripe : ∀ stripeId stripe, lastBlockTables.stripeTable stripeId = some stripe →
      stripeId = 0 ∧ stripe.blocks = [lastBlock] := by
    intro stripeId stripe hstripe
    by_cases h0 : stripeId = 0
    · subst h0
      exact ⟨rfl, (congrArg Stripe.blocks (some.inj hstripe)).symm⟩
    · have hnone : update (fun _ => none) 0 _ stripeId = some stripe := hstripe
      rw [update_of_ne h0] at hnone
      cases hnone
  have hblock : ∀ b, KeyBlock 3 lastBlockTables "0_0" b → b = lastBlock := by
    rintro b ⟨-, hb | ⟨stripeId, stripe, hb, hmem⟩⟩
    · exact mem_singleton.mp hb
    · rw [(hstripe stripeId stripe hb).2] at hmem
      exact mem_singleton.mp hmem
  refine ⟨(deletion_complete_iff _ _ _ (by decide)).mpr fun info hcom => ?_, by decide⟩
  refine ⟨fun c => ?_, fun stripe hown => ?_, fun stripeId stripe hother hne => ?_,
    fun c stripeId hmem => absurd hmem (Finset.notMem_empty stripeId), fun b hb index hentry => ?_⟩
  · show NamedLikeKey _ (if c = 0 then _ else _)
    split
    · exact hnamed
    · intro b hb
      cases hb
  · rw [(hstripe _ stripe hown).2]
    exact ⟨cons_ne_nil _ _, hnamed⟩
  · rw [hinfo info hcom] at hne
    exact absurd (hstripe stripeId stripe hother).1 hne
  · rw [hblock b hb, ← some.inj hentry]
    decide

/-- the tables after a set of a client, committed by both proxies -/
def afterCommit (clientId : String) : Coordinator :=
  let s := ((uploadSetValue unilrcConfig clustersOfFour {} clientId 4 [0, 0, 1, 1, 2, 2] fun _ => true).map
    Prod.fst).getD {}
  reportCommitAbort 3 (reportCommitAbort 3 s "0_0" .SET 0 true) "0_1" .SET 0 true

/-- the stripe set of cluster 0 keeps a deleted stripe and the commit table its keys; the blocks of the
deleted key `0_0` stay, and where the client is `0_0`, too, the entry of node 0 is counted down from the
block id 0 -/
theorem deletion_leaves_traces :
    (((Deletion.stripe 0).report 3 (afterCommit "c")).clusterTable 0).stripes = {0} ∧
    ((Deletion.stripe 0).report 3 (afterCommit "c")).objectCommitTable "0_0" = some ⟨6, 0⟩ ∧
    ¬Deleted 3 (afterCommit "c") ((Deletion.stripe 0).report 3 (afterCommit "c")) (.stripe 0) ∧
    (Deletion.key "0_0").Possible (afterCommit "c") ∧
    (((Deletion.key "0_0").report 3 (afterCommit "c")).clusterTable 0).blocks.map
      (fun b => (b.blockId, b.planKey)) = [(0, "0_0"), (2, "0_0"), (4, "0_0")] ∧
    ¬Deleted 3 (afterCommit "c") ((Deletion.key "0_0").report 3 (afterCommit "c")) (.key "0_0") ∧
    (((Deletion.key "0_0").report 3 (afterCommit "0_0")).nodeTable 0).stripes 0 = some (-1) := by
  have hstripes : (((Deletion.stripe 0).report 3 (afterCommit "c")).clusterTable 0).stripes = {0} := by
    decide +kernel
  have hblocks : (((Deletion.key "0_0").report 3 (afterCommit "c")).clusterTable 0).blocks.map
      (fun b => (b.blockId, b.planKey)) = [(0, "0_0"), (2, "0_0"), (4, "0_0")] := by decide +kernel
  refine ⟨hstripes, by decide +kernel, fun h => ?_, by decide +kernel, hblocks, fun h => ?_,
    by decide +kernel⟩
  · have herase := h.stripes 0
    rw [hstripes] at herase
    have hmem := Finset.mem_singleton_self 0
    rw [herase] at hmem
    exact Finset.notMem_erase 0 _ hmem
  · have hmem : (0, "0_0") ∈ (((Deletion.key "0_0").report 3 (afterCommit "c")).clusterTable 0).blocks.map
        (fun b => (b.blockId, b.planKey)) := by
      rw [hblocks]
      exact mem_cons_self
    rw [h.blocks 0] at hmem
    obtain ⟨b, hb, heq⟩ := mem_map.mp hmem
    exact of_decide_eq_true (mem_filter.mp hb).2 (congrArg Prod.snd heq)

end Mlrc
