import Mlrc.Coordinator.GetStripe
import Mlrc.Data.Slots

/-!
# Reading a stripe: the proxies and the client

A proxy starts a thread that fetches a block from its datanode and at once sends the buffer of the
block to the client, without waiting for the thread.  The client accepts as many connections as it
has data blocks and stores each block at the place that the block id on the connection says.

* `ProxyImpl.getBlocks`   what a proxy sends for a request;
* `Client.get`   the buffer assembled from the connections;
* `FullRead`   every data block is asked for once, and the buffer is the stored data;
* `PlacesInRange`   the places of the blocks in a proxy's buffer are `int`s;
* `full_read_iff`   when a read is full.
-/

namespace Mlrc

open List Option

/-- what the outside decides in a read: the blocks on the nodes, which byte of which block had come
from the datanode when the proxy sent it, and what the buffer held before -/
structure ReadEnv where
  disk : ℕ → String → List UInt8
  fetched : ℕ → ℕ → Bool
  stale : ℕ → ℕ → UInt8

/-- the buffer of block `i` of a request as `getBlocks` sends it; the place to which it is fetched is
an `int` product, and when that overflows the bytes do not come to where they are sent from -/
def sentBlock (blockSize : ℕ) (env : ReadEnv) (i : ℕ) (block : Helper) : List UInt8 :=
  (range blockSize).map fun t =>
    if i * blockSize < 2 ^ 31 ∧ env.fetched block.blockId t then
      (env.disk block.node block.blockKey).getD t 0
    else env.stale block.blockId t

/-- `ProxyImpl::getBlocks`: a connection for each block, with the block id in front -/
def ProxyImpl.getBlocks (blockSize : ℕ) (env : ReadEnv) (request : GetRequest) :
    List (ℕ × List UInt8) :=
  request.blocks.zipIdx.map fun p => (p.1.blockId, sentBlock blockSize env p.2 p.1)

/-- `Client::get`; `initial` is the new buffer, `arrivals` the connections in the order in which they
are accepted, and `none` stands for a thread that waits for a connection -/
def Client.get (k blockSize : ℕ) (initial : List UInt8) (arrivals : List (ℕ × List UInt8)) :
    Option (List UInt8) :=
  if k ≤ arrivals.length then
    some ((arrivals.take k).foldl (fun buf p => writeAt buf (p.1 * blockSize) p.2) initial)
  else none

/-- `D0 || .. || Dk-1`, as the nodes hold them -/
def storedData (k : ℕ) (stripe : Stripe) (disk : ℕ → String → List UInt8) : List UInt8 :=
  (range k).flatMap fun b =>
    ((stripe.blocks[b]?).map fun block => disk block.map2node block.blockKey).getD []

/-- every data block is in exactly one request, and whatever the nodes and the fresh buffers hold and
in whatever order the connections are accepted, the client returns the stored data -/
structure FullRead (cfg : SysConfig) (stripe : Stripe) (fetched : ℕ → ℕ → Bool) : Prop where
  ids : ∃ requests, getStripe cfg stripe = some requests ∧
    (requests.flatMap GetRequest.blockIds).Perm (range cfg.k)
  data : ∀ requests, getStripe cfg stripe = some requests → ∀ env : ReadEnv, env.fetched = fetched →
    (∀ block ∈ stripe.blocks, (env.disk block.map2node block.blockKey).length = cfg.blockSize) →
    ∀ initial arrivals, initial.length = cfg.k * cfg.blockSize →
      arrivals.Perm (requests.flatMap (ProxyImpl.getBlocks cfg.blockSize env)) →
      Client.get cfg.k cfg.blockSize initial arrivals = some (storedData cfg.k stripe env.disk)

/-! ## The client -/

section
variable {k blockSize : ℕ} {initial : List UInt8} {sends arrivals : List (ℕ × List UInt8)}

theorem clientGet_eq (hids : (sends.map Prod.fst).Perm (range k))
    (hsize : ∀ p ∈ sends, p.2.length = blockSize) (hinit : initial.length = k * blockSize)
    (harr : arrivals.Perm sends) :
    ∃ buf, Client.get k blockSize initial arrivals = some buf ∧ buf.length = k * blockSize ∧
      ∀ p ∈ sends, readAt buf (p.1 * blockSize) blockSize = p.2 := by
  have hlen : arrivals.length = k := by
    rw [harr.length_eq, ← length_map Prod.fst, hids.length_eq, length_range]
  -- the writes with their offsets
  have hwrites : (arrivals.take k).foldl (fun buf p => writeAt buf (p.1 * blockSize) p.2) initial =
      (arrivals.map fun p => (p.1 * blockSize, p.2)).foldl (fun buf p => writeAt buf p.1 p.2)
        initial := by
    rw [take_of_length_le (le_of_eq hlen), foldl_map]
  have hlt : ∀ p ∈ arrivals, p.1 < k := by
    intro p hp
    have hmem := hids.mem_iff.mp (List.mem_map_of_mem (harr.mem_iff.mp hp))
    exact mem_range.mp hmem
  have hle : ∀ q ∈ arrivals.map fun p => (p.1 * blockSize, p.2),
      q.1 + q.2.length ≤ initial.length := by
    intro q hq
    obtain ⟨p, hp, rfl⟩ := List.mem_map.mp hq
    show p.1 * blockSize + p.2.length ≤ _
    rw [hsize p (harr.mem_iff.mp hp), hinit, ← Nat.succ_mul]
    exact Nat.mul_le_mul_right _ (hlt p hp)
  have hpair : (arrivals.map fun p => (p.1 * blockSize, p.2)).Pairwise fun p q =>
      p.1 + p.2.length ≤ q.1 ∨ q.1 + q.2.length ≤ p.1 := by
    rw [pairwise_map]
    have hnd : (arrivals.map Prod.fst).Nodup :=
      ((harr.map _).trans hids).nodup_iff.mpr nodup_range
    refine List.Pairwise.imp_of_mem (fun {p q} hp hq hne => ?_) (pairwise_map.mp hnd)
    rw [hsize p (harr.mem_iff.mp hp), hsize q (harr.mem_iff.mp hq), ← Nat.succ_mul, ← Nat.succ_mul]
    rcases lt_or_gt_of_ne hne with h | h
    · exact .inl (Nat.mul_le_mul_right _ h)
    · exact .inr (Nat.mul_le_mul_right _ h)
  refine ⟨_, if_pos (le_of_eq hlen.symm), ?_, fun p hp => ?_⟩
  · rw [hwrites, length_foldl_writeAt hle, hinit]
  · have hmem : (p.1 * blockSize, p.2) ∈ arrivals.map fun p => (p.1 * blockSize, p.2) :=
      List.mem_map.mpr ⟨p, harr.mem_iff.mpr hp, rfl⟩
    have hread := readAt_foldl_writeAt_of_mem hpair hle hmem
    rw [hsize p hp] at hread
    rw [hwrites, hread]

end

/-! ## The proxies -/

section
variable {cfg : SysConfig} {topo : Topology} {group : ℕ → ℤ} {s s' : Coordinator} {stripeId : ℕ}
  {key : String} {bs : List Block} {stripe : Stripe} {env : ReadEnv}

theorem length_sentBlock (blockSize : ℕ) (env : ReadEnv) (i : ℕ) (block : Helper) :
    (sentBlock blockSize env i block).length = blockSize := by
  rw [sentBlock, length_map, length_range]

theorem map_fst_getBlocks (blockSize : ℕ) (env : ReadEnv) (requests : List GetRequest) :
    (requests.flatMap (ProxyImpl.getBlocks blockSize env)).map Prod.fst =
      requests.flatMap GetRequest.blockIds := by
  rw [map_flatMap]
  refine flatMap_congr fun request _ => ?_
  rw [ProxyImpl.getBlocks, List.map_map, GetRequest.blockIds]
  conv_rhs => rw [← zipIdx_map_fst 0 request.blocks, List.map_map]
  rfl

theorem sentBlock_fetched {blockSize i : ℕ} {block : Helper}
    (hlen : (env.disk block.node block.blockKey).length = blockSize) (hi : i * blockSize < 2 ^ 31)
    (hf : ∀ t < blockSize, env.fetched block.blockId t = true) :
    sentBlock blockSize env i block = env.disk block.node block.blockKey := by
  apply ext_getElem
  · rw [length_sentBlock, hlen]
  · intro t ht ht'
    rw [length_sentBlock] at ht
    simp only [sentBlock, getElem_map, getElem_range]
    rw [if_pos ⟨hi, hf t ht⟩, getD_eq_getElem _ _ ht']

theorem sentBlock_stale {blockSize i : ℕ} {block : Helper} {t : ℕ} (ht : t < blockSize)
    (hf : ¬(i * blockSize < 2 ^ 31 ∧ env.fetched block.blockId t = true)) :
    (sentBlock blockSize env i block)[t]? = some (env.stale block.blockId t) := by
  simp only [sentBlock, getElem?_map, getElem?_range ht, map_some]
  rw [if_neg hf]

section
variable {m : ℕ} {requests : List GetRequest} {initial : List UInt8}
  {arrivals : List (ℕ × List UInt8)}

section
variable (h : Placed cfg topo group s stripeId key bs s' stripe)
include h

theorem RequestOf.length {g : ℕ} {request : GetRequest} (hr : RequestOf cfg group bs g request) :
    request.blocks.length = ((stripe.group g).filter fun b => b < cfg.k).length := by
  have hlen := congrArg List.length hr.ids
  rw [GetRequest.blockIds, length_map] at hlen
  rw [hlen, h.group_eq, List.filter_filter]
  refine congrArg List.length (filter_congr fun b _ => ?_)
  rw [← Bool.decide_and, decide_eq_decide]
  exact and_comm

theorem RequestOf.block {g : ℕ} {request : GetRequest} (hr : RequestOf cfg group bs g request)
    {helper : Helper} (hhelper : helper ∈ request.blocks) :
    ∃ block ∈ stripe.blocks, stripe.blocks[helper.blockId]? = some block ∧ helper = block.helper := by
  obtain ⟨block, hblock, rfl⟩ := hr.source helper hhelper
  obtain ⟨block', hblock', hget, hid⟩ := h.exists_block (h.blockId_lt hblock)
  -- blocks are told apart by their ids
  obtain rfl := h.eq_of_blockId hblock' hblock hid
  exact ⟨block', h.blocks_perm.mem_iff.mpr hblock, hget, rfl⟩

end

variable (hperm : (requests.flatMap GetRequest.blockIds).Perm (range cfg.k))
  (hinit : initial.length = cfg.k * cfg.blockSize)
  (harr : arrivals.Perm (requests.flatMap (ProxyImpl.getBlocks cfg.blockSize env)))
include hperm

theorem exists_request {b : ℕ} (hb : b < cfg.k) : ∃ request ∈ requests, ∃ (i : ℕ) (helper : Helper),
    request.blocks[i]? = some helper ∧ helper.blockId = b := by
  obtain ⟨request, hrequest, hid⟩ := mem_flatMap.mp (hperm.mem_iff.mpr (mem_range.mpr hb))
  obtain ⟨helper, hhelper, rfl⟩ := List.mem_map.mp hid
  obtain ⟨i, hi⟩ := getElem?_of_mem hhelper
  exact ⟨request, hrequest, i, helper, hi, rfl⟩

include hinit harr

theorem getStripe_received : ∃ buf, Client.get cfg.k cfg.blockSize initial arrivals = some buf ∧
      buf.length = cfg.k * cfg.blockSize ∧
      ∀ request ∈ requests, ∀ (i : ℕ) (helper : Helper), request.blocks[i]? = some helper →
        readAt buf (helper.blockId * cfg.blockSize) cfg.blockSize =
          sentBlock cfg.blockSize env i helper := by
  have hsize : ∀ p ∈ requests.flatMap (ProxyImpl.getBlocks cfg.blockSize env),
      p.2.length = cfg.blockSize := by
    intro p hp
    obtain ⟨request, -, hp⟩ := mem_flatMap.mp hp
    obtain ⟨q, -, rfl⟩ := List.mem_map.mp hp
    exact length_sentBlock _ _ _ _
  obtain ⟨buf, hbuf, hlen, hread⟩ := clientGet_eq
    (by rw [map_fst_getBlocks]; exact hperm) hsize hinit harr
  refine ⟨buf, hbuf, hlen, fun request hrequest i helper hi => hread (_, _) ?_⟩
  refine mem_flatMap.mpr ⟨request, hrequest, List.mem_map.mpr ⟨(helper, i), ?_, rfl⟩⟩
  exact mem_zipIdx_iff_getElem?.mpr hi

theorem getStripe_data (h : Placed cfg topo group s stripeId key bs s' stripe)
    (hall : Forall₂ (RequestOf cfg group bs) (range m) requests)
    (hf : ∀ b < cfg.k, ∀ t < cfg.blockSize, env.fetched b t = true)
    (hrange : ∀ request ∈ requests, (request.blocks.length - 1) * cfg.blockSize < 2 ^ 31)
    (hdisk : ∀ block ∈ stripe.blocks,
      (env.disk block.map2node block.blockKey).length = cfg.blockSize) :
    Client.get cfg.k cfg.blockSize initial arrivals = some (storedData cfg.k stripe env.disk) := by
  obtain ⟨buf, hbuf, hlen, hread⟩ := getStripe_received hperm hinit harr
  have hwhole := flatMap_readAt buf cfg.k cfg.blockSize
  rw [take_of_length_le (le_of_eq hlen)] at hwhole
  rw [hbuf, some.injEq, ← hwhole, storedData]
  refine flatMap_congr fun b hb => ?_
  obtain ⟨request, hrequest, i, helper, hi, rfl⟩ := exists_request hperm (mem_range.mp hb)
  obtain ⟨g, -, hr⟩ := forall₂_mem_right hall hrequest
  obtain ⟨block, hblock, hget, rfl⟩ := hr.block h (mem_of_getElem? hi)
  have hplace : i * cfg.blockSize < 2 ^ 31 := by
    have hlt := (List.getElem?_eq_some_iff.mp hi).1
    exact lt_of_le_of_lt (Nat.mul_le_mul_right _ (by omega)) (hrange request hrequest)
  rw [hread request hrequest i _ hi, hget,
    sentBlock_fetched (hdisk block hblock) hplace (hf _ (mem_range.mp hb))]
  rfl

variable (env stripe) in
theorem getStripe_stale {request : GetRequest} (hrequest : request ∈ requests) {i t : ℕ} {helper : Helper}
    (hi : request.blocks[i]? = some helper) (ht : t < cfg.blockSize)
    (hf : ¬(i * cfg.blockSize < 2 ^ 31 ∧ env.fetched helper.blockId t = true))
    (hdisk : env.disk = fun _ _ => replicate cfg.blockSize 0) (hstale : env.stale = fun _ _ => 1) :
    Client.get cfg.k cfg.blockSize initial arrivals ≠ some (storedData cfg.k stripe env.disk) := by
  obtain ⟨buf, hbuf, -, hread⟩ := getStripe_received hperm hinit harr
  have hone : (1 : UInt8) ∈ buf := by
    have hget := sentBlock_stale ht hf
    rw [← hread request hrequest i helper hi, getElem?_readAt, if_pos ht, hstale] at hget
    exact mem_of_getElem? hget
  rw [hbuf, Ne, some.injEq]
  rintro rfl
  obtain ⟨c, -, hmem⟩ := mem_flatMap.mp hone
  cases hc : stripe.blocks[c]? with
  | none =>
    rw [hc] at hmem
    cases hmem
  | some block =>
    rw [hc, hdisk] at hmem
    exact absurd (eq_of_mem_replicate hmem) (by decide)

end

end

/-- the data blocks of every group that is asked for have places below `2 ^ 31` -/
def PlacesInRange (cfg : SysConfig) (stripe : Stripe) : Prop :=
  ∀ g < numDataGroups cfg.codeType stripe.numGroups,
    (((stripe.group g).filter fun b => b < cfg.k).length - 1) * cfg.blockSize < 2 ^ 31

instance (cfg : SysConfig) (stripe : Stripe) : Decidable (PlacesInRange cfg stripe) :=
  inferInstanceAs (Decidable (∀ g < _, _))

/-- **Main result.** A stripe that was placed is read in full exactly when its last group holds no
data (or the code is UniLRC), no place in the buffer of a proxy overflows an `int`, and every byte has
come from its datanode before the proxy sends it. -/
theorem full_read_iff (cfg : SysConfig) (hv : validateConfig cfg = true) (topo : Topology)
    (s s' : Coordinator) (clientId : String) (sizeBytes : ℕ) (draws : List ℕ) (ready : ℕ → Bool)
    (reply : UploadReply)
    (h : uploadSetValue cfg topo s clientId sizeBytes draws ready = some (s', reply))
    (hok : reply.status = .OK) (stripe : Stripe)
    (hstripe : s'.stripeTable s.curStripeId = some stripe) (fetched : ℕ → ℕ → Bool) :
    FullRead cfg stripe fetched ↔ LastGroupFree cfg ∧ PlacesInRange cfg stripe ∧
      ∀ b < cfg.k, ∀ t < cfg.blockSize, fetched b t = true := by
  have hz := validateConfig_z hv
  have hn : cfg.n = cfg.k + cfg.r + cfg.z := rfl
  obtain ⟨group, bs, t, stripe', plans, hdone⟩ := uploadSetValue_ok h hok
  rw [hdone.table, Function.update_self, some.injEq] at hstripe
  subst hstripe
  have hp := hdone.placed
  have hplace := hp.placeable hdone.plans_eq
  obtain ⟨requests, hget, hall⟩ := getStripe_placed hp hplace
  have hpos : ∀ b < cfg.k, 0 ≤ group b :=
    fun b hb => ((hplace.covers hz hdone.group_eq).lt b (by omega)).1
  have hperm := (requests_perm_iff hpos hall).trans (data_visited_iff hz hdone.group_eq hplace)
  rw [← hp.numGroups_eq] at hall
  constructor
  · intro hfull
    obtain ⟨requests', hget', hids⟩ := hfull.ids
    rw [hget, some.injEq] at hget'
    subst hget'
    -- with zeros on the nodes and ones in the fresh buffers a byte that has not come is seen
    have hcame : ∀ request ∈ requests, ∀ (i : ℕ) (helper : Helper), request.blocks[i]? = some helper →
        ∀ t < cfg.blockSize, i * cfg.blockSize < 2 ^ 31 ∧ fetched helper.blockId t = true := by
      intro request hrequest i helper hi t ht
      by_contra hnot
      refine getStripe_stale stripe' ⟨fun _ _ => replicate cfg.blockSize 0, fetched, fun _ _ => 1⟩
        hids (length_replicate (a := 0)) (.refl _) hrequest hi ht hnot rfl rfl ?_
      exact hfull.data requests hget _ rfl (fun _ _ => length_replicate) _ _
        length_replicate (.refl _)
    refine ⟨hperm.mp hids, fun g hg => ?_, fun b hb t ht => ?_⟩
    · obtain ⟨request, hrequest, hr⟩ := forall₂_mem_left hall (mem_range.mpr hg)
      by_contra hge
      rw [← hr.length hp] at hge
      have hlt : request.blocks.length - 1 < request.blocks.length := by
        have hpos : 0 < (request.blocks.length - 1) * cfg.blockSize := by omega
        have := Nat.pos_of_mul_pos_right hpos
        omega
      have hbs : 0 < cfg.blockSize := Nat.pos_of_ne_zero fun h => by rw [h] at hge; omega
      exact hge (hcame request hrequest _ _ (getElem?_eq_getElem hlt) 0 hbs).1
    · obtain ⟨request, hrequest, i, helper, hi, rfl⟩ := exists_request hids hb
      exact (hcame request hrequest i helper hi t ht).2
  · rintro ⟨hfree, hrange, hfetched⟩
    refine ⟨⟨requests, hget, hperm.mpr hfree⟩, ?_⟩
    intro requests' hget' env henv hdisk initial arrivals hinit harr
    rw [hget, some.injEq] at hget'
    subst hget'
    subst henv
    refine getStripe_data (hperm.mpr hfree) hinit harr hp hall hfetched (fun request hrequest => ?_) hdisk
    obtain ⟨g, hg, hr⟩ := forall₂_mem_right hall hrequest
    rw [hr.length hp]
    exact hrange g (mem_range.mp hg)

theorem full_read_unilrc :
    ∃ s' reply stripe, uploadSetValue unilrcConfig clustersOfFour {} "c" 4 [0, 0, 1, 1, 2, 2]
        (fun _ => true) = some (s', reply) ∧ s'.stripeTable 0 = some stripe ∧
      FullRead unilrcConfig stripe fun _ _ => true := by
  have hrun : ((uploadSetValue unilrcConfig clustersOfFour {} "c" 4 [0, 0, 1, 1, 2, 2]
      fun _ => true).map fun p => (p.2.status, (p.1.stripeTable 0).map fun stripe =>
        decide (PlacesInRange unilrcConfig stripe))) = some (.OK, some true) := by decide +kernel
  obtain ⟨⟨s', reply⟩, h, hok⟩ := map_eq_some_iff.mp hrun
  rw [Prod.mk.injEq] at hok
  obtain ⟨stripe, hstripe, hplaces⟩ := map_eq_some_iff.mp hok.2
  exact ⟨s', reply, stripe, h, hstripe, (full_read_iff unilrcConfig (by decide) _ _ _ _ _ _ _ _ h hok.1
    stripe hstripe _).mpr ⟨by decide, of_decide_eq_true hplaces, fun _ _ _ _ => rfl⟩⟩

/-- gLRC with three data blocks and one global parity in two groups, on two clusters of three nodes -/
def glrcConfig : SysConfig where
  codeType := .gLRC
  appendMode := .UNILRC_MODE
  k := 3
  r := 1
  z := 2
  unitSize := 1
  blockSize := 2
  clusterNum := 2
  datanodeNumPerCluster := 3

def clustersOfThree : Topology where
  nodeNum := 6
  nodeCluster := fun node => node / 3

/-- data block 2 is in the last group with the global parity, and no proxy is asked for it -/
theorem last_group_not_read :
    validateConfig glrcConfig = true ∧
    ((uploadSetValue glrcConfig clustersOfThree {} "c" 6 [] fun _ => true).map fun p =>
      (p.2.status, ((p.1.stripeTable 0).bind (getStripe glrcConfig)).map
        (·.map GetRequest.blockIds))) = some (.OK, some [[0, 1]]) ∧
    ∀ s' reply stripe, uploadSetValue glrcConfig clustersOfThree {} "c" 6 [] (fun _ => true) =
        some (s', reply) → s'.stripeTable 0 = some stripe →
      ∀ fetched, ¬ FullRead glrcConfig stripe fetched := by
  refine ⟨by decide, (and_iff_left_of_imp fun hrun s' reply stripe h hstripe fetched hfull => ?_).mpr
    (by decide +kernel)⟩
  obtain ⟨requests, hget, hperm⟩ := hfull.ids
  rw [h, map_some, hstripe, bind_some, hget, some.injEq, Prod.mk.injEq,
    map_some, some.injEq] at hrun
  rw [flatMap_def, hrun.2] at hperm
  exact absurd hperm.length_eq (by decide)

end Mlrc
