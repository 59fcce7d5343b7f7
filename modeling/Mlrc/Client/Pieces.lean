import Mlrc.Code.Partial
import Mlrc.Coordinator.LocalEquations
import Mlrc.Coordinator.Upload
import Mlrc.Proxy.Split

/-!
# The pieces of an upload

An upload lays its blocks out in one buffer, the blocks of a plan behind one another and plan after
plan.  The client cuts the buffer by counts of data blocks, global and local parities, and each
piece is sent to the proxy of its plan, which cuts it again.

* `splitForSetDataAndParity`   the cut at the client;
* `Piece`, `pieceOrder`   the blocks of a plan, and all blocks in the order of the buffer;
* `CutsInto`   counts that describe the pieces;
* `splitForSetDataAndParity_pieces`   the client finds every block at its place;
* `appendStream`   what is sent for a plan, with its size as an `int`;
* `streams_carry`   which streams carry the blocks of their plans;
* `readAt_encoded`   after the encoder every block of the stripe is at its place.
-/

namespace Mlrc

open List Option

structure SetPointers where
  dataPtrArray : List ℕ
  globalParityPtrArray : List ℕ
  localParityPtrArray : List ℕ
deriving DecidableEq, Repr

/-- the bytes that one thread of `async_append_to_proxies` sends -/
structure AppendStream where
  appendKey : String
  proxy : ℕ
  bytes : List UInt8
deriving DecidableEq, Repr

/-- one round of `split_for_set_data_and_parity`; `none` when a count is missing or an assertion
fails -/
def splitSetGroup (blockSize : ℕ) (clusterSliceSizes clusterSliceData dataBlockNum
    globalParityBlockNum localParityBlockNum : List ℕ) (p : SetPointers) (i : ℕ) :
    Option SetPointers := do
  let str ← clusterSliceData[i]?
  let strSize ← clusterSliceSizes[i]?
  let d ← dataBlockNum[i]?
  let g ← globalParityBlockNum[i]?
  let l ← localParityBlockNum[i]?
  let nodeSlices ← splitCharPointer str strSize (replicate (d + g + l) blockSize)
  some {
    dataPtrArray := p.dataPtrArray ++ nodeSlices.take d
    globalParityPtrArray := p.globalParityPtrArray ++ (nodeSlices.drop d).take g
    localParityPtrArray := p.localParityPtrArray ++ (nodeSlices.drop (d + g)).take l }

def splitForSetDataAndParity (blockSize : ℕ) (clusterSliceSizes clusterSliceData dataBlockNum
    globalParityBlockNum localParityBlockNum : List ℕ) : Option SetPointers :=
  (range clusterSliceData.length).foldlM (splitSetGroup blockSize clusterSliceSizes
    clusterSliceData dataBlockNum globalParityBlockNum localParityBlockNum) ⟨[], [], []⟩

/-- what thread `i` of `async_append_to_proxies` is started with; it takes the size as an `int`, and
with a negative one it sends on until the proxy closes the connection -/
def appendStream (reply : UploadReply) (clusterSliceData : List ℕ) (encoded : List UInt8) (i : ℕ) :
    Option AppendStream := do
  let appendKey ← reply.appendKeys[i]?
  let proxy ← reply.proxies[i]?
  let str ← clusterSliceData[i]?
  let strSize ← reply.clusterSliceSizes[i]?
  some { appendKey := appendKey, proxy := proxy, bytes := readAt encoded str (narrowed strSize) }

/-! ## Pieces -/

structure Piece where
  dataIds : List ℕ
  globalIds : List ℕ
  localIds : List ℕ

/-- the blocks of a piece in the order of the buffer -/
def Piece.ids (p : Piece) : List ℕ := p.dataIds ++ p.globalIds ++ p.localIds

def pieceOrder (pieces : List Piece) : List ℕ := pieces.flatMap Piece.ids

def pieceBytes (blockSize : ℕ) (pieces : List Piece) : List ℕ :=
  pieces.map fun p => p.ids.length * blockSize

/-- the counts of the client are those of the pieces -/
structure CutsInto (dataNum globalNum localNum : List ℕ) (pieces : List Piece) : Prop where
  data_num : ∀ (i : ℕ) (p : Piece), pieces[i]? = some p → dataNum[i]? = some p.dataIds.length
  global_num : ∀ (i : ℕ) (p : Piece), pieces[i]? = some p → globalNum[i]? = some p.globalIds.length
  local_num : ∀ (i : ℕ) (p : Piece), pieces[i]? = some p → localNum[i]? = some p.localIds.length

section
variable {blockSize : ℕ} {pieces : List Piece} {i : ℕ} {piece : Piece}

theorem pieceOrder_perm (pieces : List Piece) : (pieceOrder pieces).Perm
    (pieces.flatMap Piece.dataIds ++ pieces.flatMap Piece.globalIds ++
      pieces.flatMap Piece.localIds) := by
  have hdata := flatMap_append_perm pieces Piece.dataIds Piece.globalIds
  have hall := flatMap_append_perm pieces (fun p => p.dataIds ++ p.globalIds) Piece.localIds
  exact ((hdata.append_right _).trans hall).symm

theorem pieceOrder_split (hi : pieces[i]? = some piece) : pieceOrder pieces =
    pieceOrder (pieces.take i) ++ piece.ids ++ pieceOrder (pieces.drop (i + 1)) := by
  obtain ⟨hlt, rfl⟩ := List.getElem?_eq_some_iff.mp hi
  have hsplit : pieces = pieces.take i ++ [pieces[i]] ++ pieces.drop (i + 1) := by
    rw [take_append_getElem, take_append_drop]
  conv_lhs => rw [hsplit]
  unfold pieceOrder
  rw [flatMap_append, flatMap_append, flatMap_singleton]

theorem length_pieceOrder (blockSize : ℕ) (pieces : List Piece) :
    (pieceOrder pieces).length * blockSize = (pieceBytes blockSize pieces).sum := by
  rw [pieceOrder, length_flatMap, ← sum_map_mul_right]
  rfl

theorem map_slot_ids (hnd : (pieceOrder pieces).Nodup) (hi : pieces[i]? = some piece) :
    piece.ids.map (slot (pieceOrder pieces) blockSize) = (range piece.ids.length).map fun j =>
      ((pieceBytes blockSize pieces).take i).sum + j * blockSize := by
  have hstart : (pieceOrder (pieces.take i)).length * blockSize =
      ((pieceBytes blockSize pieces).take i).sum := by
    rw [length_pieceOrder, pieceBytes, pieceBytes, map_take]
  rw [← hstart]
  exact slots_eq hnd (pieceOrder_split hi) blockSize

theorem cutsInto_lengths (pieces : List Piece) : CutsInto (pieces.map (·.dataIds.length))
    (pieces.map (·.globalIds.length)) (pieces.map (·.localIds.length)) pieces := by
  have hmap : ∀ (f : Piece → ℕ) (i : ℕ) (p : Piece), pieces[i]? = some p →
      (pieces.map f)[i]? = some (f p) := fun f i p hi => by rw [getElem?_map, hi, map_some]
  exact ⟨hmap _, hmap _, hmap _⟩

/-! ## The cut at the client -/

variable {dataNum globalNum localNum : List ℕ}

theorem splitCharPointer_sum (sizes : List ℕ) :
    splitCharPointer 0 sizes.sum sizes = some (offsets 0 sizes) := by
  rw [splitCharPointer_eq, if_pos rfl]

section
variable (hnd : (pieceOrder pieces).Nodup) (h : CutsInto dataNum globalNum localNum pieces)
include hnd h

theorem splitSetGroup_piece (p : SetPointers) (hi : pieces[i]? = some piece) :
    splitSetGroup blockSize (pieceBytes blockSize pieces) (offsets 0 (pieceBytes blockSize pieces))
      dataNum globalNum localNum p i = some {
      dataPtrArray := p.dataPtrArray ++ piece.dataIds.map (slot (pieceOrder pieces) blockSize)
      globalParityPtrArray :=
        p.globalParityPtrArray ++ piece.globalIds.map (slot (pieceOrder pieces) blockSize)
      localParityPtrArray :=
        p.localParityPtrArray ++ piece.localIds.map (slot (pieceOrder pieces) blockSize) } := by
  set sizes := pieceBytes blockSize pieces with hsizes
  have hlt : i < pieces.length := (List.getElem?_eq_some_iff.mp hi).1
  have hsize : sizes[i]? = some (piece.ids.length * blockSize) := by
    rw [hsizes, pieceBytes, getElem?_map, hi, map_some]
  have hstr : (offsets 0 sizes)[i]? = some (sizes.take i).sum := by
    rw [getElem?_offsets 0 (by rw [hsizes, pieceBytes, length_map]; exact hlt), zero_add]
  have hcount : piece.dataIds.length + piece.globalIds.length + piece.localIds.length =
      piece.ids.length := by
    rw [Piece.ids, length_append, length_append]
  have hsplit : splitCharPointer (sizes.take i).sum (piece.ids.length * blockSize)
      (replicate piece.ids.length blockSize) =
      some (piece.ids.map (slot (pieceOrder pieces) blockSize)) := by
    rw [splitCharPointer_eq, sum_replicate_nat, if_pos rfl, offsets_replicate, map_slot_ids hnd hi]
  unfold splitSetGroup
  rw [hsize, hstr, h.data_num i piece hi, h.global_num i piece hi, h.local_num i piece hi]
  simp only [bind_eq_bind, bind_some, hcount, hsplit]
  rw [Piece.ids, map_append, map_append]
  congr 2
  · rw [append_assoc, take_left' (length_map _)]
  · rw [append_assoc, drop_left' (length_map _), take_left' (length_map _)]
  · rw [drop_left' (by rw [length_append, length_map, length_map]),
      take_of_length_le (by rw [length_map])]

theorem splitForSetDataAndParity_pieces (blockSize : ℕ) :
    splitForSetDataAndParity blockSize (pieceBytes blockSize pieces)
      (offsets 0 (pieceBytes blockSize pieces)) dataNum globalNum localNum = some {
      dataPtrArray := (pieces.flatMap Piece.dataIds).map (slot (pieceOrder pieces) blockSize)
      globalParityPtrArray :=
        (pieces.flatMap Piece.globalIds).map (slot (pieceOrder pieces) blockSize)
      localParityPtrArray :=
        (pieces.flatMap Piece.localIds).map (slot (pieceOrder pieces) blockSize) } := by
  set sizes := pieceBytes blockSize pieces with hsizes
  -- after `m` rounds the arrays hold the slots of the first `m` pieces
  have hloop : ∀ m ≤ pieces.length, (range m).foldlM (splitSetGroup blockSize sizes
        (offsets 0 sizes) dataNum globalNum localNum) ⟨[], [], []⟩ = some {
      dataPtrArray :=
        ((pieces.take m).flatMap Piece.dataIds).map (slot (pieceOrder pieces) blockSize)
      globalParityPtrArray :=
        ((pieces.take m).flatMap Piece.globalIds).map (slot (pieceOrder pieces) blockSize)
      localParityPtrArray :=
        ((pieces.take m).flatMap Piece.localIds).map (slot (pieceOrder pieces) blockSize) } := by
    intro m hm
    induction m with
    | zero => rfl
    | succ m ih =>
      rw [foldlM_range_succ, ih (by omega), bind_some,
        splitSetGroup_piece hnd h _ (getElem?_eq_getElem hm), ← take_append_getElem hm]
      simp only [flatMap_append, flatMap_singleton, map_append]
  have hlen : (offsets 0 sizes).length = pieces.length := by
    rw [length_offsets, hsizes, pieceBytes, length_map]
  unfold splitForSetDataAndParity
  rw [hlen, hloop _ le_rfl, take_length]

end

end

/-! ## The cut at the proxies -/

/-- a stream goes to the proxy of its plan, which cuts out of it `block b` for every block `b` -/
structure Carries (block : ℕ → List UInt8) (plan : AppendStripeDataPlacement)
    (stream : AppendStream) : Prop where
  key_eq : stream.appendKey = plan.key
  proxy_eq : stream.proxy = plan.clusterId
  split : ProxyImpl.appendSlices plan stream.bytes =
    some (plan.slices.map fun slice => (slice, block slice.blockId))

/-- what the `int` made from their number leaves out of the bytes of a plan is zero -/
def SentWhole (bytes : List UInt8) : Prop := ∀ x ∈ bytes.drop (narrowed bytes.length), x = 0

instance : DecidablePred SentWhole := fun bytes =>
  inferInstanceAs (Decidable (∀ x ∈ bytes.drop _, x = 0))

theorem sentWhole_of_lt {bytes : List UInt8} (h : bytes.length < 2 ^ 32) : SentWhole bytes := by
  unfold SentWhole
  rw [drop_eq_nil_of_le (le_narrowed h)]
  exact forall_mem_nil _

section
variable {cfg : SysConfig} {stripeId : ℕ} {pieces : List Piece} {i : ℕ} {piece : Piece}
  {plan : AppendStripeDataPlacement} {plans : List AppendStripeDataPlacement}

theorem BlockSlices.sizes {ids : List ℕ} (hp : BlockSlices cfg stripeId ids plan) :
    plan.slices.map (·.size) = replicate plan.slices.length cfg.blockSize := by
  rw [eq_replicate_iff, length_map]
  refine ⟨rfl, fun size hsize => ?_⟩
  obtain ⟨slice, hslice, rfl⟩ := List.mem_map.mp hsize
  exact (hp.slice slice hslice).2.2

theorem BlockSlices.count {ids : List ℕ} (hp : BlockSlices cfg stripeId ids plan) :
    plan.slices.length = ids.length := by
  rw [← hp.ids_eq, length_map]

theorem BlockSlices.mem {ids : List ℕ} (hp : BlockSlices cfg stripeId ids plan) {slice : Slice}
    (hslice : slice ∈ plan.slices) : slice.blockId ∈ ids := by
  rw [← hp.ids_eq]
  exact List.mem_map.mpr ⟨slice, hslice, rfl⟩

section
variable (hplans : Forall₂ (fun p plan => BlockPlan cfg stripeId p.ids plan) pieces plans)
include hplans

theorem appendSizes_pieces : plans.map (·.appendSize) = pieceBytes cfg.blockSize pieces := by
  rw [pieceBytes, ← forall₂_eq_eq_eq, forall₂_map_left_iff, forall₂_map_right_iff]
  exact hplans.flip.imp fun plan p hp => hp.size_eq

theorem blockIds_pieces :
    (plans.flatMap fun plan => plan.slices.map (·.blockId)) = pieceOrder pieces := by
  rw [pieceOrder, flatMap_def, flatMap_def]
  congr 1
  rw [← forall₂_eq_eq_eq, forall₂_map_left_iff, forall₂_map_right_iff]
  exact hplans.flip.imp fun plan p hp => hp.ids_eq

theorem exists_plan_piece (hi : plans[i]? = some plan) : ∃ piece, pieces[i]? = some piece ∧
      BlockPlan cfg stripeId piece.ids plan := by
  obtain ⟨hlt, rfl⟩ := List.getElem?_eq_some_iff.mp hi
  have hlen := hplans.length_eq
  exact ⟨pieces[i], getElem?_eq_getElem (by omega),
    (forall₂_iff_get.mp hplans).2 i (by omega) hlt⟩

end

theorem slot_slice (hnd : (pieceOrder pieces).Nodup) (hi : pieces[i]? = some piece)
    (hp : BlockPlan cfg stripeId piece.ids plan) {j : ℕ} {slice : Slice}
    (hj : plan.slices[j]? = some slice) : slot (pieceOrder pieces) cfg.blockSize slice.blockId =
      ((pieceBytes cfg.blockSize pieces).take i).sum + j * cfg.blockSize := by
  have hlt : j < plan.slices.length := (List.getElem?_eq_some_iff.mp hj).1
  have hslots : piece.ids.map (slot (pieceOrder pieces) cfg.blockSize) = _ := map_slot_ids hnd hi
  have hget := congrArg (·[j]?) hslots
  simp only [← hp.ids_eq, List.map_map, length_map, getElem?_map, hj,
    getElem?_range hlt, map_some, Function.comp_apply, some.injEq] at hget
  exact hget

theorem slot_eq_sum (hnd : (pieceOrder pieces).Nodup)
    (hplans : Forall₂ (fun p plan => BlockPlan cfg stripeId p.ids plan) pieces plans)
    (hi : plans[i]? = some plan) {j : ℕ} {slice : Slice} (hj : plan.slices[j]? = some slice) :
    slot (pieceOrder pieces) cfg.blockSize slice.blockId =
      ((plans.take i).map (·.appendSize)).sum + ((plan.slices.take j).map (·.size)).sum := by
  obtain ⟨piece, hpiece, hp⟩ := exists_plan_piece hplans hi
  have hlt : j < plan.slices.length := (List.getElem?_eq_some_iff.mp hj).1
  rw [slot_slice hnd hpiece hp hj, map_take, appendSizes_pieces hplans, map_take, hp.sizes,
    take_replicate, min_eq_left (le_of_lt hlt), sum_replicate_nat]

variable {encoded : List UInt8} {block : ℕ → List UInt8}

section
variable (hnd : (pieceOrder pieces).Nodup) (hread : ∀ b ∈ pieceOrder pieces,
  readAt encoded (slot (pieceOrder pieces) cfg.blockSize b) cfg.blockSize = block b)
include hnd hread

theorem readAt_piece (hi : pieces[i]? = some piece) :
    readAt encoded ((pieceBytes cfg.blockSize pieces).take i).sum
      (piece.ids.length * cfg.blockSize) = piece.ids.flatMap block := by
  set start := ((pieceBytes cfg.blockSize pieces).take i).sum with hstart
  set bytes := readAt encoded start (piece.ids.length * cfg.blockSize) with hbytes
  calc bytes
    _ = bytes.take (piece.ids.length * cfg.blockSize) :=
      (take_of_length_le (length_take_le _ _)).symm
    _ = (range piece.ids.length).flatMap fun j =>
        readAt encoded (start + j * cfg.blockSize) cfg.blockSize := by
      rw [← flatMap_readAt]
      refine flatMap_congr fun j hj => readAt_readAt _ ?_
      rw [← Nat.succ_mul]
      exact Nat.mul_le_mul_right _ (mem_range.mp hj)
    _ = (piece.ids.map (slot (pieceOrder pieces) cfg.blockSize)).flatMap fun a =>
        readAt encoded a cfg.blockSize := by
      rw [map_slot_ids hnd hi, flatMap_map]
    _ = piece.ids.flatMap block := by
      rw [flatMap_map]
      exact flatMap_congr fun b hb => hread b (mem_flatMap.mpr ⟨piece, mem_of_getElem? hi, hb⟩)

variable (hfit : (pieceOrder pieces).length * cfg.blockSize ≤ encoded.length)
include hfit

theorem carries_iff (hi : pieces[i]? = some piece) (hp : BlockPlan cfg stripeId piece.ids plan) :
    Carries block plan {
        appendKey := plan.key
        proxy := plan.clusterId
        bytes := readAt encoded ((pieceBytes cfg.blockSize pieces).take i).sum
          (narrowed plan.appendSize) } ↔ SentWhole (piece.ids.flatMap block) := by
  have hmem : ∀ b ∈ piece.ids, b ∈ pieceOrder pieces :=
    fun b hb => mem_flatMap.mpr ⟨piece, mem_of_getElem? hi, hb⟩
  have hblock : ∀ b ∈ piece.ids, (block b).length = cfg.blockSize := by
    intro b hb
    rw [← hread b (hmem b hb)]
    exact length_readAt (le_trans (slot_add_le (hmem b hb)) hfit)
  have hlen : (piece.ids.flatMap block).length = plan.appendSize := by
    rw [length_flatMap, map_congr_left hblock, map_const', sum_replicate_nat, hp.size_eq]
  have hend : ((pieceBytes cfg.blockSize pieces).take i).sum + plan.appendSize ≤ encoded.length := by
    have hsplit := congrArg length (pieceOrder_split hi)
    rw [length_append, length_append] at hsplit
    have hstart : (pieceOrder (pieces.take i)).length * cfg.blockSize =
        ((pieceBytes cfg.blockSize pieces).take i).sum := by
      rw [length_pieceOrder, pieceBytes, pieceBytes, map_take]
    rw [← hstart, hp.size_eq, ← Nat.add_mul]
    exact le_trans (Nat.mul_le_mul_right _ (by omega)) hfit
  have hflat : (plan.slices.flatMap fun slice => block slice.blockId) = piece.ids.flatMap block := by
    rw [← hp.ids_eq, flatMap_map]
  have hsplit : ProxyImpl.appendSlices plan (readAt encoded
        ((pieceBytes cfg.blockSize pieces).take i).sum (narrowed plan.appendSize)) =
      some (plan.slices.map fun slice => (slice, block slice.blockId)) ↔
      SentWhole (piece.ids.flatMap block) := by
    unfold ProxyImpl.appendSlices SentWhole
    rw [splitAppend_blocks_iff hp.sizes (by rw [hp.size_eq, hp.count])
      (fun slice hslice => hblock _ (hp.mem hslice)) (length_receive _ _), hflat,
      receive_readAt _ hend, hp.size_eq, readAt_piece hnd hread hi, ← hp.size_eq, ← hlen,
      receive_take_iff]
  -- the unifier would evaluate the size
  generalize narrowed plan.appendSize = sent at *
  constructor
  · intro h
    exact hsplit.mp h.split
  · intro h
    exact ⟨rfl, rfl, hsplit.mpr h⟩

theorem streams_carry
    (hplans : Forall₂ (fun p plan => BlockPlan cfg stripeId p.ids plan) pieces plans) :
    ∃ streams, (range plans.length).mapM (appendStream (readyReply plans)
        (offsets 0 (pieceBytes cfg.blockSize pieces)) encoded) = some streams ∧
      (Forall₂ (Carries block) plans streams ↔ ∀ p ∈ pieces, SentWhole (p.ids.flatMap block)) := by
  have hlen := hplans.length_eq
  have hone : ∀ i ∈ range plans.length, ∃ stream, appendStream (readyReply plans)
        (offsets 0 (pieceBytes cfg.blockSize pieces)) encoded i = some stream ∧
      ∀ (hi : i < plans.length) (hi' : i < pieces.length),
        Carries block plans[i] stream ↔ SentWhole (pieces[i].ids.flatMap block) := by
    intro i hi
    have hi := mem_range.mp hi
    have hi' : i < pieces.length := hlen ▸ hi
    have hlt : i < (pieceBytes cfg.blockSize pieces).length := by rwa [pieceBytes, length_map]
    have hstream : appendStream (readyReply plans) (offsets 0 (pieceBytes cfg.blockSize pieces))
        encoded i = some {
          appendKey := plans[i].key
          proxy := plans[i].clusterId
          bytes := readAt encoded ((pieceBytes cfg.blockSize pieces).take i).sum
            (narrowed plans[i].appendSize) } := by
      unfold appendStream readyReply
      simp only [getElem?_map, getElem?_eq_getElem hi, getElem?_offsets 0 hlt, zero_add, map_some,
        bind_eq_bind, bind_some]
    exact ⟨_, hstream, fun _ _ => carries_iff hnd hread hfit (getElem?_eq_getElem hi')
      ((forall₂_iff_get.mp hplans).2 i hi' hi)⟩
  obtain ⟨streams, hstreams, hall⟩ := exists_mapM hone
  have hcount : plans.length = streams.length := by rw [← hall.length_eq, length_range]
  have hget : ∀ i (hi : i < plans.length) (hi' : i < pieces.length) (hi'' : i < streams.length),
      Carries block plans[i] streams[i] ↔ SentWhole (pieces[i].ids.flatMap block) := by
    intro i hi hi' hi''
    have hget := (forall₂_iff_get.mp hall).2 i (by rwa [length_range]) hi''
    rw [get_eq_getElem, getElem_range] at hget
    exact hget hi hi'
  refine ⟨streams, hstreams, fun h p hp => ?_, fun h => forall₂_iff_get.mpr ⟨hcount, fun i hi hi' => ?_⟩⟩
  · obtain ⟨i, hi, rfl⟩ := getElem_of_mem hp
    exact (hget i (by omega) hi (by omega)).mp ((forall₂_iff_get.mp h).2 i (by omega) (by omega))
  · exact (hget i hi (by omega) hi').mpr (h _ (List.getElem_mem _))

end

end

/-! ## The blocks of a stripe in the pieces -/

/-- the pieces hold the first `m` data blocks and all parities, each kind in the order of the ids -/
structure PiecesOf (cfg : SysConfig) (m : ℕ) (pieces : List Piece) : Prop where
  le : m ≤ cfg.k
  data : pieces.flatMap Piece.dataIds = range' 0 m
  globals : pieces.flatMap Piece.globalIds = range' cfg.k cfg.r
  locals : pieces.flatMap Piece.localIds = range' (cfg.k + cfg.r) cfg.z

section
variable (cfg : SysConfig) (m : ℕ) (pieces : List Piece) (buffer : List UInt8)

/-- where block `b` lies in the buffer -/
def blockSlot (b : ℕ) : ℕ := slot (pieceOrder pieces) cfg.blockSize b

/-- the data blocks that the client reads from its buffer -/
def setData : List (List UInt8) :=
  (range' 0 m).map fun b => readAt buffer (blockSlot cfg pieces b) cfg.blockSize

/-- block `b` of the stripe whose other data blocks are zero -/
def setBlock (b : ℕ) : List UInt8 :=
  blockOf (codeword (genMatrix cfg.codeType) cfg.k cfg.r cfg.z
    (padded cfg.k cfg.blockSize (setData cfg m pieces buffer)) cfg.blockSize) b

def parityWrites : List (ℕ × List UInt8) :=
  (range' cfg.k (cfg.r + cfg.z)).map fun b =>
    (blockSlot cfg pieces b, setBlock cfg m pieces buffer b)

end

section
variable {cfg : SysConfig} {m : ℕ} {pieces : List Piece} {buffer : List UInt8} {b : ℕ}

section
variable (h : PiecesOf cfg m pieces)
include h

theorem PiecesOf.order_perm :
    (pieceOrder pieces).Perm (range' 0 m ++ range' cfg.k (cfg.r + cfg.z)) := by
  have hperm := pieceOrder_perm pieces
  rwa [h.data, h.globals, h.locals, append_assoc, range'_append_1] at hperm

theorem PiecesOf.nodup : (pieceOrder pieces).Nodup := by
  have hle := h.le
  rw [h.order_perm.nodup_iff]
  refine List.Nodup.append (nodup_range' 1) (nodup_range' 1) fun b hb hb' => ?_
  rw [mem_range'_1] at hb hb'
  omega

theorem PiecesOf.mem_iff : b ∈ pieceOrder pieces ↔ b < m ∨ (cfg.k ≤ b ∧ b < cfg.n) := by
  have hn : cfg.n = cfg.k + cfg.r + cfg.z := rfl
  rw [h.order_perm.mem_iff, mem_append, mem_range'_1, mem_range'_1]
  omega

theorem PiecesOf.lt (hb : b ∈ pieceOrder pieces) : b < cfg.n := by
  have hle := h.le
  have hn : cfg.n = cfg.k + cfg.r + cfg.z := rfl
  rcases h.mem_iff.mp hb with hlt | hlt
  · omega
  · exact hlt.2

theorem PiecesOf.length_order : (pieceOrder pieces).length = m + (cfg.r + cfg.z) := by
  rw [h.order_perm.length_eq, length_append, length_range', length_range']

theorem setBlock_data (hb : b < m) :
    setBlock cfg m pieces buffer b = readAt buffer (blockSlot cfg pieces b) cfg.blockSize := by
  have hle := h.le
  have hlen : (setData cfg m pieces buffer).length = m := by
    rw [setData, length_map, length_range']
  have hpad : b < (padded cfg.k cfg.blockSize (setData cfg m pieces buffer)).length := by
    rw [padded, length_append, hlen]
    omega
  unfold setBlock blockOf codeword
  rw [getD_append _ _ _ _ hpad, padded, getD_append _ _ _ _ (by omega),
    getD_eq_getElem?_getD, setData, getElem?_map, getElem?_range' hb, zero_add,
    one_mul]
  rfl

variable (hbuf : buffer.length = cfg.blockSize * cfg.n)
include hbuf

theorem PiecesOf.order_le : (pieceOrder pieces).length * cfg.blockSize ≤ buffer.length := by
  have hle := h.le
  have hn : cfg.n = cfg.k + cfg.r + cfg.z := rfl
  rw [h.length_order, hbuf, mul_comm]
  exact Nat.mul_le_mul_left _ (by omega)

theorem setData_blocks : DataBlocks m cfg.blockSize (setData cfg m pieces buffer) := by
  refine ⟨by rw [setData, length_map, length_range'], fun d hd => ?_⟩
  obtain ⟨b, hb, rfl⟩ := List.mem_map.mp hd
  rw [mem_range'_1] at hb
  have hmem : b ∈ pieceOrder pieces := h.mem_iff.mpr (.inl (by omega))
  exact length_readAt (le_trans (slot_add_le hmem) (h.order_le hbuf))

theorem length_setBlock (hb : b < cfg.n) :
    (setBlock cfg m pieces buffer b).length = cfg.blockSize :=
  length_blockOf_codeword (padded_blocks (setData_blocks h hbuf) h.le) hb

theorem encodeWith_setData : encodeWith (genMatrix cfg.codeType) cfg.k cfg.r cfg.z
        (padded cfg.k cfg.blockSize (setData cfg m pieces buffer)) cfg.blockSize =
      (range' cfg.k (cfg.r + cfg.z)).map (setBlock cfg m pieces buffer) := by
  have hcount := (padded_blocks (setData_blocks h hbuf) h.le).count
  apply ext_getElem
  · rw [encodeWith, encodeData_length, length_map, length_range']
  · intro j hj _
    rw [getElem_map, getElem_range', one_mul, setBlock, blockOf, codeword,
      getD_append_right _ _ _ _ (by omega), hcount, Nat.add_sub_cancel_left,
      getD_eq_getElem _ _ hj]

theorem zip_parity : ((range' cfg.k (cfg.r + cfg.z)).map (blockSlot cfg pieces)).zip
      (encodeWith (genMatrix cfg.codeType) cfg.k cfg.r cfg.z
        (padded cfg.k cfg.blockSize (setData cfg m pieces buffer)) cfg.blockSize) =
      parityWrites cfg m pieces buffer := by
  rw [encodeWith_setData h hbuf, zip_map']
  rfl

theorem length_encoded : ((parityWrites cfg m pieces buffer).foldl
    (fun buf p => writeAt buf p.1 p.2) buffer).length = buffer.length := by
  have hle := h.le
  have hn : cfg.n = cfg.k + cfg.r + cfg.z := rfl
  refine length_foldl_writeAt fun p hp => ?_
  obtain ⟨c, hc, rfl⟩ := List.mem_map.mp hp
  rw [mem_range'_1] at hc
  have hmem : c ∈ pieceOrder pieces := h.mem_iff.mpr (.inr (by omega))
  show blockSlot cfg pieces c + (setBlock cfg m pieces buffer c).length ≤ _
  rw [length_setBlock h hbuf (h.lt hmem)]
  exact le_trans (slot_add_le hmem) (h.order_le hbuf)

theorem readAt_encoded (hb : b ∈ pieceOrder pieces) :
    readAt ((parityWrites cfg m pieces buffer).foldl (fun buf p => writeAt buf p.1 p.2) buffer)
      (blockSlot cfg pieces b) cfg.blockSize = setBlock cfg m pieces buffer b := by
  have hle := h.le
  have hn : cfg.n = cfg.k + cfg.r + cfg.z := rfl
  refine readAt_foldl_writeAt_slot ?_ (nodup_range' 1) ?_ (h.order_le hbuf) ?_ hb
  · intro c hc
    rw [mem_range'_1] at hc
    exact h.mem_iff.mpr (.inr (by omega))
  · intro c hc
    exact length_setBlock h hbuf (h.lt hc)
  · intro c hc hparity
    rw [mem_range'_1] at hparity
    refine (setBlock_data h ?_).symm
    rcases h.mem_iff.mp hc with hlt | hlt <;> omega

end

end

end Mlrc
