import Mlrc.Client.Agree
import Mlrc.Client.Pieces

/-!
# Storing a stripe

`Client::set` cuts its buffer twice: into one piece for each plan of the coordinator, and each piece
into blocks by its own counts.  The blocks are handed to the encoder as pointers, and each piece is
then sent to the proxy of its plan, which cuts it again.

* `Client.set`   the client between the answer of the coordinator and the sends;
* `SetLayout`   what the cuts need from the placement;
* `SetLayout.cutsInto`   with such a layout the counts of the client are those of the plans;
* `SetStores`   every proxy cuts out the blocks of the codeword;
* `cutAndSend_stores_iff`   when the blocks of the pieces are stored;
* `clientSet_stores_iff`   when a set with such a layout stores the codeword of its data.
-/

namespace Mlrc

open List Option

/-! ## The client -/

/-- what a set has computed when it starts to send -/
structure SetRun where
  dataPtrArray : List ℕ
  parityPtrArray : List ℕ
  streams : List AppendStream
deriving DecidableEq, Repr

/-- an encoder reads `blockNum` blocks and writes `r + z` blocks through its pointers; `none` when
there are fewer pointers -/
def encodeInPlace (cfg : SysConfig) (blockNum : ℕ) (encode : List (List UInt8) → List (List UInt8))
    (buffer : List UInt8) (dataPtrArray parityPtrArray : List ℕ) : Option (List UInt8) :=
  if blockNum ≤ dataPtrArray.length ∧ cfg.r + cfg.z ≤ parityPtrArray.length then
    let data := (dataPtrArray.take blockNum).map fun ptr => readAt buffer ptr cfg.blockSize
    some ((parityPtrArray.zip (encode data)).foldl (fun buf p => writeAt buf p.1 p.2) buffer)
  else none

/-- what `Client::set` and `Client::sub_set` do with their counts: they cut the buffer, encode in
place and start to send -/
def Client.cutAndSend (cfg : SysConfig) (reply : UploadReply) (dataNum globalNum localNum : List ℕ)
    (encode : List ℕ → List ℕ → Option (List UInt8)) : Option SetRun := do
  let clusterSliceData ← splitCharPointer 0 reply.sumAppendSize reply.clusterSliceSizes
  let p ← splitForSetDataAndParity cfg.blockSize reply.clusterSliceSizes clusterSliceData
    dataNum globalNum localNum
  let parityPtrArray := p.globalParityPtrArray ++ p.localParityPtrArray
  let encoded ← encode p.dataPtrArray parityPtrArray
  let streams ← (range reply.appendKeys.length).mapM
    (appendStream reply clusterSliceData encoded)
  some { dataPtrArray := p.dataPtrArray, parityPtrArray := parityPtrArray, streams := streams }

/-- `Client::set` after a successful `uploadSetValue`; `buffer` is `m_pre_allocated_buffer`, which
holds the data -/
def Client.set (cfg : SysConfig) (reply : UploadReply) (buffer : List UInt8) : Option SetRun :=
  Client.cutAndSend cfg reply (getDataBlockNumPerGroup cfg.codeType cfg.k cfg.r cfg.z)
    (getGlobalParityBlockNumPerGroup cfg.codeType cfg.k cfg.r cfg.z)
    (getLocalParityBlockNumPerGroup cfg.codeType cfg.k cfg.r cfg.z)
    (encodeInPlace cfg cfg.k (fun data =>
      encodeWith (genMatrix cfg.codeType) cfg.k cfg.r cfg.z data cfg.blockSize) buffer)

/-! ## What the cuts need -/

section
variable (cfg : SysConfig) (group : ℕ → ℤ)

/-- the placement as the client sees it: its counts are those of each group, and neither data
blocks nor global nor local parities go back to an earlier group -/
structure SetLayout : Prop where
  bounds : ∀ b < cfg.n, 0 ≤ group b ∧ group b < numGroups cfg group
  data_num : ∀ g < numGroups cfg group,
    (getDataBlockNumPerGroup cfg.codeType cfg.k cfg.r cfg.z)[g]? = some (groupDataNum cfg group g)
  global_num : ∀ g < numGroups cfg group,
    (getGlobalParityBlockNumPerGroup cfg.codeType cfg.k cfg.r cfg.z)[g]? =
      some (groupGlobalNum cfg group g)
  local_num : ∀ g < numGroups cfg group,
    (getLocalParityBlockNumPerGroup cfg.codeType cfg.k cfg.r cfg.z)[g]? =
      some (groupLocalNum cfg group g)
  data_sorted : ∀ i j, i ≤ j → j < cfg.k → group i ≤ group j
  global_sorted : ∀ i j, i ≤ j → j < cfg.r → group (cfg.k + i) ≤ group (cfg.k + j)
  local_sorted : ∀ i j, i ≤ j → j < cfg.z → group (cfg.k + cfg.r + i) ≤ group (cfg.k + cfg.r + j)

/-- the blocks from `start` on that are in group `g` -/
def groupPart (start len g : ℕ) : List ℕ := (range' start len).filter fun b => group b = g

/-- the blocks of group `g` in a stripe of which the first `m` data blocks are stored -/
def groupPiece (m g : ℕ) : Piece where
  dataIds := groupPart group 0 m g
  globalIds := groupPart group cfg.k cfg.r g
  localIds := groupPart group (cfg.k + cfg.r) cfg.z g

def setPieces : List Piece := (range (numGroups cfg group)).map (groupPiece cfg group cfg.k)

end

section
variable {cfg : SysConfig} {group : ℕ → ℤ} {g : ℕ}

theorem bucket_eq_parts (g : ℕ) : bucket (groupToBlocks cfg.n group) g =
    groupPart group 0 cfg.k g ++ groupPart group cfg.k cfg.r g ++
      groupPart group (cfg.k + cfg.r) cfg.z g := by
  have hrange : range cfg.n = range' 0 cfg.k ++ range' cfg.k cfg.r ++
      range' (cfg.k + cfg.r) cfg.z := by
    rw [range_eq_range', SysConfig.n, ← range'_append_1, ← range'_append_1,
      zero_add, zero_add]
  rw [groupToBlocks, bucket_collect, hrange, filter_append, filter_append]
  rfl

theorem mem_groupPart {start len b : ℕ} :
    b ∈ groupPart group start len g ↔ (start ≤ b ∧ b < start + len) ∧ group b = g := by
  rw [groupPart, mem_filter, mem_range'_1, decide_eq_true_eq]

theorem countP_groupPart {p : ℕ → Prop} [DecidablePred p] {start len : ℕ}
    (h : ∀ b, start ≤ b → b < start + len → p b) :
    (groupPart group start len g).countP (fun b => p b) = (groupPart group start len g).length := by
  refine countP_eq_length.mpr fun b hb => ?_
  obtain ⟨⟨hstart, hlen⟩, -⟩ := mem_groupPart.mp hb
  exact decide_eq_true (h b hstart hlen)

theorem countP_groupPart_not {p : ℕ → Prop} [DecidablePred p] {start len : ℕ}
    (h : ∀ b, start ≤ b → b < start + len → ¬ p b) :
    (groupPart group start len g).countP (fun b => p b) = 0 := by
  refine countP_eq_zero.mpr fun b hb => ?_
  obtain ⟨⟨hstart, hlen⟩, -⟩ := mem_groupPart.mp hb
  rw [decide_eq_true_eq]
  exact h b hstart hlen

theorem groupDataNum_eq (g : ℕ) : groupDataNum cfg group g = (groupPart group 0 cfg.k g).length := by
  unfold groupDataNum
  rw [bucket_eq_parts, countP_append, countP_append,
    countP_groupPart fun b _ hb => by omega, countP_groupPart_not fun b hb _ => by omega,
    countP_groupPart_not fun b hb _ => by omega]
  rfl

theorem groupGlobalNum_eq (g : ℕ) :
    groupGlobalNum cfg group g = (groupPart group cfg.k cfg.r g).length := by
  unfold groupGlobalNum
  rw [bucket_eq_parts, countP_append, countP_append,
    countP_groupPart_not fun b _ hb => by omega, countP_groupPart fun b hb hb' => by omega,
    countP_groupPart_not fun b hb _ => by omega, zero_add]
  rfl

theorem groupLocalNum_eq (g : ℕ) :
    groupLocalNum cfg group g = (groupPart group (cfg.k + cfg.r) cfg.z g).length := by
  unfold groupLocalNum
  rw [bucket_eq_parts, countP_append, countP_append,
    countP_groupPart_not fun b _ hb => by omega, countP_groupPart_not fun b _ hb => by omega,
    countP_groupPart fun b hb _ => by omega, Nat.zero_add]

theorem flatMap_groupPart {count start len : ℕ}
    (hsorted : ∀ i j, i ≤ j → j < len → group (start + i) ≤ group (start + j))
    (hbounds : ∀ b, start ≤ b → b < start + len → 0 ≤ group b ∧ group b < count) :
    (range count).flatMap (groupPart group start len) = range' start len := by
  unfold groupPart
  rw [flatMap_filter_of_sorted]
  · refine filter_eq_self.mpr fun b hb => ?_
    rw [mem_range'_1] at hb
    exact decide_eq_true (hbounds b hb.1 hb.2).2
  · refine List.Pairwise.imp_of_mem (fun {i j} hi hj hij => ?_) pairwise_lt_range'
    rw [mem_range'_1] at hi hj
    have h := hsorted (i - start) (j - start) (by omega) (by omega)
    rwa [Nat.add_sub_cancel' hi.1, Nat.add_sub_cancel' hj.1] at h
  · intro b hb
    rw [mem_range'_1] at hb
    exact (hbounds b hb.1 hb.2).1

theorem SetLayout.piecesOf (h : SetLayout cfg group) {m : ℕ} (hm : m ≤ cfg.k) :
    PiecesOf cfg m ((range (numGroups cfg group)).map (groupPiece cfg group m)) := by
  have hn : cfg.n = cfg.k + cfg.r + cfg.z := rfl
  refine ⟨hm, ?_, ?_, ?_⟩
  · rw [flatMap_map]
    refine flatMap_groupPart (fun i j hij hj => ?_) fun b _ hb => h.bounds b (by omega)
    rw [zero_add, zero_add]
    exact h.data_sorted i j hij (by omega)
  · rw [flatMap_map]
    exact flatMap_groupPart h.global_sorted fun b _ hb => h.bounds b (by omega)
  · rw [flatMap_map]
    exact flatMap_groupPart h.local_sorted fun b _ hb => h.bounds b (by omega)

theorem getElem?_setPieces {i : ℕ} {p : Piece} (hi : (setPieces cfg group)[i]? = some p) :
    i < numGroups cfg group ∧ p = groupPiece cfg group cfg.k i := by
  rw [setPieces, getElem?_map, map_eq_some_iff] at hi
  obtain ⟨g, hg, rfl⟩ := hi
  obtain ⟨hlt, rfl⟩ := List.getElem?_eq_some_iff.mp hg
  rw [getElem_range]
  rw [length_range] at hlt
  exact ⟨hlt, rfl⟩

theorem SetLayout.cutsInto (h : SetLayout cfg group) :
    CutsInto (getDataBlockNumPerGroup cfg.codeType cfg.k cfg.r cfg.z)
      (getGlobalParityBlockNumPerGroup cfg.codeType cfg.k cfg.r cfg.z)
      (getLocalParityBlockNumPerGroup cfg.codeType cfg.k cfg.r cfg.z) (setPieces cfg group) := by
  refine ⟨?_, ?_, ?_⟩
  · intro i p hi
    obtain ⟨hlt, rfl⟩ := getElem?_setPieces hi
    rw [h.data_num i hlt, groupDataNum_eq]
    rfl
  · intro i p hi
    obtain ⟨hlt, rfl⟩ := getElem?_setPieces hi
    rw [h.global_num i hlt, groupGlobalNum_eq]
    rfl
  · intro i p hi
    obtain ⟨hlt, rfl⟩ := getElem?_setPieces hi
    rw [h.local_num i hlt, groupLocalNum_eq]
    rfl

/-! ## The stored blocks -/

/-- the data of a stripe: the blocks that the encoder reads, and zeros for the others -/
def SetRun.data (cfg : SysConfig) (buffer : List UInt8) (run : SetRun) : List (List UInt8) :=
  padded cfg.k cfg.blockSize (run.dataPtrArray.map fun ptr => readAt buffer ptr cfg.blockSize)

/-- the stripe that the full encoder makes of this data -/
def SetRun.stripe (cfg : SysConfig) (buffer : List UInt8) (run : SetRun) : List (List UInt8) :=
  codeword (genMatrix cfg.codeType) cfg.k cfg.r cfg.z (run.data cfg buffer) cfg.blockSize

/-- the pointers of the encoder are the places of the blocks in the plans, the first `m` data blocks
and all parities are in one plan each under their own keys, every stream carries the blocks of its
plan, and these are the rows of the generator matrix applied to the data -/
structure SetStores (cfg : SysConfig) (stripeId m : ℕ) (buffer : List UInt8)
    (plans : List AppendStripeDataPlacement) (run : SetRun) : Prop where
  data_count : run.dataPtrArray.length = m
  parity_count : run.parityPtrArray.length = cfg.r + cfg.z
  pointers : ∀ i plan, plans[i]? = some plan → ∀ j slice, plan.slices[j]? = some slice →
    (if slice.blockId < cfg.k then run.dataPtrArray[slice.blockId]?
      else run.parityPtrArray[slice.blockId - cfg.k]?) =
      some (((plans.take i).map (·.appendSize)).sum + ((plan.slices.take j).map (·.size)).sum)
  ids : (plans.flatMap fun plan => plan.slices.map (·.blockId)).Perm
    (range m ++ range' cfg.k (cfg.r + cfg.z))
  slices : ∀ plan ∈ plans, ∀ slice ∈ plan.slices,
    slice.blockKey = blockKey cfg.k cfg.r stripeId slice.blockId ∧ slice.offset = 0 ∧
      slice.size = cfg.blockSize
  streams : Forall₂ (Carries (blockOf (run.stripe cfg buffer))) plans run.streams
  rows : ∀ b < cfg.n, ∀ t < cfg.blockSize, Gf.mk (byteAt (run.stripe cfg buffer) b t) =
    ∑ j ∈ Finset.range cfg.k, Gf.mk (genMatrix cfg.codeType cfg.k cfg.r cfg.z b j) *
      Gf.mk (byteAt (run.data cfg buffer) j t)

section
variable {stripeId m : ℕ} {plans : List AppendStripeDataPlacement} {pieces : List Piece}
  {buffer : List UInt8}

section
variable (hof : PiecesOf cfg m pieces) (hbuf : buffer.length = cfg.blockSize * cfg.n)
include hof hbuf

theorem encodeInPlace_eq {encode : List (List UInt8) → List (List UInt8)}
    (hencode : encode (setData cfg m pieces buffer) =
      encodeWith (genMatrix cfg.codeType) cfg.k cfg.r cfg.z
        (padded cfg.k cfg.blockSize (setData cfg m pieces buffer)) cfg.blockSize) :
    encodeInPlace cfg m encode buffer ((range' 0 m).map (blockSlot cfg pieces))
        ((range' cfg.k (cfg.r + cfg.z)).map (blockSlot cfg pieces)) =
      some ((parityWrites cfg m pieces buffer).foldl (fun buf p => writeAt buf p.1 p.2) buffer) := by
  have hlen : ∀ start len, ((range' start len).map (blockSlot cfg pieces)).length = len :=
    fun start len => by rw [length_map, length_range']
  have hdata : ((range' 0 m).map (blockSlot cfg pieces)).map
      (fun ptr => readAt buffer ptr cfg.blockSize) = setData cfg m pieces buffer := List.map_map
  unfold encodeInPlace
  simp only [hlen, Nat.le_refl, and_self, if_true]
  rw [take_of_length_le (hlen 0 m).le, hdata, hencode, zip_parity hof hbuf]

theorem cutAndSend_stores_iff (encode : List (List UInt8) → List (List UInt8))
    {dataNum globalNum localNum : List ℕ} (hcuts : CutsInto dataNum globalNum localNum pieces)
    (hencode : encode (setData cfg m pieces buffer) =
      encodeWith (genMatrix cfg.codeType) cfg.k cfg.r cfg.z
        (padded cfg.k cfg.blockSize (setData cfg m pieces buffer)) cfg.blockSize)
    (hplans : Forall₂ (fun p plan => BlockPlan cfg stripeId p.ids plan) pieces plans) :
    ∃ run, Client.cutAndSend cfg (readyReply plans) dataNum globalNum localNum
        (encodeInPlace cfg m encode buffer) = some run ∧
      (SetStores cfg stripeId m buffer plans run ↔
        ∀ p ∈ pieces, SentWhole (p.ids.flatMap (setBlock cfg m pieces buffer))) := by
  have hsizes := appendSizes_pieces hplans
  have hread := fun b (hb : b ∈ pieceOrder pieces) => readAt_encoded hof hbuf hb
  have hfit := hof.order_le hbuf
  rw [← length_encoded hof hbuf] at hfit
  obtain ⟨streams, hstreams, hcarry⟩ := streams_carry hof.nodup hread hfit hplans
  refine ⟨{
    dataPtrArray := (range' 0 m).map (blockSlot cfg pieces)
    parityPtrArray := (range' cfg.k (cfg.r + cfg.z)).map (blockSlot cfg pieces)
    streams := streams }, ?_, fun hset => ?_, fun hwhole => ⟨?_, ?_, ?_, ?_, ?_, ?_, ?_⟩⟩
  · have hsplit : splitCharPointer 0 (readyReply plans).sumAppendSize
        (readyReply plans).clusterSliceSizes =
        some (offsets 0 (pieceBytes cfg.blockSize pieces)) := by
      show splitCharPointer 0 (plans.map (·.appendSize)).sum (plans.map (·.appendSize)) = _
      rw [hsizes, splitCharPointer_sum]
    have hkeys : (readyReply plans).appendKeys.length = plans.length := length_map _
    have hbytes : (readyReply plans).clusterSliceSizes = pieceBytes cfg.blockSize pieces := hsizes
    have hptrs := splitForSetDataAndParity_pieces hof.nodup hcuts cfg.blockSize
    rw [hof.data, hof.globals, hof.locals] at hptrs
    have hrun := encodeInPlace_eq hof hbuf hencode
    unfold blockSlot at hrun
    unfold Client.cutAndSend
    rw [hsplit, hkeys, hbytes]
    simp only [bind_eq_bind, bind_some, hptrs, ← map_append, range'_append_1]
    rw [hrun, bind_some, hstreams]
    rfl
  · have hall := hset.streams
    rw [SetRun.stripe, SetRun.data, List.map_map] at hall
    exact hcarry.mp hall
  · rw [length_map, length_range']
  · rw [length_map, length_range']
  · intro i plan hi j slice hj
    obtain ⟨piece, hpiece, hp⟩ := exists_plan_piece hplans hi
    have hmem : slice.blockId ∈ pieceOrder pieces :=
      mem_flatMap.mpr ⟨piece, mem_of_getElem? hpiece, hp.mem (mem_of_getElem? hj)⟩
    have hle := hof.le
    have hn : cfg.n = cfg.k + cfg.r + cfg.z := rfl
    rw [← slot_eq_sum hof.nodup hplans hi hj, getElem?_map, getElem?_map]
    rcases hof.mem_iff.mp hmem with hlt | ⟨hge, hlt⟩
    · rw [if_pos (by omega), getElem?_range' hlt, zero_add, one_mul]
      rfl
    · rw [if_neg (by omega), getElem?_range' (by omega), one_mul, Nat.add_sub_cancel' hge]
      rfl
  · rw [blockIds_pieces hplans, range_eq_range']
    exact hof.order_perm
  · intro plan hplan
    obtain ⟨piece, -, hp⟩ := forall₂_mem_right hplans hplan
    exact hp.slice
  · rw [SetRun.stripe, SetRun.data, List.map_map]
    exact hcarry.mpr hwhole
  · intro b hb t ht
    rw [SetRun.stripe, SetRun.data, List.map_map]
    exact byteAt_codeword (genMatrix_systematic cfg.codeType)
      (padded_blocks (setData_blocks hof hbuf) hof.le) hb ht

end

theorem ids_groupPiece (g : ℕ) :
    (groupPiece cfg group cfg.k g).ids = bucket (groupToBlocks cfg.n group) g :=
  (bucket_eq_parts g).symm

theorem padded_setData (cfg : SysConfig) (pieces : List Piece) (buffer : List UInt8) :
    padded cfg.k cfg.blockSize (setData cfg cfg.k pieces buffer) = setData cfg cfg.k pieces buffer := by
  have hlen : (setData cfg cfg.k pieces buffer).length = cfg.k := by
    rw [setData, length_map, length_range']
  rw [padded, hlen, Nat.sub_self, replicate_zero, append_nil]

theorem clientSet_stores_iff (h : SetLayout cfg group) (hbuf : buffer.length = cfg.blockSize * cfg.n)
    (hplans : Forall₂ (PlanOf cfg group stripeId) (range (numGroups cfg group)) plans) :
    ∃ run, Client.set cfg (readyReply plans) buffer = some run ∧
      (SetStores cfg stripeId cfg.k buffer plans run ↔ ∀ g < numGroups cfg group,
        SentWhole ((bucket (groupToBlocks cfg.n group) g).flatMap
          (setBlock cfg cfg.k (setPieces cfg group) buffer))) := by
  have hpieces : Forall₂ (fun p plan => BlockPlan cfg stripeId p.ids plan) (setPieces cfg group)
      plans := by
    rw [setPieces, forall₂_map_left_iff]
    exact hplans.imp fun g plan hp => (ids_groupPiece g).symm ▸ hp.toBlockPlan
  obtain ⟨run, hrun, hstores⟩ := cutAndSend_stores_iff (h.piecesOf le_rfl) hbuf
    (fun data => encodeWith (genMatrix cfg.codeType) cfg.k cfg.r cfg.z data cfg.blockSize) h.cutsInto
    (by rw [padded_setData]) hpieces
  refine ⟨run, hrun, hstores.trans ?_⟩
  simp only [setPieces, List.forall_mem_map, mem_range, ids_groupPiece]

end

end

end Mlrc
