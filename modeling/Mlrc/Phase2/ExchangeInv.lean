import Mlrc.Phase2.Exchange

/-!
# What the exchange keeps

Whatever a thread stores into a block buffer is the right stripe of that block, and a flag or a counter
that lets another thread read a stripe is set behind the copy.

* `Holds`   a stripe of a buffer is the stripe of its failed block;
* `PartInv`   the invariant of a partition;
* `localStep_inv`   every step inside a partition keeps it;
* `phase2Step_inv`   every step of the system keeps it, with only right frames on the way;
* `run_sent`   in every run, the writer of a partition that returns true has sent its block.
-/

namespace Mlrc

open List Option Function

variable {s peer i : ℕ} {req : Phase2Request}

/-- stripe `s` of buffer `t` is the stripe that block has -/
def Holds (len : ℕ) (want : ℕ → ℕ → List UInt8) (recovered : ℕ → List UInt8) (t s : ℕ) : Prop :=
  readAt (recovered t) (s * len) len = want t s

theorem holds_write {len size : ℕ} {want : ℕ → ℕ → List UInt8} {recovered : ℕ → List UInt8} {t : ℕ}
    (hsize : (recovered t).length = size) (hs : (s + 1) * len ≤ size)
    (hlen : (want t s).length = len) :
    Holds len want (update recovered t (writeAt (recovered t) (s * len) (want t s))) t s ∧
      ∀ t' s', Holds len want recovered t' s' → Holds len want
        (update recovered t (writeAt (recovered t) (s * len) (want t s))) t' s' := by
  rw [Nat.succ_mul] at hs
  have hoff : s * len ≤ (recovered t).length := by omega
  have hself : Holds len want
      (update recovered t (writeAt (recovered t) (s * len) (want t s))) t s := by
    unfold Holds
    rw [update_self]
    have hread : readAt (writeAt (recovered t) (s * len) (want t s)) (s * len) (want t s).length =
      want t s := readAt_writeAt hoff
    rwa [hlen] at hread
  refine ⟨hself, fun t' s' hold => ?_⟩
  by_cases ht : t' = t
  · subst ht
    by_cases hss : s' = s
    · subst hss
      exact hself
    · unfold Holds
      rw [update_self, readAt_writeAt_ne hoff, hold]
      rw [hlen]
      -- different stripes do not overlap
      rcases lt_or_gt_of_ne hss with hlt | hgt
      · left
        rw [← Nat.succ_mul]
        exact Nat.mul_le_mul_right len hlt
      · right
        rw [← Nat.succ_mul]
        exact Nat.mul_le_mul_right len hgt
  · unfold Holds
    rw [update_of_ne ht]
    exact hold

theorem length_update_writeAt {bufs : ℕ → List UInt8} {size t k len : ℕ} {cells : List UInt8}
    (hsize : ∀ t, (bufs t).length = size) (hend : (k + 1) * len ≤ size) (hlen : cells.length = len)
    (t' : ℕ) : (update bufs t (writeAt (bufs t) (k * len) cells) t').length = size := by
  refine (forall_update_iff bufs fun _ buf => buf.length = size).mpr ⟨?_, fun t _ => hsize t⟩ t'
  rw [length_writeAt, hsize]
  rw [hsize, hlen, ← Nat.succ_mul]
  exact hend

/-- stripe `s` of the failed block `t` is `want t s`; the stripes lie inside the blocks -/
structure BlockExchange where
  cfg : Config
  disk : Datanodes
  f : ℕ
  len : ℕ
  total : ℕ
  want : ℕ → ℕ → List UInt8
  size : total * len ≤ cfg.blockSize
  want_length : ∀ t < f, ∀ s < total, (want t s).length = len

theorem BlockExchange.stripe_end (x : BlockExchange) (hs : s < x.total) :
    (s + 1) * x.len ≤ x.cfg.blockSize :=
  le_trans (Nat.mul_le_mul_right x.len hs) x.size

/-- what the requests of one shard plan have in common, and what their decoder computes -/
structure RequestOk (x : BlockExchange) (i : ℕ) (req : Phase2Request) : Prop where
  id : req.partitionId = i
  lt : i < x.f
  failed_length : req.failedBlockIds.length = x.f
  len_eq : req.stripeByteLen = x.len
  total_eq : req.shardCount = x.total
  range_le : req.shardBegin + req.shardCountLocal ≤ x.total
  off_eq : req.byteOff = req.shardBegin * x.len
  peer_lt : ∀ peer ∈ req.peers, peer.partitionId < x.f
  peer_le : ∀ j b c, lookupPeerShards req j = some (b, c) → b + c ≤ x.total
  decode : ∀ start p k, phase2Start x.cfg req = .ok start → k < req.shardCountLocal →
    (∀ h helper block, req.helpers[h]? = some helper →
      x.disk helper.blockKey helper.datanodeIp helper.datanodePort = some block →
      p.getBufs h = readAt block req.byteOff req.byteLen) →
    decodeLocalShard req start p k = some ((range x.f).map fun t => x.want t (req.shardBegin + k))

/-- the local shard the decode worker has not counted yet -/
def DecodePc.shard : DecodePc → Option ℕ
  | .decode k => some k
  | .copy k _ _ => some k
  | .mark k => some k
  | .count k => some k
  | .idle => none
  | .release => none

def Phase2Partition.handed (p : Phase2Partition) : ℕ :=
  p.decodedShards + (if p.decodeWorker.shard.isSome then 1 else 0) +
    if p.decodeSubmitShard.isSome then 1 else 0

def AllRead (req : Phase2Request) (p : Phase2Partition) : Prop :=
  ∀ h < req.helpers.length, p.helperRead h = true

/-- the writer: `H s` says that stripe `s` is in the buffer of its block -/
structure StreamInv (H : ℕ → Prop) (want : ℕ → List UInt8) (ws : Phase2WriteStream) : Prop where
  ready : ∀ s, ws.ready s = true → H s
  sending : ∀ s, ws.sending = some s → s = ws.sent.length ∧ ws.nextShard = s + 1 ∧ H s
  resting : ws.sending = none → ws.nextShard = ws.sent.length
  sent : ws.sent = (range ws.sent.length).map fun s => (s, want s)
  closed : ws.closed = true → ws.sending = none

theorem StreamInv.mono {H H' : ℕ → Prop} {want : ℕ → List UInt8} {ws : Phase2WriteStream}
    (h : StreamInv H want ws) (hH : ∀ s, H s → H' s) : StreamInv H' want ws :=
  { h with
    ready := fun s hs => hH s (h.ready s hs)
    sending := fun s hs => ⟨(h.sending s hs).1, (h.sending s hs).2.1, hH s (h.sending s hs).2.2⟩ }

/-- what holds of a receive worker of partition `i` -/
structure RecvOk (x : BlockExchange) (i : ℕ) (recovered : ℕ → List UInt8) (pc : RecvPc) : Prop where
  received : ∀ s stripe, pc = .copy s stripe → s < x.total ∧ stripe = x.want i s
  stored : ∀ s, pc = .mark s → Holds x.len x.want recovered i s

/-- the invariant of partition `i` -/
structure PartInv (x : BlockExchange) (i : ℕ) (req : Phase2Request) (p : Phase2Partition) : Prop where
  bufs : ∀ h helper block, req.helpers[h]? = some helper →
    x.disk helper.blockKey helper.datanodeIp helper.datanodePort = some block →
    p.helperRead h = true → p.getBufs h = readAt block req.byteOff req.byteLen
  size : ∀ t, (p.recovered t).length = x.cfg.blockSize
  waiting : ∀ k, p.main = .waitHelpers k → k = p.handed ∧ k < req.shardCountLocal
  submitting : ∀ k, p.main = .submit k → k = p.handed ∧ k < req.shardCountLocal ∧ AllRead req p
  submitted : ∀ k, p.decodeSubmitShard = some k → k + 1 = p.handed ∧ k < req.shardCountLocal ∧
    AllRead req p
  worker : ∀ k, p.decodeWorker.shard = some k → k = p.decodedShards ∧ k < req.shardCountLocal ∧
    AllRead req p
  decoded : ∀ k < p.decodedShards, ∀ t < x.f, Holds x.len x.want p.recovered t (req.shardBegin + k)
  copying : ∀ k out t, p.decodeWorker = .copy k out t → t < x.f ∧
    out = ((range x.f).map fun t => x.want t (req.shardBegin + k)) ∧
    ∀ t' < t, Holds x.len x.want p.recovered t' (req.shardBegin + k)
  copied : ∀ k, p.decodeWorker = .mark k ∨ p.decodeWorker = .count k →
    ∀ t < x.f, Holds x.len x.want p.recovered t (req.shardBegin + k)
  recv : ∀ j, RecvOk x i p.recovered (p.recvWorker j)
  stream : ∀ ws, p.writeStream = some ws → StreamInv (Holds x.len x.want p.recovered i) (x.want i) ws
  target : ∀ ws, p.writeStream = some ws → phase2WriteTarget x.cfg req = some ws.target
  noStream : p.writeStream = none → p.exchangeFailed = false → phase2WriteTarget x.cfg req = none
  verdict : p.main = .returned true →
    (∀ ws, p.writeStream = some ws → ws.closed = true ∧ ws.nextShard = x.total) ∧
      (p.writeStream = none → phase2WriteTarget x.cfg req = none)

section
variable {x : BlockExchange} {i : ℕ} {req : Phase2Request} {p p' : Phase2Partition}

theorem eq_of_nextShardPc {k k' : ℕ} (h : nextShardPc req k = .waitHelpers k') :
    k = k' ∧ k < req.shardCountLocal := by
  unfold nextShardPc at h
  split at h
  · next hlt =>
    cases h
    exact ⟨rfl, hlt⟩
  · cases h

theorem nextShardPc_ne {k : ℕ} {pc : MainPc} (hwait : ∀ k', MainPc.waitHelpers k' ≠ pc)
    (hdrain : MainPc.drain ≠ pc) : nextShardPc req k ≠ pc := by
  unfold nextShardPc
  split
  · exact hwait k
  · exact hdrain

/-! ## Changes that several threads make -/

variable (hreq : RequestOk x i req) (hI : PartInv x i req p)
include hI

theorem PartInv.buffers {recovered : ℕ → List UInt8}
    (hsize : ∀ t, (recovered t).length = x.cfg.blockSize)
    (hmono : ∀ t s, Holds x.len x.want p.recovered t s → Holds x.len x.want recovered t s) :
    PartInv x i req { p with recovered } :=
  { hI with
    size := hsize
    decoded := fun k hk t ht => hmono t _ (hI.decoded k hk t ht)
    copying := fun k out t h => by
      obtain ⟨ht, hout, hall⟩ := hI.copying k out t h
      exact ⟨ht, hout, fun t' ht' => hmono t' _ (hall t' ht')⟩
    copied := fun k h t ht => hmono t _ (hI.copied k h t ht)
    recv := fun j => ⟨(hI.recv j).received, fun s h => hmono i s ((hI.recv j).stored s h)⟩
    stream := fun ws h => (hI.stream ws h).mono fun s => hmono i s }

theorem PartInv.mapStream {g : Phase2WriteStream → Phase2WriteStream}
    (hg : ∀ ws, p.writeStream = some ws →
      StreamInv (Holds x.len x.want p.recovered i) (x.want i) (g ws) ∧ (g ws).target = ws.target ∧
        (ws.closed = true → (g ws).closed = true ∧ (g ws).nextShard = ws.nextShard)) :
    PartInv x i req { p with writeStream := p.writeStream.map g } :=
  { hI with
    stream := fun ws h => by
      obtain ⟨ws, hws, rfl⟩ := map_eq_some_iff.mp h
      exact (hg ws hws).1
    target := fun ws h => by
      obtain ⟨ws, hws, rfl⟩ := map_eq_some_iff.mp h
      rw [(hg ws hws).2.1]
      exact hI.target ws hws
    noStream := fun h => hI.noStream (map_eq_none_iff.mp h)
    verdict := fun hret => by
      obtain ⟨hsome, hnone⟩ := hI.verdict hret
      refine ⟨fun ws h => ?_, fun h => hnone (map_eq_none_iff.mp h)⟩
      obtain ⟨ws, hws, rfl⟩ := map_eq_some_iff.mp h
      obtain ⟨hclosed, hnext⟩ := hsome ws hws
      obtain ⟨hclosed', hnext'⟩ := (hg ws hws).2.2 hclosed
      exact ⟨hclosed', hnext'.trans hnext⟩ }

theorem PartInv.setStream {ws ws' : Phase2WriteStream} (hws : p.writeStream = some ws)
    (hstream : StreamInv (Holds x.len x.want p.recovered i) (x.want i) ws')
    (htarget : ws'.target = ws.target)
    (hend : ws.closed = true → ws'.closed = true ∧ ws'.nextShard = ws.nextShard) :
    PartInv x i req { p with writeStream := some ws' } := by
  have hmap := hI.mapStream (g := fun _ => ws') fun ws₀ h₀ => by
    obtain rfl := some.inj (hws.symm.trans h₀)
    exact ⟨hstream, htarget, hend⟩
  rw [hws] at hmap
  exact hmap

theorem PartInv.mark (hs : Holds x.len x.want p.recovered i s) :
    PartInv x i req (markWriteShardReady req s p) := by
  refine hI.mapStream fun ws hws => ?_
  have hst := hI.stream ws hws
  split
  · refine ⟨{ hst with ready := ?_ }, rfl, fun hc => ⟨hc, rfl⟩⟩
    exact (forall_update_iff ws.ready fun s b => b = true → Holds x.len x.want p.recovered i s).mpr
      ⟨fun _ => hs, fun s _ => hst.ready s⟩
  · exact ⟨hst, rfl, fun hc => ⟨hc, rfl⟩⟩

/-! ## The helper threads and the decode worker -/

theorem readHelperStep_inv {h : ℕ}
    (hstep : readHelperStep x.disk req h p = some p') : PartInv x i req p' := by
  unfold readHelperStep at hstep
  split at hstep
  · cases hstep
  · next helper hhelper =>
    split at hstep
    · cases hstep
    · next block hblock =>
      split at hstep
      · cases hstep
        have hread : ∀ h', p.helperRead h' = true → update p.helperRead h true h' = true :=
          (forall_update_iff p.helperRead fun h' b => p.helperRead h' = true → b = true).mpr
            ⟨fun _ => rfl, fun _ _ hr => hr⟩
        have hall : AllRead req p → AllRead req { p with
            getBufs := update p.getBufs h (readAt block req.byteOff req.byteLen)
            helperRead := update p.helperRead h true } :=
          fun ha h' hh => hread h' (ha h' hh)
        exact { hI with
          bufs := fun h' helper' block' hh' hb' hr => by
            show update p.getBufs h _ h' = _
            by_cases heq : h' = h
            · subst heq
              obtain rfl := some.inj (hhelper.symm.trans hh')
              rw [update_self, some.inj (hblock.symm.trans hb')]
            · rw [update_of_ne heq]
              refine hI.bufs h' helper' block' hh' hb' ?_
              have hr : update p.helperRead h true h' = true := hr
              rwa [update_of_ne heq] at hr
          submitting := fun k hk => ⟨(hI.submitting k hk).1, (hI.submitting k hk).2.1,
            hall (hI.submitting k hk).2.2⟩
          submitted := fun k hk => ⟨(hI.submitted k hk).1, (hI.submitted k hk).2.1,
            hall (hI.submitted k hk).2.2⟩
          worker := fun k hk => ⟨(hI.worker k hk).1, (hI.worker k hk).2.1,
            hall (hI.worker k hk).2.2⟩ }
      · cases hstep

theorem PartInv.setWorker {pc : DecodePc} (hshard : pc.shard = p.decodeWorker.shard)
    (hcopying : ∀ k out t, pc = .copy k out t → t < x.f ∧
      out = ((range x.f).map fun t => x.want t (req.shardBegin + k)) ∧
      ∀ t' < t, Holds x.len x.want p.recovered t' (req.shardBegin + k))
    (hcopied : ∀ k, pc = .mark k ∨ pc = .count k →
      ∀ t < x.f, Holds x.len x.want p.recovered t (req.shardBegin + k)) :
    PartInv x i req { p with decodeWorker := pc } := by
  have hhand : Phase2Partition.handed { p with decodeWorker := pc } = p.handed := by
    show p.decodedShards + (if pc.shard.isSome then 1 else 0) + _ = _
    rw [hshard]
    rfl
  exact { hI with
    waiting := fun k h => by rw [hhand]; exact hI.waiting k h
    submitting := fun k h => by rw [hhand]; exact hI.submitting k h
    submitted := fun k h => by rw [hhand]; exact hI.submitted k h
    worker := fun k h => hI.worker k (hshard ▸ h)
    copying := hcopying
    copied := hcopied }

theorem takeShard_inv (hstep : takeShard p = some p') : PartInv x i req p' := by
  unfold takeShard at hstep
  split at hstep
  · next k hidle hsub =>
    cases hstep
    obtain ⟨hk, hlt, hall⟩ := hI.submitted k hsub
    have hhand : p.handed = p.decodedShards + 1 := by
      unfold Phase2Partition.handed
      rw [hidle, hsub]
      rfl
    have hhand' : Phase2Partition.handed { p with
        decodeWorker := .decode k, decodeSubmitShard := none } = p.handed := by
      rw [hhand]
      rfl
    exact { hI with
      waiting := fun k' h => by rw [hhand']; exact hI.waiting k' h
      submitting := fun k' h => by rw [hhand']; exact hI.submitting k' h
      submitted := fun k' h => by cases h
      worker := fun k' h => by
        obtain rfl : k = k' := some.inj h
        exact ⟨by show k = p.decodedShards; omega, hlt, hall⟩
      copying := fun k' out t h => by cases h
      copied := fun k' h => by rcases h with h | h <;> cases h }
  · cases hstep

include hreq in
theorem decodeShard_inv {start : Phase2Start} (hstart : phase2Start x.cfg req = .ok start)
    (hstep : decodeShard req start p = some p') : PartInv x i req p' := by
  unfold decodeShard at hstep
  split at hstep
  · next k hdec =>
    obtain ⟨hk, hlt, hall⟩ := hI.worker k (by rw [hdec]; rfl)
    have hout := hreq.decode start p k hstart hlt fun h helper block hh hb =>
      hI.bufs h helper block hh hb (hall h (List.getElem?_eq_some_iff.mp hh).1)
    rw [hout] at hstep
    cases hstep
    refine hI.setWorker (by rw [hdec]; rfl) (fun k' out t h => ?_) fun k' h => ?_
    · cases h
      exact ⟨Nat.zero_lt_of_lt hreq.lt, rfl, fun t' ht' => absurd ht' (Nat.not_lt_zero t')⟩
    · rcases h with h | h <;> cases h
  · cases hstep

theorem PartInv.write {t : ℕ} (ht : t < x.f) (hs : s < x.total) : PartInv x i req { p with
        recovered := update p.recovered t (writeAt (p.recovered t) (s * x.len) (x.want t s)) } ∧
    Holds x.len x.want (update p.recovered t (writeAt (p.recovered t) (s * x.len) (x.want t s))) t s ∧
    ∀ t' s', Holds x.len x.want p.recovered t' s' → Holds x.len x.want
      (update p.recovered t (writeAt (p.recovered t) (s * x.len) (x.want t s))) t' s' := by
  have hend := x.stripe_end hs
  have hlen := x.want_length t ht s hs
  obtain ⟨hself, hmono⟩ := holds_write (hI.size t) hend hlen
  exact ⟨hI.buffers (length_update_writeAt hI.size hend hlen) hmono, hself, hmono⟩

include hreq in
theorem copyTarget_inv (hstep : copyTarget req p = some p') : PartInv x i req p' := by
  unfold copyTarget at hstep
  split at hstep
  · next k out t hdec =>
    obtain ⟨hk, hlt, -⟩ := hI.worker k (by rw [hdec]; rfl)
    obtain ⟨ht, rfl, hall⟩ := hI.copying k out t hdec
    have hs : req.shardBegin + k < x.total := by
      have := hreq.range_le
      omega
    have hoff : req.byteOff + k * req.stripeByteLen = (req.shardBegin + k) * x.len := by
      rw [hreq.off_eq, hreq.len_eq, add_mul]
    rw [hoff, getD_map_range _ ht, hreq.failed_length] at hstep
    obtain ⟨hI', hself, hmono⟩ := hI.write ht hs
    cases hstep
    refine hI'.setWorker ?_ (fun k' out' t' h => ?_) fun k' h t' ht' => ?_
    · show DecodePc.shard (if _ then _ else _) = p.decodeWorker.shard
      rw [hdec]
      split <;> rfl
    · split at h
      · next hmore =>
        cases h
        refine ⟨hmore, rfl, fun t' ht' => ?_⟩
        rcases Nat.lt_succ_iff_lt_or_eq.mp ht' with hlt' | rfl
        · exact hmono t' _ (hall t' hlt')
        · exact hself
      · cases h
    · split at h
      · rcases h with h | h <;> cases h
      · next hlast =>
        rcases h with h | h
        · cases h
          rcases lt_or_ge t' t with hlt' | hge
          · exact hmono t' _ (hall t' hlt')
          · obtain rfl : t' = t := by omega
            exact hself
        · cases h
  · cases hstep

include hreq in
theorem markDecoded_inv (hstep : markDecoded req p = some p') : PartInv x i req p' := by
  unfold markDecoded at hstep
  split at hstep
  · next k hdec =>
    cases hstep
    have hheld := hI.copied k (.inl hdec)
    refine (hI.mark (hheld i hreq.lt)).setWorker ?_ (fun k' out t h => ?_) fun k' h => ?_
    · show _ = p.decodeWorker.shard
      rw [hdec]
      rfl
    · cases h
    · rcases h with h | h
      · cases h
      · cases h
        exact hheld
  · cases hstep

theorem countDecoded_inv (hstep : countDecoded p = some p') : PartInv x i req p' := by
  unfold countDecoded at hstep
  split at hstep
  · next k hdec =>
    cases hstep
    obtain ⟨hk, hlt, -⟩ := hI.worker k (by rw [hdec]; rfl)
    have hhand : Phase2Partition.handed { p with decodedShards := k + 1, decodeWorker := .release } =
        p.handed := by
      show k + 1 + 0 + _ = p.decodedShards + (if p.decodeWorker.shard.isSome then 1 else 0) + _
      rw [hdec, hk]
      rfl
    exact { hI with
      waiting := fun k' h => by rw [hhand]; exact hI.waiting k' h
      submitting := fun k' h => by rw [hhand]; exact hI.submitting k' h
      submitted := fun k' h => by rw [hhand]; exact hI.submitted k' h
      worker := fun k' h => by cases h
      decoded := fun k' hk' t ht => by
        rcases Nat.lt_succ_iff_lt_or_eq.mp hk' with hlt' | rfl
        · exact hI.decoded k' (by omega) t ht
        · exact hI.copied k' (.inr hdec) t ht
      copying := fun k' out t h => by cases h
      copied := fun k' h => by rcases h with h | h <;> cases h }
  · cases hstep

theorem releaseShard_inv (hstep : releaseShard p = some p') : PartInv x i req p' := by
  unfold releaseShard at hstep
  split at hstep
  · next hdec =>
    cases hstep
    refine hI.setWorker (by rw [hdec]; rfl) (fun k out t h => ?_) fun k h => ?_
    · cases h
    · rcases h with h | h <;> cases h
  · cases hstep

/-! ## The main thread -/

theorem PartInv.leaveLoop {pc : MainPc}
    (hwait : ∀ k, pc ≠ .waitHelpers k) (hsub : ∀ k, pc ≠ .submit k) (hret : pc = .returned true →
      (∀ ws, p.writeStream = some ws → ws.closed = true ∧ ws.nextShard = x.total) ∧
        (p.writeStream = none → phase2WriteTarget x.cfg req = none)) :
    PartInv x i req { p with main := pc } :=
  { hI with
    waiting := fun k h => absurd h (hwait k)
    submitting := fun k h => absurd h (hsub k)
    verdict := hret }

theorem fail_inv : PartInv x i req { p with exchangeFailed := true } :=
  { hI with noStream := fun _ h => by cases h }

theorem abortStep_inv (hstep : abortStep p = some p') : PartInv x i req p' := by
  unfold abortStep at hstep
  split at hstep
  · cases hstep
  · split at hstep
    · cases hstep
      exact hI.leaveLoop nofun nofun nofun
    · cases hstep

theorem helperRoundDone_inv (hstep : helperRoundDone req p = some p') : PartInv x i req p' := by
  unfold helperRoundDone at hstep
  split at hstep
  · next k hmain =>
    split at hstep
    · next hdone =>
      cases hstep
      obtain ⟨hk, hlt⟩ := hI.waiting k hmain
      exact { hI with
        waiting := fun k' h => by cases h
        submitting := fun k' h => by
          cases h
          refine ⟨hk, hlt, fun h hh => ?_⟩
          exact List.all_eq_true.mp hdone.2 h (mem_range.mpr hh)
        verdict := nofun }
    · cases hstep
  · cases hstep

theorem submitShard_inv (hstep : submitShard req p = some p') : PartInv x i req p' := by
  unfold submitShard at hstep
  split at hstep
  · next k hmain hnone =>
    split at hstep
    · cases hstep
      obtain ⟨hk, hlt, hall⟩ := hI.submitting k hmain
      have hhand : Phase2Partition.handed { p with
          decodeSubmitShard := some k, main := nextShardPc req (k + 1) } = k + 1 := by
        rw [hk]
        unfold Phase2Partition.handed
        rw [hnone]
        rfl
      exact { hI with
        waiting := fun k' h => by
          obtain ⟨rfl, hmore⟩ := eq_of_nextShardPc h
          exact ⟨hhand.symm, hmore⟩
        submitting := fun k' h => absurd h (nextShardPc_ne (fun _ => nofun) nofun)
        submitted := fun k' h => by
          obtain rfl : k = k' := some.inj h
          exact ⟨hhand.symm, hlt, hall⟩
        verdict := fun h => absurd h (nextShardPc_ne (fun _ => nofun) nofun) }
    · cases hstep
  · cases hstep

theorem drained_inv (hstep : drained req p = some p') : PartInv x i req p' := by
  unfold drained at hstep
  split at hstep
  · cases hstep
    have hI' : PartInv x i req { p with decodeDone := true } := { hI with }
    exact hI'.leaveLoop nofun nofun nofun
  · cases hstep

theorem exchangeJoined_inv (hstep : exchangeJoined req p = some p') : PartInv x i req p' := by
  unfold exchangeJoined at hstep
  split at hstep
  · cases hstep
    have hI' := hI.mapStream (g := fun ws => { ws with producerDone := true }) fun ws hws =>
      ⟨{ hI.stream ws hws with }, rfl, fun hc => ⟨hc, rfl⟩⟩
    exact hI'.leaveLoop nofun nofun nofun
  · cases hstep

include hreq in
theorem finish_inv {grpcOk : Bool} (hstep : finish req grpcOk p = some p') : PartInv x i req p' := by
  unfold finish at hstep
  split at hstep
  · split at hstep
    · next hnone =>
      cases hstep
      refine hI.leaveLoop nofun nofun fun h => ?_
      have hok : p.exchangeFailed = false := by simpa using h
      refine ⟨fun ws hws => ?_, fun _ => hI.noStream hnone hok⟩
      rw [hnone] at hws
      cases hws
    · next ws hws =>
      split at hstep
      · next hclosed =>
        cases hstep
        have hI' : PartInv x i req { p with
            exchangeFailed := p.exchangeFailed || decide (ws.nextShard ≠ req.shardCount) || !grpcOk } :=
          { hI with noStream := fun hnone => by rw [hws] at hnone; cases hnone }
        refine hI'.leaveLoop nofun nofun fun h => ?_
        refine ⟨fun ws' hws' => ?_, fun hnone => ?_⟩
        · obtain rfl := some.inj (hws.symm.trans hws')
          have hfail : (p.exchangeFailed || decide (ws.nextShard ≠ req.shardCount) || !grpcOk) = false := by
            simpa using h
          rw [Bool.or_eq_false_iff, Bool.or_eq_false_iff] at hfail
          refine ⟨hclosed, ?_⟩
          rw [← hreq.total_eq]
          exact not_not.mp (of_decide_eq_false hfail.1.2)
        · have hnone : p.writeStream = none := hnone
          rw [hws] at hnone
          cases hnone
      · cases hstep
  · cases hstep

/-! ## The receive workers -/

theorem PartInv.setRecv (peer : ℕ) {pc : RecvPc} (hpc : RecvOk x i p.recovered pc) :
    PartInv x i req { p with recvWorker := update p.recvWorker peer pc } :=
  { hI with
    recv := (forall_update_iff p.recvWorker fun _ => RecvOk x i p.recovered).mpr
      ⟨hpc, fun j _ => hI.recv j⟩ }

include hreq in
theorem storeReceived_inv (hstep : storeReceived req peer p = some p') : PartInv x i req p' := by
  unfold storeReceived at hstep
  split at hstep
  · next s stripe hrecv =>
    obtain ⟨hs, rfl⟩ := (hI.recv peer).received s stripe hrecv
    rw [hreq.id, hreq.len_eq] at hstep
    obtain ⟨hI', hself, -⟩ := hI.write hreq.lt hs
    cases hstep
    refine hI'.setRecv peer ⟨nofun, fun s' h => ?_⟩
    cases h
    exact hself
  · cases hstep

theorem markReceived_inv (hstep : markReceived req peer p = some p') : PartInv x i req p' := by
  unfold markReceived at hstep
  split at hstep
  · next s hrecv =>
    cases hstep
    exact (hI.mark ((hI.recv peer).stored s hrecv)).setRecv peer ⟨nofun, nofun⟩
  · cases hstep

def FrameOk (want : ℕ → List UInt8) (frame : Phase2Frame) : Prop :=
  frame.payload = want frame.shardBegin

include hreq in
theorem acceptFrame_inv {frame : Phase2Frame} (hframe : FrameOk (x.want i) frame)
    (hstep : acceptFrame req peer frame p = some p') : PartInv x i req p' := by
  unfold acceptFrame at hstep
  split at hstep
  · next b c hwait hpeer =>
    split at hstep
    · next hmore =>
      split at hstep
      · next hhead =>
        cases hstep
        have hI' : PartInv x i req { p with
          recvPos := update p.recvPos peer (p.recvPos peer + 1) } := { hI with }
        refine hI'.setRecv peer ⟨fun s stripe h => ?_, nofun⟩
        cases h
        have hle := hreq.peer_le peer b c hpeer
        exact ⟨by omega, hframe⟩
      · cases hstep
        exact fail_inv hI
    · cases hstep
  · cases hstep

include hreq in
theorem sendFrame_ok (hpeer : peer < x.f) {frame : Phase2Frame}
    (hstep : sendFrame req peer p = some frame) : FrameOk (x.want peer) frame := by
  simp only [sendFrame] at hstep
  split at hstep
  · next hk =>
    cases hstep
    have hheld := hI.decoded (p.sendPos peer) hk.2.2 peer hpeer
    show readAt (p.recovered peer) ((req.shardBegin + p.sendPos peer) * req.stripeByteLen)
      req.stripeByteLen = _
    rw [hreq.len_eq]
    exact hheld
  · cases hstep

/-! ## The writer -/

theorem pickShard_inv (hstep : pickShard req p = some p') : PartInv x i req p' := by
  unfold pickShard at hstep
  split at hstep
  · cases hstep
  · next ws hws =>
    split at hstep
    · next hpick =>
      cases hstep
      obtain ⟨-, hopen, hnone, -, hready⟩ := hpick
      have hst := hI.stream ws hws
      have hnext := hst.resting hnone
      refine hI.setStream hws { hst with
        sending := fun s h => ?_, resting := fun h => ?_, closed := fun h => ?_ } rfl fun h => ?_
      · obtain rfl : ws.nextShard = s := some.inj h
        exact ⟨hnext, rfl, hst.ready _ hready⟩
      · cases h
      · exact absurd (hopen.symm.trans h) (by decide)
      · exact absurd (hopen.symm.trans h) (by decide)
    · cases hstep

include hreq in
theorem writeShard_inv (hstep : writeShard req p = some p') : PartInv x i req p' := by
  unfold writeShard at hstep
  split at hstep
  · cases hstep
  · next ws hws =>
    split at hstep
    · cases hstep
    · next s hsend =>
      cases hstep
      have hst := hI.stream ws hws
      obtain ⟨hs, hnext, hheld⟩ := hst.sending s hsend
      have hbytes : readAt (p.recovered req.partitionId) (s * req.stripeByteLen) req.stripeByteLen =
          x.want i s := by
        rw [hreq.id, hreq.len_eq]
        exact hheld
      rw [hbytes]
      refine hI.setStream hws { hst with
        sending := fun s h => ?_, resting := fun _ => ?_, sent := ?_, closed := fun _ => rfl } rfl
        fun h => ?_
      · cases h
      · show ws.nextShard = (ws.sent ++ [(s, x.want i s)]).length
        rw [hnext, hs, length_append]
        rfl
      · show ws.sent ++ [(s, x.want i s)] = (range (ws.sent ++ [(s, x.want i s)]).length).map _
        rw [length_append, length_singleton, range_succ, map_append, ← hst.sent, hs]
        rfl
      · exact absurd (hst.closed h) (by rw [hsend]; exact some_ne_none s)

theorem closeWriter_inv (hstep : closeWriter req p = some p') : PartInv x i req p' := by
  unfold closeWriter at hstep
  split at hstep
  · cases hstep
  · next ws hws =>
    split at hstep
    · next hclose =>
      cases hstep
      have hI' : PartInv x i req { p with
          exchangeFailed := p.exchangeFailed || decide (ws.nextShard ≠ req.shardCount) } :=
        { hI with noStream := fun hnone => by rw [hws] at hnone; cases hnone }
      exact hI'.setStream hws { hI.stream ws hws with closed := fun _ => hclose.2.1 } rfl
        fun _ => ⟨rfl, rfl⟩
    · cases hstep

include hreq in
theorem localStep_inv {start : Phase2Start} (hstart : phase2Start x.cfg req = .ok start)
    {e : LocalEvent} (hstep : localStep x.disk req start e p = some p') : PartInv x i req p' := by
  cases e with
  | fail =>
    cases hstep
    exact fail_inv hI
  | abort => exact abortStep_inv hI hstep
  | readHelper h => exact readHelperStep_inv hI hstep
  | helperRoundDone => exact helperRoundDone_inv hI hstep
  | submitShard => exact submitShard_inv hI hstep
  | takeShard => exact takeShard_inv hI hstep
  | decodeShard => exact decodeShard_inv hreq hI hstart hstep
  | copyTarget => exact copyTarget_inv hreq hI hstep
  | markDecoded => exact markDecoded_inv hreq hI hstep
  | countDecoded => exact countDecoded_inv hI hstep
  | releaseShard => exact releaseShard_inv hI hstep
  | drained => exact drained_inv hI hstep
  | storeReceived peer => exact storeReceived_inv hreq hI hstep
  | markReceived peer => exact markReceived_inv hI hstep
  | exchangeJoined => exact exchangeJoined_inv hI hstep
  | pickShard => exact pickShard_inv hI hstep
  | writeShard => exact writeShard_inv hreq hI hstep
  | closeWriter => exact closeWriter_inv hI hstep
  | finish grpcOk => exact finish_inv hreq hI hstep

end

/-! ## The system -/

section
variable {x : BlockExchange} {requests : List Phase2Request}

structure SystemInv (x : BlockExchange) (requests : List Phase2Request) (s : Phase2System) : Prop where
  part : ∀ i req, requests[i]? = some req → PartInv x i req (s.part i)
  chan : ∀ i j, ∀ frame ∈ s.chan i j, FrameOk (x.want j) frame

theorem SystemInv.setPart {s : Phase2System} (hI : SystemInv x requests s)
    (hi : requests[i]? = some req) {p : Phase2Partition}
    (hp : PartInv x i req p) {chan : ℕ → ℕ → List Phase2Frame}
    (hchan : ∀ i j, ∀ frame ∈ chan i j, FrameOk (x.want j) frame) :
    SystemInv x requests { part := update s.part i p, chan } where
  part := by
    refine (forall_update_iff s.part fun j p => ∀ req, requests[j]? = some req → PartInv x j req p).mpr
      ⟨fun req' hj => ?_, fun j _ => hI.part j⟩
    obtain rfl := some.inj (hi.symm.trans hj)
    exact hp
  chan := hchan

theorem chan_update {chan : ℕ → ℕ → List Phase2Frame}
    (hchan : ∀ i j, ∀ frame ∈ chan i j, FrameOk (x.want j) frame) {i₀ j₀ : ℕ}
    {frames : List Phase2Frame} (hframes : ∀ frame ∈ frames, FrameOk (x.want j₀) frame) :
    ∀ i j, ∀ frame ∈ update chan i₀ (update (chan i₀) j₀ frames) i j, FrameOk (x.want j) frame := by
  refine (forall_update_iff chan fun _ row => ∀ j, ∀ frame ∈ row j, FrameOk (x.want j) frame).mpr
    ⟨?_, fun i _ => hchan i⟩
  exact (forall_update_iff (chan i₀) fun j frames => ∀ frame ∈ frames, FrameOk (x.want j) frame).mpr
    ⟨hframes, fun j _ => hchan i₀ j⟩

theorem phase2Step_inv (hreqs : ∀ i req, requests[i]? = some req → RequestOk x i req)
    (e : Phase2Event) (s s' : Phase2System) (hI : SystemInv x requests s)
    (hstep : phase2Step x.cfg x.disk requests e s = some s') : SystemInv x requests s' := by
  unfold phase2Step at hstep
  cases e with
  | step i e =>
    simp only at hstep
    split at hstep
    · cases hstep
    · next req hi =>
      split at hstep
      · cases hstep
      · next start hstart =>
        obtain ⟨p, hp, rfl⟩ := map_eq_some_iff.mp hstep
        exact hI.setPart hi (localStep_inv (hreqs i req hi) (hI.part i req hi) hstart hp) hI.chan
  | send i peer =>
    simp only at hstep
    split at hstep
    · cases hstep
    · next req hi =>
      split at hstep
      · next hany =>
        obtain ⟨frame, hframe, rfl⟩ := map_eq_some_iff.mp hstep
        have hpart := hI.part i req hi
        obtain ⟨entry, hentry, hid⟩ := List.any_eq_true.mp hany
        have hpeer : peer < x.f := by
          rw [← of_decide_eq_true hid]
          exact (hreqs i req hi).peer_lt entry hentry
        have hsent : PartInv x i req { s.part i with
            sendPos := update (s.part i).sendPos peer ((s.part i).sendPos peer + 1) } :=
          { hpart with }
        refine hI.setPart hi hsent (chan_update hI.chan fun fr hfr => ?_)
        rcases mem_append.mp hfr with hold | hnew
        · exact hI.chan i peer fr hold
        · rw [mem_singleton.mp hnew]
          exact sendFrame_ok (hreqs i req hi) hpart hpeer hframe
      · cases hstep
  | receive i peer =>
    simp only at hstep
    split at hstep
    · next req frame rest hi hchan =>
      obtain ⟨p, hp, rfl⟩ := map_eq_some_iff.mp hstep
      have hall := hI.chan peer i
      rw [hchan] at hall
      refine hI.setPart hi ?_ (chan_update hI.chan fun fr hfr => hall fr (mem_cons_of_mem _ hfr))
      exact acceptFrame_inv (hreqs i req hi) (hI.part i req hi) (hall frame mem_cons_self) hp
    · cases hstep

theorem initPartition_cases (cfg : Config) (req : Phase2Request) :
    (initPartition cfg req).main = .returned false ∧ (initPartition cfg req).writeStream = none ∧
      (initPartition cfg req).exchangeFailed = true ∨
    (initPartition cfg req).main = nextShardPc req 0 ∧
      (initPartition cfg req).writeStream = (phase2WriteTarget cfg req).map fun target => { target } := by
  unfold initPartition
  cases hstart : phase2Start cfg req with
  | error e => exact .inl ⟨rfl, rfl, rfl⟩
  | ok start => exact .inr ⟨rfl, by rw [← (helpers_of_start hstart).2.1]⟩

theorem initPartition_inv : PartInv x i req (initPartition x.cfg req) := by
  refine { bufs := nofun, size := fun _ => length_replicate, submitted := nofun, worker := nofun,
           decoded := fun k h => absurd h (Nat.not_lt_zero k), copying := nofun,
           copied := fun k h => ?copied, recv := fun _ => ⟨nofun, nofun⟩,
           waiting := fun k h => ?waiting, submitting := fun k h => ?submitting,
           stream := fun ws h => ?stream, target := fun ws h => ?target,
           noStream := fun h hok => ?noStream, verdict := fun h => ?verdict }
  case copied => rcases h with h | h <;> cases h
  all_goals rcases initPartition_cases x.cfg req with ⟨hmain, hnone, hfailed⟩ | ⟨hmain, hstream⟩
  case waiting.inl => cases hmain.symm.trans h
  case waiting.inr =>
    obtain ⟨rfl, hlt⟩ := eq_of_nextShardPc (hmain.symm.trans h)
    exact ⟨rfl, hlt⟩
  case submitting.inl => cases hmain.symm.trans h
  case submitting.inr => exact absurd (hmain.symm.trans h) (nextShardPc_ne (fun _ => nofun) nofun)
  case stream.inl => cases hnone.symm.trans h
  case stream.inr =>
    obtain ⟨target, _, rfl⟩ := map_eq_some_iff.mp (hstream.symm.trans h)
    exact ⟨nofun, nofun, fun _ => rfl, rfl, fun _ => rfl⟩
  case target.inl => cases hnone.symm.trans h
  case target.inr =>
    obtain ⟨target, htarget, rfl⟩ := map_eq_some_iff.mp (hstream.symm.trans h)
    exact htarget
  case noStream.inl => cases hfailed.symm.trans hok
  case noStream.inr => exact map_eq_none_iff.mp (hstream.symm.trans h)
  case verdict.inl => cases hmain.symm.trans h
  case verdict.inr => exact absurd (hmain.symm.trans h) (nextShardPc_ne (fun _ => nofun) nofun)

theorem phase2Init_inv : SystemInv x requests (phase2Init x.cfg requests) where
  part := fun i req hi => by
    unfold phase2Init
    simp only [hi]
    exact initPartition_inv
  chan := fun i j frame h => by cases h

theorem run_sent {es : List Phase2Event} {s : Phase2System}
    (hreqs : ∀ i req, requests[i]? = some req → RequestOk x i req)
    (hrun : run (phase2Step x.cfg x.disk requests) es (phase2Init x.cfg requests) = some s)
    (hi : requests[i]? = some req) (hret : (s.part i).main = .returned true) :
    (∀ ws, (s.part i).writeStream = some ws → phase2WriteTarget x.cfg req = some ws.target ∧
      ws.sent = (range x.total).map fun shard => (shard, x.want i shard)) ∧
    ((s.part i).writeStream = none → phase2WriteTarget x.cfg req = none) := by
  have hI := (run_invariant (phase2Step_inv hreqs) phase2Init_inv hrun).part i req hi
  obtain ⟨hsome, hnone⟩ := hI.verdict hret
  refine ⟨fun ws hws => ⟨hI.target ws hws, ?_⟩, hnone⟩
  obtain ⟨hclosed, hnext⟩ := hsome ws hws
  have hst := hI.stream ws hws
  have hall := hst.resting (hst.closed hclosed)
  rw [hst.sent, ← hall, hnext]

end

end Mlrc
