import Mlrc.Data.Bytes
import Mlrc.Data.Run

/-!
# Routing recovery streams to their handlers

All recovery streams of a datanode come in at one port.  A peer announces the key of its stream in front
of the bytes; one handler at a time accepts for all, and parks a connection under the key it announces.

* `recoveryStreamKey`   the key of a stream, and `recoveryStreamKey_injective`;
* `readRecoveryStreamKey`   what is read of an announcement, and how it fails;
* `routeStep`   one step of a peer or of a handler in `takeRecoverySocket`;
* `RouteMove`   what a step can do;
* `recovery_streams_routed`   a handler gets its own stream and no other;
* `broken_peer_isolated_iff`   when a connection that breaks fails no other recovery.
-/

namespace Mlrc

open List Option Function

variable {h c₀ : ℕ} {pc : RoutePc}

/-! ## Keys -/

/-- what a recovery stream is for; a `std::string` is a list of bytes -/
structure StreamTuple where
  blockKey : List UInt8
  blockId : ℤ
  recoveryOffset : ℤ
  recoverySize : ℤ
  commitToken : List UInt8
deriving DecidableEq, Repr

def newline : UInt8 := 10

def recoveryStreamKey (t : StreamTuple) : List UInt8 :=
  t.blockKey ++ newline :: (toDecimal t.blockId ++ newline :: (toDecimal t.recoveryOffset ++ newline ::
    (toDecimal t.recoverySize ++ newline :: t.commitToken)))

theorem newline_not_mem_toDecimal (n : ℤ) : newline ∉ toDecimal n := by
  intro h
  exact absurd (mem_toDecimal h).1 (by decide)

theorem recoveryStreamKey_injective {t t' : StreamTuple} (ht : newline ∉ t.blockKey)
    (ht' : newline ∉ t'.blockKey) (h : recoveryStreamKey t = recoveryStreamKey t') : t = t' := by
  obtain ⟨hblock, h⟩ := append_sep_inj ht ht' h
  obtain ⟨hid, h⟩ := append_sep_inj (newline_not_mem_toDecimal _) (newline_not_mem_toDecimal _) h
  obtain ⟨hoffset, h⟩ := append_sep_inj (newline_not_mem_toDecimal _) (newline_not_mem_toDecimal _) h
  obtain ⟨hsize, htoken⟩ := append_sep_inj (newline_not_mem_toDecimal _)
    (newline_not_mem_toDecimal _) h
  cases t
  cases t'
  simp only [StreamTuple.mk.injEq]
  exact ⟨hblock, toDecimal_injective hid, toDecimal_injective hoffset, toDecimal_injective hsize,
    htoken⟩

theorem recoveryStreamKey_ne_nil (t : StreamTuple) : recoveryStreamKey t ≠ [] := by
  unfold recoveryStreamKey
  exact append_ne_nil_of_right_ne_nil _ (cons_ne_nil _ _)

/-! ## Announcements -/

/-- the errors that are told apart; `wouldBlock` is `would_block` or `try_again` -/
inductive AsioError where
  | wouldBlock
  | other
deriving DecidableEq, Repr

/-- what a peer sends, and whether the connection ends behind it -/
structure Peer where
  bytes : List UInt8
  closes : Bool
deriving DecidableEq, Repr

def writeRecoveryStreamKey (key : List UInt8) : List UInt8 := le32 (key.length % 2 ^ 32) ++ key

def invalidKeySize (size : ℕ) : Bool := size = 0 ∨ 64 * 1024 < size

/-- `read_recovery_stream_key`: the key and the error.  A length that is not accepted sets no error and
leaves the key empty.  An accepted socket is a blocking one: a read that the peer does not complete fails
when the connection ends, and waits (`none`) while it is open. -/
def readRecoveryStreamKey (peer : Peer) : Option (List UInt8 × Option AsioError) :=
  match readLe32 peer.bytes with
  | none => if peer.closes then some ([], some .other) else none
  | some (size, rest) =>
    if invalidKeySize size then some ([], none)
    else if rest.length < size then
      if peer.closes then some (rest ++ replicate (size - rest.length) 0, some .other) else none
    else some (rest.take size, none)

/-- the peer announces the key, in a length that is accepted -/
def Announces (peer : Peer) (key : List UInt8) : Prop :=
  key.length ≤ 64 * 1024 ∧ ∃ rest, peer.bytes = writeRecoveryStreamKey key ++ rest

/-- the connection ends in front of or within the key -/
def Broken (peer : Peer) : Prop :=
  peer.closes = true ∧
    match readLe32 peer.bytes with
    | none => True
    | some (size, rest) => invalidKeySize size = false ∧ rest.length < size

/-! ## Handlers -/

/-- where a call of `takeRecoverySocket` is; `loop` is the head of its loop, `accepting` has the role of
the accept leader, `accepted` and `acceptFailed` are in front of the lock -/
inductive RoutePc where
  | idle
  | loop
  | accepting
  | reading (conn : ℕ)
  | accepted (conn : ℕ) (receivedKey : List UInt8)
  | acceptFailed (error : AsioError)
  | took (conn : ℕ)
  | timedOut
  | failed (error : AsioError)
deriving DecidableEq, Repr

/-- connections are numbered in no particular order -/
structure RouteSystem where
  acceptInProgress : Bool := false
  pendingRecoverySockets : List UInt8 → Option ℕ := fun _ => none
  /-- connections that no one has accepted yet -/
  backlog : List ℕ := []
  arrived : List ℕ := []
  pc : ℕ → RoutePc := fun _ => .idle

inductive RouteEvent where
  | connect (conn : ℕ)
  | call (h : ℕ)
  /-- the deadline of the call has passed -/
  | expire (h : ℕ)
  | poll (h : ℕ)
  | accept (h : ℕ)
  | acceptError (h : ℕ) (error : AsioError)
  | readKey (h : ℕ)
  | settle (h : ℕ)
deriving DecidableEq, Repr

def RouteSystem.setPc (s : RouteSystem) (h : ℕ) (pc : RoutePc) : RouteSystem :=
  { s with pc := update s.pc h pc }

def takeParked (expectedKey : List UInt8) (h conn : ℕ) (s : RouteSystem) : RouteSystem :=
  { s with
    pendingRecoverySockets := update s.pendingRecoverySockets expectedKey none
    pc := update s.pc h (.took conn) }

/-- the section under the lock at the head of the loop.  A handler that waits for the leader starts the
loop again. -/
def pollPending (expectedKey : List UInt8) (h : ℕ) (s : RouteSystem) : RouteSystem :=
  match s.pendingRecoverySockets expectedKey with
  | some conn => takeParked expectedKey h conn s
  | none =>
    if s.acceptInProgress then s
    else { s with acceptInProgress := true, pc := update s.pc h .accepting }

def acceptFirst (h conn : ℕ) (rest : List ℕ) (s : RouteSystem) : RouteSystem :=
  { s with backlog := rest, pc := update s.pc h (.reading conn) }

/-- the connection whose key was read, or the error of the read -/
def keyRead (peer : Peer) (conn : ℕ) : Option RoutePc :=
  match readRecoveryStreamKey peer with
  | some (receivedKey, none) => some (.accepted conn receivedKey)
  | some (_, some error) => some (.acceptFailed error)
  | none => none

/-- the section under the lock behind the accept, for a connection with a key -/
def parkAccepted (h conn : ℕ) (receivedKey : List UInt8) (s : RouteSystem) : RouteSystem :=
  { s with
    acceptInProgress := false
    pendingRecoverySockets := update s.pendingRecoverySockets receivedKey (some conn)
    pc := update s.pc h .loop }

def leaveAccept (h : ℕ) (error : AsioError) (s : RouteSystem) : RouteSystem :=
  { s with
    acceptInProgress := false
    pc := update s.pc h (if error = .wouldBlock then .loop else .failed error) }

/-- one step; `key h` is the key that handler `h` expects -/
def routeStep (peer : ℕ → Peer) (key : ℕ → List UInt8) : RouteEvent → RouteSystem → Option RouteSystem
  | .connect conn, s =>
    if conn ∈ s.arrived then none
    else some { s with backlog := s.backlog ++ [conn], arrived := conn :: s.arrived }
  | .call h, s => if s.pc h = .idle then some (s.setPc h .loop) else none
  | .expire h, s => if s.pc h = .loop then some (s.setPc h .timedOut) else none
  | .poll h, s => if s.pc h = .loop then some (pollPending (key h) h s) else none
  | .accept h, s =>
    if s.pc h = .accepting then
      match s.backlog with
      | [] => some (s.setPc h (.acceptFailed .wouldBlock))
      | conn :: rest => some (acceptFirst h conn rest s)
    else none
  | .acceptError h error, s =>
    if s.pc h = .accepting then some (s.setPc h (.acceptFailed error)) else none
  | .readKey h, s =>
    match s.pc h with
    | .reading conn => (keyRead (peer conn) conn).map (s.setPc h)
    | _ => none
  | .settle h, s =>
    match s.pc h with
    | .accepted conn receivedKey => some (parkAccepted h conn receivedKey s)
    | .acceptFailed error => some (leaveAccept h error s)
    | _ => none

/-! ## Reading an announcement -/

theorem invalidKeySize_eq_false {size : ℕ} :
    invalidKeySize size = false ↔ 0 < size ∧ size ≤ 64 * 1024 := by
  unfold invalidKeySize
  rw [decide_eq_false_iff_not]
  omega

section
variable {p : Peer} {k k' : List UInt8}

theorem readRecoveryStreamKey_of_announces (h : Announces p k) (hk : k ≠ []) :
    readRecoveryStreamKey p = some (k, none) := by
  obtain ⟨hlen, rest, hbytes⟩ := h
  have hpos : 0 < k.length := length_pos_of_ne_nil hk
  unfold writeRecoveryStreamKey at hbytes
  rw [Nat.mod_eq_of_lt (by omega), append_assoc] at hbytes
  unfold readRecoveryStreamKey
  rw [hbytes, readLe32_le32 (by omega)]
  have hvalid : invalidKeySize k.length = false := invalidKeySize_eq_false.mpr ⟨hpos, hlen⟩
  simp only [hvalid]
  rw [if_neg Bool.false_ne_true, if_neg (by rw [length_append]; omega), take_left]

theorem announces_of_readRecoveryStreamKey (h : readRecoveryStreamKey p = some (k, none)) (hk : k ≠ []) :
    Announces p k := by
  unfold readRecoveryStreamKey at h
  split at h
  · split at h <;> cases h
  · rename_i size rest hread
    by_cases hinvalid : invalidKeySize size = true
    · rw [if_pos hinvalid, some.injEq] at h
      exact absurd (Prod.mk.inj h).1.symm hk
    · rw [if_neg hinvalid] at h
      by_cases hshort : rest.length < size
      · rw [if_pos hshort] at h
        split at h <;> cases h
      · rw [if_neg hshort, some.injEq, Prod.mk.injEq] at h
        have hlen : k.length = size := by
          rw [← h.1, length_take]
          omega
        have hle := (invalidKeySize_eq_false.mp (Bool.eq_false_iff.mpr hinvalid)).2
        refine ⟨by omega, rest.drop size, ?_⟩
        unfold writeRecoveryStreamKey
        rw [hlen, Nat.mod_eq_of_lt (by omega), eq_le32_of_readLe32 hread, append_assoc, ← h.1,
          take_append_drop]

theorem Announces.unique (h : Announces p k) (hk : k ≠ []) (h' : Announces p k') (hk' : k' ≠ []) :
    k = k' := by
  have hread := readRecoveryStreamKey_of_announces h hk
  rw [readRecoveryStreamKey_of_announces h' hk'] at hread
  exact (Prod.mk.inj (some.inj hread)).1.symm

theorem broken_iff : Broken p ↔ ∃ k, readRecoveryStreamKey p = some (k, some .other) := by
  unfold Broken readRecoveryStreamKey
  cases readLe32 p.bytes with
  | none => cases p.closes <;> simp
  | some read =>
    obtain ⟨size, rest⟩ := read
    cases p.closes <;> by_cases hinvalid : invalidKeySize size = true <;>
      by_cases hshort : rest.length < size <;> simp [hinvalid, hshort]

theorem eq_other_of_readRecoveryStreamKey {error : AsioError}
    (h : readRecoveryStreamKey p = some (k, some error)) : error = .other := by
  unfold readRecoveryStreamKey at h
  repeat' split at h
  all_goals cases h
  all_goals rfl

end

/-! ## Where a connection is -/

def RoutePc.conn : RoutePc → Option ℕ
  | .reading conn => some conn
  | .accepted conn _ => some conn
  | .took conn => some conn
  | _ => none

inductive Place where
  | backlog
  | handler (h : ℕ)
  | parked (key : List UInt8)
deriving DecidableEq

def At (s : RouteSystem) (conn : ℕ) : Place → Prop
  | .backlog => conn ∈ s.backlog
  | .handler h => (s.pc h).conn = some conn
  | .parked key => s.pendingRecoverySockets key = some conn

/-- the key of a connection that the handler holds is known -/
def PcOk (peer : ℕ → Peer) (key : ℕ → List UInt8) (h : ℕ) : RoutePc → Prop
  | .accepted c k => readRecoveryStreamKey (peer c) = some (k, none)
  | .took c => readRecoveryStreamKey (peer c) = some (key h, none)
  | _ => True

/-- a connection is in one place, and was announced as that place says -/
structure RouteInv (peer : ℕ → Peer) (key : ℕ → List UInt8) (s : RouteSystem) : Prop where
  backlog_nodup : s.backlog.Nodup
  arrived : ∀ c p, At s c p → c ∈ s.arrived
  unique : ∀ c p q, At s c p → At s c q → p = q
  parked : ∀ k c, s.pendingRecoverySockets k = some c →
    readRecoveryStreamKey (peer c) = some (k, none)
  keys : ∀ h, PcOk peer key h (s.pc h)

/-! ## What a step can do -/

/-- why a handler that lets go of what it holds goes on at a place -/
def Cause (peer : ℕ → Peer) (s : RouteSystem) (e : RouteEvent) (h : ℕ) : RoutePc → Prop
  | .acceptFailed error => error = .wouldBlock ∨ e = .acceptError h error ∨
      ∃ c k, s.pc h = .reading c ∧ readRecoveryStreamKey (peer c) = some (k, some error)
  | .failed error => s.pc h = .acceptFailed error ∧ error ≠ .wouldBlock
  | _ => True

/-- the moves of a step: a connection comes, a handler lets go of what it holds, takes a parked
connection, accepts one, reads its key or parks it -/
inductive RouteMove (peer : ℕ → Peer) (key : ℕ → List UInt8) (s : RouteSystem) :
    RouteEvent → RouteSystem → Prop
  | connect {c : ℕ} (hnew : c ∉ s.arrived) :
      RouteMove peer key s (.connect c) { s with backlog := s.backlog ++ [c], arrived := c :: s.arrived }
  | release {e : RouteEvent} {h : ℕ} {pc : RoutePc} (flag : Bool) (hpc : pc.conn = none)
      (hcause : Cause peer s e h pc) :
      RouteMove peer key s e { s with acceptInProgress := flag, pc := update s.pc h pc }
  | wait {e : RouteEvent} : RouteMove peer key s e s
  | take {e : RouteEvent} {h c : ℕ} (hparked : s.pendingRecoverySockets (key h) = some c) :
      RouteMove peer key s e (takeParked (key h) h c s)
  | accept {e : RouteEvent} {h c : ℕ} {rest : List ℕ} (hbacklog : s.backlog = c :: rest) :
      RouteMove peer key s e (acceptFirst h c rest s)
  | read {e : RouteEvent} {h c : ℕ} {k : List UInt8} (hpc : s.pc h = .reading c)
      (hkey : readRecoveryStreamKey (peer c) = some (k, none)) :
      RouteMove peer key s e (s.setPc h (.accepted c k))
  | park {e : RouteEvent} {h c : ℕ} {k : List UInt8} (hpc : s.pc h = .accepted c k) :
      RouteMove peer key s e (parkAccepted h c k s)

section
variable {peer : ℕ → Peer} {key : ℕ → List UInt8} {s s' : RouteSystem} {e : RouteEvent}

theorem routeStep_move (h : routeStep peer key e s = some s') : RouteMove peer key s e s' := by
  cases e with
  | connect c =>
    obtain ⟨hnew, h⟩ := ite_none_left_eq_some.mp h
    cases h
    exact .connect hnew
  | call j | expire j =>
    obtain ⟨-, h⟩ := ite_none_right_eq_some.mp h
    cases h
    exact .release s.acceptInProgress rfl trivial
  | poll j =>
    obtain ⟨-, h⟩ := ite_none_right_eq_some.mp h
    cases h
    unfold pollPending
    cases hparked : s.pendingRecoverySockets (key j) with
    | some c => exact .take hparked
    | none =>
      simp only
      split
      · exact .wait
      · exact .release true rfl trivial
  | accept j =>
    obtain ⟨-, h⟩ := ite_none_right_eq_some.mp h
    cases hbacklog : s.backlog with
    | nil =>
      rw [hbacklog] at h
      cases h
      exact .release s.acceptInProgress rfl (.inl rfl)
    | cons c rest =>
      rw [hbacklog] at h
      cases h
      exact .accept hbacklog
  | acceptError j error =>
    obtain ⟨-, h⟩ := ite_none_right_eq_some.mp h
    cases h
    exact .release s.acceptInProgress rfl (.inr (.inl rfl))
  | readKey j =>
    cases hpc : s.pc j with
    | reading c =>
      simp only [routeStep, hpc, keyRead] at h
      rcases hread : readRecoveryStreamKey (peer c) with _ | ⟨k, _ | error⟩
      · rw [hread] at h
        cases h
      · rw [hread] at h
        cases h
        exact .read hpc hread
      · rw [hread] at h
        cases h
        exact .release s.acceptInProgress rfl (.inr (.inr ⟨c, k, hpc, hread⟩))
    | _ => simp only [routeStep, hpc, reduceCtorEq] at h
  | settle j =>
    cases hpc : s.pc j with
    | accepted c k =>
      simp only [routeStep, hpc, some.injEq] at h
      subst h
      exact .park hpc
    | acceptFailed error =>
      simp only [routeStep, hpc, some.injEq] at h
      subst h
      by_cases herror : error = .wouldBlock
      · rw [leaveAccept, if_pos herror]
        exact .release false rfl trivial
      · rw [leaveAccept, if_neg herror]
        exact .release false rfl ⟨hpc, herror⟩
    | _ => simp only [routeStep, hpc, reduceCtorEq] at h

/-! ## A connection stays in one place -/

theorem update_eq_cases {α β : Type*} [DecidableEq α] {f : α → β} {a b : α} {v x : β}
    (h : update f a v b = x) : b = a ∧ v = x ∨ f b = x := by
  by_cases hb : b = a
  · subst hb
    rw [update_self] at h
    exact .inl ⟨rfl, h⟩
  · rw [update_of_ne hb] at h
    exact .inr h

theorem conn_update {f : ℕ → RoutePc} {j c : ℕ}
    (hat : (update f h pc j).conn = some c) : j = h ∧ pc.conn = some c ∨ (f j).conn = some c := by
  rcases update_eq_cases (x := update f h pc j) rfl with ⟨hj, heq⟩ | heq
  · rw [← heq] at hat
    exact .inl ⟨hj, hat⟩
  · rw [← heq] at hat
    exact .inr hat

section
variable (hI : RouteInv peer key s)
include hI

theorem places_of_move {old new : Place}
    (hsub : ∀ c p, At s' c p → At s c p ∨ c = c₀ ∧ p = new) (hold : At s c₀ old)
    (hgone : ¬At s' c₀ old) :
    (∀ c p, At s' c p → c ∈ s.arrived) ∧ ∀ c p q, At s' c p → At s' c q → p = q := by
  have hmoved : ∀ p, At s' c₀ p → p = new := by
    intro p hp
    rcases hsub c₀ p hp with hsame | ⟨-, hnew⟩
    · rw [hI.unique c₀ p old hsame hold] at hp
      exact absurd hp hgone
    · exact hnew
  refine ⟨fun c p hp => ?_, fun c p q hp hq => ?_⟩
  · rcases hsub c p hp with hsame | ⟨rfl, -⟩
    · exact hI.arrived c p hsame
    · exact hI.arrived c old hold
  · by_cases hc : c = c₀
    · subst hc
      rw [hmoved p hp, hmoved q hq]
    · have hstay : ∀ p, At s' c p → At s c p := fun p hp =>
        (hsub c p hp).resolve_right fun hne => hc hne.1
      exact hI.unique c p q (hstay p hp) (hstay q hq)

theorem keys_update (hpc : PcOk peer key h pc) (j : ℕ) : PcOk peer key j (update s.pc h pc j) :=
  (forall_update_iff s.pc fun j pc => PcOk peer key j pc).mpr ⟨hpc, fun j _ => hI.keys j⟩ j

theorem RouteInv.took (hpc : s.pc h = .took c₀) :
    readRecoveryStreamKey (peer c₀) = some (key h, none) := by
  have hkey := hI.keys h
  rwa [hpc] at hkey

/-- the handler keeps its connection, or has none -/
theorem RouteInv.setPc (flag : Bool) (hconn : pc.conn = none ∨ pc.conn = (s.pc h).conn)
    (hpc : PcOk peer key h pc) :
    RouteInv peer key { s with acceptInProgress := flag, pc := update s.pc h pc } := by
  have hsub : ∀ c p, At { s with acceptInProgress := flag, pc := update s.pc h pc } c p →
      At s c p := by
    intro c p hp
    cases p with
    | handler j =>
      rcases conn_update hp with ⟨rfl, hc⟩ | hc
      · rcases hconn with hnone | hsame
        · rw [hnone] at hc
          cases hc
        · exact hsame.symm.trans hc
      · exact hc
    | backlog => exact hp
    | parked k => exact hp
  exact ⟨hI.backlog_nodup, fun c p hp => hI.arrived c p (hsub c p hp),
    fun c p q hp hq => hI.unique c p q (hsub c p hp) (hsub c q hq), hI.parked, keys_update hI hpc⟩

theorem RouteInv.connect (hnew : c₀ ∉ s.arrived) :
    RouteInv peer key { s with backlog := s.backlog ++ [c₀], arrived := c₀ :: s.arrived } := by
  have hsub : ∀ c p, At { s with backlog := s.backlog ++ [c₀], arrived := c₀ :: s.arrived } c p →
      At s c p ∨ c = c₀ ∧ p = .backlog := by
    intro c p hp
    cases p with
    | backlog =>
      rcases mem_append.mp hp with hp | hp
      · exact .inl hp
      · exact .inr ⟨mem_singleton.mp hp, rfl⟩
    | handler j => exact .inl hp
    | parked k => exact .inl hp
  refine ⟨?_, fun c p hp => ?_, fun c p q hp hq => ?_, hI.parked, hI.keys⟩
  · refine nodup_append.mpr ⟨hI.backlog_nodup, nodup_singleton _, fun a ha b hb hab => ?_⟩
    rw [hab, mem_singleton.mp hb] at ha
    exact hnew (hI.arrived c₀ .backlog ha)
  · rcases hsub c p hp with hp | ⟨rfl, -⟩
    · exact mem_cons_of_mem _ (hI.arrived c p hp)
    · exact mem_cons_self
  · -- the new connection was nowhere before
    rcases hsub c p hp with hp' | ⟨rfl, rfl⟩ <;> rcases hsub c q hq with hq' | ⟨hc, rfl⟩
    · exact hI.unique c p q hp' hq'
    · subst hc
      exact absurd (hI.arrived c p hp') hnew
    · exact absurd (hI.arrived c q hq') hnew
    · rfl

theorem RouteInv.take (hparked : s.pendingRecoverySockets (key h) = some c₀) :
    RouteInv peer key (takeParked (key h) h c₀ s) := by
  have hold : At s c₀ (.parked (key h)) := hparked
  have hsub : ∀ c p, At (takeParked (key h) h c₀ s) c p → At s c p ∨ c = c₀ ∧ p = .handler h := by
    intro c p hp
    cases p with
    | backlog => exact .inl hp
    | handler j =>
      rcases conn_update hp with ⟨rfl, hconn⟩ | hconn
      · exact .inr ⟨(some.inj hconn).symm, rfl⟩
      · exact .inl hconn
    | parked k =>
      rcases update_eq_cases hp with ⟨-, hnone⟩ | hp
      · cases hnone
      · exact .inl hp
  have hgone : ¬At (takeParked (key h) h c₀ s) c₀ (.parked (key h)) := by
    intro hp
    have hnone : update s.pendingRecoverySockets (key h) none (key h) = some c₀ := hp
    rw [update_self] at hnone
    cases hnone
  obtain ⟨harrived, hunique⟩ := places_of_move hI hsub hold hgone
  refine ⟨hI.backlog_nodup, harrived, hunique, fun k c hk => ?_,
    keys_update hI (hI.parked (key h) c₀ hparked)⟩
  rcases update_eq_cases hk with ⟨-, hnone⟩ | hk
  · cases hnone
  · exact hI.parked k c hk

theorem RouteInv.accept {rest : List ℕ}
    (hbacklog : s.backlog = c₀ :: rest) : RouteInv peer key (acceptFirst h c₀ rest s) := by
  obtain ⟨hrest, hnodup⟩ := nodup_cons.mp (hbacklog ▸ hI.backlog_nodup)
  have hold : At s c₀ .backlog := by
    show c₀ ∈ s.backlog
    rw [hbacklog]
    exact mem_cons_self
  have hsub : ∀ c p, At (acceptFirst h c₀ rest s) c p → At s c p ∨ c = c₀ ∧ p = .handler h := by
    intro c p hp
    cases p with
    | backlog =>
      refine .inl ?_
      show c ∈ s.backlog
      rw [hbacklog]
      exact mem_cons_of_mem _ hp
    | handler j =>
      rcases conn_update hp with ⟨rfl, hconn⟩ | hconn
      · exact .inr ⟨(some.inj hconn).symm, rfl⟩
      · exact .inl hconn
    | parked k => exact .inl hp
  obtain ⟨harrived, hunique⟩ := places_of_move hI hsub hold hrest
  exact ⟨hnodup, harrived, hunique, hI.parked, keys_update hI trivial⟩

theorem RouteInv.park {k₀ : List UInt8}
    (hpc : s.pc h = .accepted c₀ k₀) : RouteInv peer key (parkAccepted h c₀ k₀ s) := by
  have hold : At s c₀ (.handler h) := by
    show (s.pc h).conn = some c₀
    rw [hpc]
    rfl
  have hsub : ∀ c p, At (parkAccepted h c₀ k₀ s) c p → At s c p ∨ c = c₀ ∧ p = .parked k₀ := by
    intro c p hp
    cases p with
    | backlog => exact .inl hp
    | handler j =>
      rcases conn_update hp with ⟨-, hnone⟩ | hconn
      · cases hnone
      · exact .inl hconn
    | parked k =>
      rcases update_eq_cases hp with ⟨rfl, heq⟩ | hp
      · exact .inr ⟨(some.inj heq).symm, rfl⟩
      · exact .inl hp
  have hgone : ¬At (parkAccepted h c₀ k₀ s) c₀ (.handler h) := by
    intro hp
    have hloop : (update s.pc h .loop h).conn = some c₀ := hp
    rw [update_self] at hloop
    cases hloop
  obtain ⟨harrived, hunique⟩ := places_of_move hI hsub hold hgone
  refine ⟨hI.backlog_nodup, harrived, hunique, fun k c hk => ?_, keys_update hI trivial⟩
  rcases update_eq_cases hk with ⟨rfl, heq⟩ | hk
  · cases heq
    have hkey := hI.keys h
    rwa [hpc] at hkey
  · exact hI.parked k c hk

theorem RouteInv.move (hmove : RouteMove peer key s e s') : RouteInv peer key s' := by
  cases hmove with
  | connect hnew => exact hI.connect hnew
  | @release _ _ pc flag hpc =>
    refine hI.setPc flag (.inl hpc) ?_
    cases pc <;> trivial
  | wait => exact hI
  | take hparked => exact hI.take hparked
  | accept hbacklog => exact hI.accept hbacklog
  | read hpc hkey => exact hI.setPc s.acceptInProgress (.inr (by rw [hpc]; rfl)) hkey
  | park hpc => exact hI.park hpc

end

theorem routeInv_init : RouteInv peer key {} where
  backlog_nodup := nodup_nil
  arrived := fun c p hp => by cases p <;> cases hp
  unique := fun c p q hp => by cases p <;> cases hp
  parked := fun k c hk => by cases hk
  keys := fun _ => trivial

theorem run_routeInv {es : List RouteEvent} (hrun : run (routeStep peer key) es {} = some s) :
    RouteInv peer key s :=
  run_invariant (fun _ _ _ hI hstep => hI.move (routeStep_move hstep)) routeInv_init hrun

end

/-- **Main result.** Streams for different things have different keys, whatever the commit tokens are.
In every run, a handler takes a connection on which exactly its key was announced, no connection is taken
twice, and a connection that was announced for something goes to the handler of that. -/
theorem recovery_streams_routed (peer : ℕ → Peer) (tuple : ℕ → StreamTuple)
    (hkey : ∀ h, newline ∉ (tuple h).blockKey) {es : List RouteEvent} {s : RouteSystem}
    (hrun : run (routeStep peer fun h => recoveryStreamKey (tuple h)) es {} = some s) :
    (∀ t t' : StreamTuple, newline ∉ t.blockKey → newline ∉ t'.blockKey → t ≠ t' →
      recoveryStreamKey t ≠ recoveryStreamKey t') ∧
    (∀ h c, s.pc h = .took c → Announces (peer c) (recoveryStreamKey (tuple h))) ∧
    (∀ h h' c, s.pc h = .took c → s.pc h' = .took c → h = h') ∧
    ∀ h c t, s.pc h = .took c → newline ∉ t.blockKey → Announces (peer c) (recoveryStreamKey t) →
      t = tuple h := by
  have hI := run_routeInv hrun
  have hannounced : ∀ h c, s.pc h = .took c → Announces (peer c) (recoveryStreamKey (tuple h)) :=
    fun h c hc => announces_of_readRecoveryStreamKey (hI.took hc) (recoveryStreamKey_ne_nil _)
  refine ⟨fun t t' ht ht' hne heq => hne (recoveryStreamKey_injective ht ht' heq), hannounced,
    fun h h' c hc hc' => ?_, fun h c t hc ht hannounces => ?_⟩
  · have hplace := hI.unique c (.handler h) (.handler h')
      (by show (s.pc h).conn = some c; rw [hc]; rfl) (by show (s.pc h').conn = some c; rw [hc']; rfl)
    exact Place.handler.inj hplace
  · refine recoveryStreamKey_injective ht (hkey h) ?_
    exact hannounces.unique (recoveryStreamKey_ne_nil _) (hannounced h c hc)
      (recoveryStreamKey_ne_nil _)

/-- two streams for block `a`, with tokens `1` and `2` -/
def twoStreams (h : ℕ) : StreamTuple where
  blockKey := [97]
  blockId := 0
  recoveryOffset := 0
  recoverySize := 4
  commitToken := if h = 0 then [49] else [50]

/-- a peer that announces the key of a handler -/
def announcing (tuple : ℕ → StreamTuple) (h : ℕ) : Peer where
  bytes := writeRecoveryStreamKey (recoveryStreamKey (tuple h))
  closes := true

/-- handler 0 accepts the stream of handler 1 first -/
def twoStreamsRun : List RouteEvent :=
  [.connect 0, .connect 1, .call 0, .call 1, .poll 0, .accept 0, .readKey 0, .settle 0, .poll 1,
    .poll 0, .accept 0, .readKey 0, .settle 0, .poll 0]

theorem recovery_streams_routed_two :
    ∃ s, run (routeStep (fun c => announcing twoStreams (1 - c))
        fun h => recoveryStreamKey (twoStreams h)) twoStreamsRun {} = some s ∧
      s.pc 0 = .took 1 ∧ s.pc 1 = .took 0 ∧
      Announces (announcing twoStreams 0) (recoveryStreamKey (twoStreams 0)) := by
  have hpcs : (run (routeStep (fun c => announcing twoStreams (1 - c))
      fun h => recoveryStreamKey (twoStreams h)) twoStreamsRun {}).map (fun s => (s.pc 0, s.pc 1)) =
      some (.took 1, .took 0) := by decide +kernel
  obtain ⟨s, hrun, hs⟩ := map_eq_some_iff.mp hpcs
  obtain ⟨h0, h1⟩ := Prod.mk.inj hs
  exact ⟨s, hrun, h0, h1,
    (recovery_streams_routed _ twoStreams (fun _ => show newline ∉ [97] by decide) hrun).2.1 0 1 h0⟩

/-! ## Connections that break -/

/-- the connections that come, and whether the accept itself can fail for good -/
def Allowed (comes : ℕ → Prop) (acceptFails : Prop) : RouteEvent → Prop
  | .connect c => comes c
  | .acceptError _ error => error = .wouldBlock ∨ acceptFails
  | _ => True

theorem Allowed.mono {comes : ℕ → Prop} {acceptFails : Prop} {e : RouteEvent}
    (h : Allowed comes acceptFails e) (hfails : ¬acceptFails) : Allowed comes False e := by
  cases e with
  | acceptError j error => exact .inl (h.resolve_right hfails)
  | _ => exact h

structure Unbroken (comes : ℕ → Prop) (s : RouteSystem) : Prop where
  comes : ∀ c ∈ s.arrived, comes c
  retried : ∀ h e, s.pc h = .acceptFailed e → e = .wouldBlock
  running : ∀ h e, s.pc h ≠ .failed e

section
variable {peer : ℕ → Peer} {key : ℕ → List UInt8} {comes : ℕ → Prop} {acceptFails : Prop}
  {s s' : RouteSystem} {e : RouteEvent}

theorem Unbroken.update (hU : Unbroken comes s)
    (harrived : s'.arrived = s.arrived) (hpc : s'.pc = update s.pc h pc)
    (hretried : ∀ e, pc = .acceptFailed e → e = .wouldBlock) (hrunning : ∀ e, pc ≠ .failed e) :
    Unbroken comes s' := by
  refine ⟨by rw [harrived]; exact hU.comes, fun j e hj => ?_, fun j e hj => ?_⟩
  · rw [hpc] at hj
    rcases update_eq_cases hj with ⟨-, heq⟩ | hj
    · exact hretried e heq
    · exact hU.retried j e hj
  · rw [hpc] at hj
    rcases update_eq_cases hj with ⟨-, heq⟩ | hj
    · exact hrunning e heq
    · exact hU.running j e hj

theorem Unbroken.step (hU : Unbroken comes s) (hI : RouteInv peer key s)
    (hpeer : ∀ c, comes c → ¬Broken (peer c)) (hallowed : Allowed comes False e)
    (h : routeStep peer key e s = some s') : Unbroken comes s' := by
  cases routeStep_move h with
  | connect => exact ⟨forall_mem_cons.mpr ⟨hallowed, hU.comes⟩, hU.retried, hU.running⟩
  | wait => exact hU
  | take | accept | read | park => exact hU.update rfl rfl nofun nofun
  | @release _ j pc _ _ hcause =>
    refine hU.update rfl rfl (fun error hpc => ?_) fun error hpc => ?_
    · subst hpc
      rcases hcause with hblock | rfl | ⟨c, k, hpc, hread⟩
      · exact hblock
      · exact hallowed.resolve_right id
      · -- the connection has come, so it is not broken
        have hcomes : comes c := by
          refine hU.comes c (hI.arrived c (.handler j) ?_)
          show (s.pc j).conn = some c
          rw [hpc]
          rfl
        cases eq_other_of_readRecoveryStreamKey hread
        exact absurd (broken_iff.mpr ⟨k, hread⟩) (hpeer c hcomes)
    · subst hpc
      exact hcause.2 (hU.retried j error hcause.1)

theorem comes_step (hcomes : ∀ c ∈ s.arrived, comes c) (hallowed : Allowed comes acceptFails e)
    (h : routeStep peer key e s = some s') : ∀ c ∈ s'.arrived, comes c := by
  cases routeStep_move h with
  | connect => exact forall_mem_cons.mpr ⟨hallowed, hcomes⟩
  | release | wait | take | accept | read | park => exact hcomes

theorem fails_of_accept (h c : ℕ) :
    (run (routeStep peer key) [.connect c, .call h, .poll h, .acceptError h .other, .settle h] {}).map
      (fun s => (s.pc h, s.arrived)) = some (.failed .other, [c]) := by
  simp [run, routeStep, pollPending, leaveAccept, RouteSystem.setPc]

theorem fails_of_broken (h : ℕ) {c : ℕ} (hne : c ≠ c₀) (hbroken : Broken (peer c₀)) :
    (run (routeStep peer key)
      [.connect c₀, .connect c, .call h, .poll h, .accept h, .readKey h, .settle h] {}).map
      (fun s => (s.pc h, s.arrived)) = some (.failed .other, [c, c₀]) := by
  rw [broken_iff] at hbroken
  obtain ⟨k, hkey⟩ := hbroken
  have hread : keyRead (peer c₀) c₀ = some (.acceptFailed .other) := by
    unfold keyRead
    rw [hkey]
  simp [run, routeStep, pollPending, acceptFirst, leaveAccept, RouteSystem.setPc, hne, hread]

end

/-- **Main result.** For given connections that come: in every run, no handler fails although its own
connection has arrived intact, exactly when none of them is broken and the accept does not fail for
good, or when none announces the key of a handler. -/
theorem broken_peer_isolated_iff (peer : ℕ → Peer) (tuple : ℕ → StreamTuple) (comes : ℕ → Prop)
    (acceptFails : Prop) :
    (∀ es s, (∀ e ∈ es, Allowed comes acceptFails e) →
      run (routeStep peer fun h => recoveryStreamKey (tuple h)) es {} = some s →
      ∀ h error c, s.pc h = .failed error → c ∈ s.arrived →
        ¬Announces (peer c) (recoveryStreamKey (tuple h))) ↔
      ¬acceptFails ∧ (∀ c, comes c → ¬Broken (peer c)) ∨
        ∀ h c, comes c → ¬Announces (peer c) (recoveryStreamKey (tuple h)) := by
  constructor
  · intro hall
    by_contra hnot
    rw [not_or] at hnot
    obtain ⟨hcause, hown⟩ := hnot
    push Not at hown
    obtain ⟨h, c, hcomes, hannounces⟩ := hown
    by_cases hfails : acceptFails
    · obtain ⟨s, hrun, hs⟩ := map_eq_some_iff.mp (fails_of_accept h c)
      obtain ⟨hpc, harrived⟩ := Prod.mk.inj hs
      refine hall _ s ?_ hrun h _ c hpc (by rw [harrived]; exact mem_cons_self) hannounces
      simp [Allowed, hcomes, hfails]
    · obtain ⟨c₀, hcomes₀, hbroken⟩ : ∃ c₀, comes c₀ ∧ Broken (peer c₀) := by
        by_contra hnone
        push Not at hnone
        exact hcause ⟨hfails, hnone⟩
      have hne : c ≠ c₀ := by
        rintro rfl
        obtain ⟨k, hread⟩ := broken_iff.mp hbroken
        rw [readRecoveryStreamKey_of_announces hannounces (recoveryStreamKey_ne_nil _)] at hread
        cases hread
      obtain ⟨s, hrun, hs⟩ := map_eq_some_iff.mp (fails_of_broken h hne hbroken)
      obtain ⟨hpc, harrived⟩ := Prod.mk.inj hs
      refine hall _ s ?_ hrun h _ c hpc (by rw [harrived]; exact mem_cons_self) hannounces
      simp [Allowed, hcomes, hcomes₀]
  · intro hcond es s hallowed hrun h error c hfailed harrived
    have halong : Along (routeStep peer fun h => recoveryStreamKey (tuple h))
        (fun e _ => Allowed comes acceptFails e) es {} := along_of_mem hallowed _
    rcases hcond with ⟨hfails, hpeer⟩ | hown
    · -- no handler fails at all
      have hinit : RouteInv peer (fun h => recoveryStreamKey (tuple h)) {} ∧ Unbroken comes {} :=
        ⟨routeInv_init, forall_mem_nil _, fun _ _ h => (by cases h), fun _ _ h => (by cases h)⟩
      have hU := run_along (I := fun s => RouteInv peer (fun h => recoveryStreamKey (tuple h)) s ∧
        Unbroken comes s) (fun e s s' hI hallowed hstep => ⟨hI.1.move (routeStep_move hstep),
        hI.2.step hI.1 hpeer (hallowed.mono hfails) hstep⟩) hinit halong hrun
      exact absurd hfailed (hU.2.running h error)
    · have hcomes := run_along (I := fun s => ∀ c ∈ s.arrived, comes c)
        (fun e s s' hI hallowed hstep => comes_step hI hallowed hstep) (forall_mem_nil _) halong hrun
      exact hown h c (hcomes c harrived)

/-- peer 0 sends a length that is not accepted, peer 1 announces a key that no handler expects, the
others announce the key of handler 0 -/
def oddPeer (c : ℕ) : Peer :=
  if c = 0 then { bytes := [0, 0, 0, 0], closes := true }
  else if c = 1 then { bytes := writeRecoveryStreamKey [97], closes := true }
  else announcing twoStreams 0

def oddRun : List RouteEvent :=
  [.connect 0, .connect 1, .connect 2, .call 0, .poll 0, .accept 0, .readKey 0, .settle 0, .poll 0,
    .accept 0, .readKey 0, .settle 0, .poll 0, .accept 0, .readKey 0, .settle 0, .poll 0]

theorem odd_peers_isolated :
    ∃ s, run (routeStep oddPeer fun h => recoveryStreamKey (twoStreams h)) oddRun {} = some s ∧
      s.pc 0 = .took 2 ∧ ∀ h error c, s.pc h = .failed error → c ∈ s.arrived →
        ¬Announces (oddPeer c) (recoveryStreamKey (twoStreams h)) := by
  have hpc : (run (routeStep oddPeer fun h => recoveryStreamKey (twoStreams h)) oddRun {}).map
      (fun s => s.pc 0) = some (.took 2) := by decide +kernel
  obtain ⟨s, hrun, hs⟩ := map_eq_some_iff.mp hpc
  have hunbroken : ∀ c, ¬Broken (oddPeer c) := by
    intro c hbroken
    obtain ⟨k, hread⟩ := broken_iff.mp hbroken
    have herror : (readRecoveryStreamKey (oddPeer c)).map Prod.snd = some none := by
      unfold oddPeer
      split
      · decide
      · split
        · decide
        · decide +kernel
    rw [hread] at herror
    cases herror
  refine ⟨s, hrun, hs, ?_⟩
  exact (broken_peer_isolated_iff oddPeer twoStreams (fun _ => True) False).mpr
    (.inl ⟨id, fun c _ => hunbroken c⟩) _ s (by simp [Allowed, oddRun]) hrun

/-- peer 0 closes at once, peer 1 announces the key of handler 0 -/
def closingPeer (c : ℕ) : Peer :=
  if c = 0 then { bytes := [], closes := true } else announcing twoStreams 0

/-- handler 0 accepts the connection that closes, and fails while its own one waits -/
theorem closing_peer_fails_recovery :
    (run (routeStep closingPeer fun h => recoveryStreamKey (twoStreams h))
      [.connect 0, .connect 1, .call 0, .poll 0, .accept 0, .readKey 0, .settle 0] {}).map
      (fun s => (s.pc 0, s.arrived, s.backlog)) = some (.failed .other, [1, 0], [1]) ∧
    Announces (closingPeer 1) (recoveryStreamKey (twoStreams 0)) := by
  refine ⟨by decide +kernel, by decide, [], ?_⟩
  rw [append_nil]
  rfl

end Mlrc
