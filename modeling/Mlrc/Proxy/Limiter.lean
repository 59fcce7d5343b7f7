import Mathlib
import Mlrc.Data.Run

/-!
# The shared bandwidth limiter

Every flow of a node reserves a slot on one timeline before it sends a chunk, or after it has
received one.  A timeline that is more than 30 seconds ahead is thrown away, and the slots on it
then overlap the later ones.

* `resume_ge`   a flow does not go on before its slot begins;
* `Paced.step`   how far the timeline is ahead, by the flows that still sleep;
* `limiter_paces`   with few enough flows the slots never overlap.
-/

namespace Mlrc

open List Function

/-- `node_block_transfer_seconds`, cast to the nanoseconds of the steady clock -/
def nodeBlockTransfer (mbps : ℚ) (nbytes : ℕ) : ℕ :=
  if mbps ≤ 0 ∨ nbytes = 0 then 0
  else ⌊(nbytes : ℚ) / (mbps * 1024 * 1024) * 10 ^ 9⌋₊

/-- `std::chrono::seconds(30)` -/
def snapBack : ℕ := 30 * 10 ^ 9

/-- the chunks of `tcp_write_with_shared_bandwidth` and `tcp_read_with_shared_bandwidth` -/
def sharedChunkSize : ℕ := 1024 * 1024

def chunkTicks (mbps : ℚ) : ℕ := nodeBlockTransfer mbps sharedChunkSize

/-- the start of the slot that both functions take under the lock -/
def slotStart (nextSlot now : ℕ) : ℕ :=
  let nextSlot := if now + snapBack < nextSlot then now else nextSlot
  if now < nextSlot then nextSlot else now

/-- `SharedBandwidthPace`, with the time that the transfer itself has taken -/
inductive SharedBandwidthPace where
  | Primary
  | DrainThenAccount (ioElapsed : ℕ)

/-- until when `wait_for_transfer` and `account_after_io` sleep -/
def SharedBandwidthPace.resume (now start ideal : ℕ) : SharedBandwidthPace → ℕ
  | .Primary => max now start
  | .DrainThenAccount ioElapsed => now + (start + ideal - now - min ioElapsed ideal)

structure Slot where
  asked : ℕ
  start : ℕ
  stop : ℕ

structure LimiterState where
  clock : ℕ
  nextSlot : ℕ
  /-- until when each flow sleeps -/
  asleep : ℕ → ℕ := fun _ => 0
  slots : List Slot := []

structure ChunkCall where
  flow : ℕ
  now : ℕ
  nbytes : ℕ
  pace : SharedBandwidthPace

/-- the calls in the order in which they get the lock -/
def limiterStep (mbps : ℚ) (e : ChunkCall) (s : LimiterState) : Option LimiterState :=
  if e.now < s.clock ∨ e.now < s.asleep e.flow then none
  else if mbps ≤ 0 ∨ e.nbytes = 0 then some s
  else
    let start := slotStart s.nextSlot e.now
    let ideal := nodeBlockTransfer mbps e.nbytes
    some {
      clock := e.now
      nextSlot := start + ideal
      asleep := update s.asleep e.flow (e.pace.resume e.now start ideal)
      slots := s.slots ++ [⟨e.now, start, start + ideal⟩] }

theorem resume_ge (pace : SharedBandwidthPace) (now start ideal : ℕ) :
    start ≤ pace.resume now start ideal := by
  cases pace with
  | Primary => exact le_max_right _ _
  | DrainThenAccount ioElapsed =>
    have hcredit : min ioElapsed ideal ≤ ideal := min_le_right _ _
    show start ≤ now + (start + ideal - now - min ioElapsed ideal)
    omega

theorem nodeBlockTransfer_mono (mbps : ℚ) {m n : ℕ} (h : m ≤ n) :
    nodeBlockTransfer mbps m ≤ nodeBlockTransfer mbps n := by
  unfold nodeBlockTransfer
  by_cases hm : mbps ≤ 0 ∨ m = 0
  · rw [if_pos hm]
    exact Nat.zero_le _
  · push Not at hm
    have hbw := hm.1
    rw [if_neg (by push Not; exact hm), if_neg (by push Not; exact ⟨hbw, by omega⟩)]
    gcongr

theorem slotStart_eq {nextSlot now : ℕ} (h : nextSlot ≤ now + snapBack) :
    slotStart nextSlot now = max nextSlot now := by
  unfold slotStart
  simp only [if_neg (Nat.not_lt.mpr h)]
  split_ifs <;> omega

/-- the flows that sleep beyond `t` -/
def sleepers (n : ℕ) (asleep : ℕ → ℕ) (t : ℕ) : Finset ℕ :=
  (Finset.range n).filter fun i => t < asleep i

/-- the timeline of `n` flows with chunks of at most `d` ticks -/
structure Paced (n d t₀ : ℕ) (s : LimiterState) : Prop where
  /-- the slots ahead of `t` are those of the flows that sleep beyond `t`, and at most one more -/
  ahead : ∀ t, s.clock ≤ t → s.nextSlot ≤ t + (1 + (sleepers n s.asleep t).card) * d
  stop : ∀ slot ∈ s.slots, slot.stop ≤ s.nextSlot
  apart : s.slots.Pairwise fun a b => a.stop ≤ b.start
  prompt : ∀ slot ∈ s.slots, slot.asked ≤ slot.start ∧ slot.start ≤ slot.asked + n * d
  total : t₀ + (s.slots.map fun slot => slot.stop - slot.start).sum ≤ s.nextSlot

section
variable {mbps : ℚ} {n d t₀ : ℕ} {s s' : LimiterState} {e : ChunkCall}

theorem card_sleepers_lt {asleep : ℕ → ℕ} {flow t : ℕ} (hflow : flow < n) (h : asleep flow ≤ t) :
    (sleepers n asleep t).card < n := by
  have hsub : sleepers n asleep t ⊂ Finset.range n := by
    refine (Finset.filter_ssubset).mpr ⟨flow, Finset.mem_range.mpr hflow, ?_⟩
    omega
  simpa using Finset.card_lt_card hsub

theorem card_sleepers_update {asleep : ℕ → ℕ} {flow t u : ℕ} (hflow : flow < n) (h : asleep flow ≤ t)
    (hu : t < u) : (sleepers n (update asleep flow u) t).card = (sleepers n asleep t).card + 1 := by
  have hinsert : sleepers n (update asleep flow u) t = insert flow (sleepers n asleep t) := by
    ext i
    rw [sleepers, Finset.mem_filter, Finset.mem_insert, sleepers, Finset.mem_filter, Finset.mem_range]
    by_cases hi : i = flow
    · subst hi
      simp [hflow, hu]
    · simp [hi]
  rw [hinsert, Finset.card_insert_of_notMem (by simp [sleepers]; omega)]

theorem Paced.nextSlot_le (h : Paced n d t₀ s) (hflow : e.flow < n) (hclock : s.clock ≤ e.now)
    (hawake : s.asleep e.flow ≤ e.now) : s.nextSlot ≤ e.now + n * d := by
  have hcard := card_sleepers_lt hflow hawake
  calc s.nextSlot ≤ e.now + (1 + (sleepers n s.asleep e.now).card) * d := h.ahead e.now hclock
    _ ≤ e.now + n * d := Nat.add_le_add_left (Nat.mul_le_mul_right d (by omega)) _

theorem Paced.step (hn : n * chunkTicks mbps ≤ snapBack) (hflow : e.flow < n)
    (hsize : e.nbytes ≤ sharedChunkSize) (h : Paced n (chunkTicks mbps) t₀ s)
    (hstep : limiterStep mbps e s = some s') : Paced n (chunkTicks mbps) t₀ s' := by
  have hideal : _ ≤ chunkTicks mbps := nodeBlockTransfer_mono mbps hsize
  generalize chunkTicks mbps = d at *
  unfold limiterStep at hstep
  split_ifs at hstep with hguard hoff
  · cases hstep
    exact h
  push Not at hguard
  obtain ⟨hclock, hawake⟩ := hguard
  have hnext := h.nextSlot_le hflow hclock hawake
  have hstart : slotStart s.nextSlot e.now = max s.nextSlot e.now := slotStart_eq (by omega)
  simp only [hstart, Option.some.injEq] at hstep
  subst hstep
  generalize nodeBlockTransfer mbps e.nbytes = ideal at *
  have hresume := resume_ge e.pace e.now (max s.nextSlot e.now) ideal
  have hmax : s.nextSlot ≤ max s.nextSlot e.now := le_max_left _ _
  refine ⟨fun t (ht : e.now ≤ t) => ?_, ?_, ?_, ?_, ?_⟩ <;> simp only
  · by_cases hlt : max s.nextSlot e.now ≤ t
    · rw [Nat.add_mul, Nat.one_mul]
      omega
    · -- a slot that begins after `t` is taken by a flow that was awake at `t`
      have hahead := h.ahead t (hclock.trans ht)
      rw [card_sleepers_update hflow (hawake.trans ht) (by omega), ← Nat.add_assoc, Nat.add_mul, Nat.one_mul]
      omega
  · rw [forall_mem_append, forall_mem_singleton]
    exact ⟨fun slot hslot => (h.stop slot hslot).trans (by omega), le_rfl⟩
  · refine pairwise_append.mpr ⟨h.apart, pairwise_singleton _ _, fun a ha b hb => ?_⟩
    obtain rfl := mem_singleton.mp hb
    exact (h.stop a ha).trans hmax
  · rw [forall_mem_append, forall_mem_singleton]
    exact ⟨h.prompt, le_max_right _ _, by simp only; omega⟩
  · have htotal := h.total
    rw [map_append, sum_append]
    simp only [map_cons, map_nil, sum_cons, sum_nil, Nat.add_sub_cancel_left]
    omega

end

end Mlrc
