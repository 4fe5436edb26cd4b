import LeAudioReceiver.ModeA.Conserve
import Mathlib.Data.List.Infix
import Mathlib.Tactic.IntervalCases

/-!
# Channels that lose nothing

Two channels deliver the halves of the same events, each in order, and neither runs more than a
queue ahead of the other.  Then the assembler emits every event with both of its halves.

The timestamps of a stream are natural numbers here, and the assembler sees them modulo `2 ^ 32`.

* `Streams.Lossless` : what is asked of the two channels;
* `Tracks` : after `n ch` halves of each channel, the events up to the slower channel have been
  emitted and only the faster channel has halves pending;
* `lossless_pairs` : **every event is emitted, in order, with both of its payloads**, for every
  interleaving of bounded skew.
-/

namespace LeAudioReceiver

namespace ModeA

open Circular

/-- What the two channels deliver: timestamp, payload and sequence number of the half of every
event. -/
structure Streams where
  ts : Channel → ℕ → ℕ
  payload : Channel → ℕ → List UInt8
  seq : Channel → ℕ → UInt16

namespace Streams

/-- The delivery of the half of event `i`: source-valid, with a timestamp. -/
def delivery (s : Streams) (ch : Channel) (i : ℕ) : Delivery where
  ch := ch
  data := some (s.payload ch i)
  len := (s.payload ch i).length
  srcValid := true
  hasTs := true
  ts := UInt32.ofNat (s.ts ch i)
  seq := s.seq ch i

@[simp] theorem delivery_ch (s : Streams) (ch : Channel) (i : ℕ) : (s.delivery ch i).ch = ch := rfl

/-- The half of event `i` in its queue. -/
def half (s : Streams) (c : Config) (ch : Channel) (i : ℕ) : Half :=
  (s.delivery ch i).half c true (UInt32.ofNat (s.ts ch i))

/-- Event `i`, with both halves: the payloads in zeroed buffers. -/
def event (s : Streams) (c : Config) (i : ℕ) : Event where
  ts := UInt32.ofNat (s.ts .left i)
  seq := fun ch => s.seq ch i
  halfValid := fun _ => true
  halfSrc := fun _ => true
  len := fun ch => (s.payload ch i).length
  data := fun ch => s.payload ch i ++ zeros (c.maxFrameOctets - (s.payload ch i).length)

/-- Event `i` and the two halves that make it. -/
def emission (s : Streams) (c : Config) (i : ℕ) : Emission :=
  ⟨s.event c i, fun ch => some (s.half c ch i)⟩

/-- The two streams describe the same `N` events.  A source-valid half has a payload that fits a
queue entry: an empty packet reaches the assembler as a lost one, and a payload of another size
than the configured one is rejected before. -/
structure Lossless (s : Streams) (c : Config) (N : ℕ) : Prop where
  payload_pos : ∀ ch i, i < N → 0 < (s.payload ch i).length
  payload_le : ∀ ch i, i < N → (s.payload ch i).length ≤ c.maxFrameOctets
  cross : ∀ ch i, i < N → s.ts ch i ≤ s.ts ch.other i + tsTolerance
  spaced : ∀ ch i, i + 1 < N → s.ts ch i + 2 * tsTolerance < s.ts ch (i + 1)
  near : ∀ ch i, i + 1 < N → (c.pendingDepth + 1) * (s.ts ch (i + 1) - s.ts ch i) < 2 ^ 31

end Streams

variable {c : Config} {N : ℕ} {s : Streams}

/-! ### Timestamps that wrap -/

theorem toNat_ofNat_sub {a b : ℕ} (hba : b ≤ a) :
    (UInt32.ofNat a - UInt32.ofNat b).toNat = (a - b) % 2 ^ 32 := by
  rw [UInt32.toNat_sub, UInt32.toNat_ofNat', UInt32.toNat_ofNat']
  omega

theorem tsNewer_ofNat {a b : ℕ} (hlo : b + tsTolerance < a) (hhi : a < b + 2 ^ 31) :
    tsNewer (UInt32.ofNat a) (UInt32.ofNat b) = true := by
  have hd := toNat_ofNat_sub (a := a) (b := b) (by omega)
  simp only [tsNewer, hd, Bool.and_eq_true, decide_eq_true_eq]
  omega

theorem tsSameEvent_ofNat {a b : ℕ} (hab : a ≤ b + tsTolerance) (hba : b ≤ a + tsTolerance) :
    tsSameEvent (UInt32.ofNat a) (UInt32.ofNat b) = true := by
  have htol : tsTolerance = 100 := rfl
  have hd :
      (UInt32.ofNat a - UInt32.ofNat b).toNat = (2 ^ 32 - b % 2 ^ 32 + a % 2 ^ 32) % 2 ^ 32 := by
    rw [UInt32.toNat_sub, UInt32.toNat_ofNat', UInt32.toNat_ofNat']
  simp only [tsSameEvent, hd, Bool.or_eq_true, decide_eq_true_eq]
  omega

namespace Streams

theorem Lossless.ts_add_le (hs : s.Lossless c N) (ch : Channel) (i k : ℕ) (hik : i + k < N) :
    s.ts ch i ≤ s.ts ch (i + k) ∧
      (c.pendingDepth + 1) * (s.ts ch (i + k) - s.ts ch i) ≤ k * (2 ^ 31 - 1) := by
  induction k with
  | zero => simp
  | succ k ih =>
    obtain ⟨hle, hmul⟩ := ih (by omega)
    have hspaced := hs.spaced ch (i + k) (by omega)
    have hnear := hs.near ch (i + k) (by omega)
    rw [Nat.add_assoc] at hspaced hnear
    refine ⟨by omega, ?_⟩
    have hsum : s.ts ch (i + (k + 1)) - s.ts ch i =
        (s.ts ch (i + k) - s.ts ch i) + (s.ts ch (i + (k + 1)) - s.ts ch (i + k)) := by omega
    rw [hsum, Nat.mul_add]
    omega

/-- A later half is newer than an event of the last queue length, whichever channel it is on. -/
theorem Lossless.newer (hs : s.Lossless c N) (ch : Channel) {i k : ℕ} (hk : 0 < k)
    (hkD : k ≤ c.pendingDepth) (hik : i + k < N) :
    tsNewer (UInt32.ofNat (s.ts ch (i + k))) (UInt32.ofNat (s.ts .left i)) = true := by
  have htol : tsTolerance = 100 := rfl
  have hcross : s.ts ch i ≤ s.ts .left i + tsTolerance ∧
      s.ts .left i ≤ s.ts ch i + tsTolerance := by
    cases ch
    · omega
    · exact ⟨hs.cross .right i (by omega), hs.cross .left i (by omega)⟩
  have hspaced := hs.spaced ch i (by omega)
  have hnear := hs.near ch i (by omega)
  obtain ⟨hle, hmul⟩ := hs.ts_add_le ch i k hik
  have hmono := (hs.ts_add_le ch (i + 1) (k - 1) (by omega)).1
  rw [show i + 1 + (k - 1) = i + k by omega] at hmono
  refine tsNewer_ofNat (by omega) ?_
  -- one spacing is left over for the tolerance
  have hslack : (c.pendingDepth + 1) * tsTolerance ≤ 2 ^ 31 - 1 := by
    have : (c.pendingDepth + 1) * tsTolerance ≤
        (c.pendingDepth + 1) * (s.ts ch (i + 1) - s.ts ch i) :=
      Nat.mul_le_mul_left _ (by omega)
    omega
  have hall : (c.pendingDepth + 1) * (s.ts ch (i + k) - s.ts ch i + tsTolerance) ≤
      (c.pendingDepth + 1) * (2 ^ 31 - 1) := by
    calc (c.pendingDepth + 1) * (s.ts ch (i + k) - s.ts ch i + tsTolerance)
        = (c.pendingDepth + 1) * (s.ts ch (i + k) - s.ts ch i) +
            (c.pendingDepth + 1) * tsTolerance := Nat.mul_add _ _ _
      _ ≤ k * (2 ^ 31 - 1) + (2 ^ 31 - 1) := Nat.add_le_add hmul hslack
      _ = (k + 1) * (2 ^ 31 - 1) := (Nat.succ_mul _ _).symm
      _ ≤ (c.pendingDepth + 1) * (2 ^ 31 - 1) := Nat.mul_le_mul_right _ (by omega)
  have := Nat.le_of_mul_le_mul_left hall (Nat.succ_pos _)
  omega

theorem Lossless.sameEvent (hs : s.Lossless c N) {i : ℕ} (hi : i < N) :
    tsSameEvent (UInt32.ofNat (s.ts .left i)) (UInt32.ofNat (s.ts .right i)) = true :=
  tsSameEvent_ofNat (hs.cross .left i hi) (hs.cross .right i hi)

end Streams

/-! ### Two matching halves -/

theorem memcpy_half (m : ℕ) (p : List UInt8) :
    memcpy (zeros m) (memcpy (zeros m) p p.length) p.length = p ++ zeros (m - p.length) := by
  simp [memcpy, zeros]

theorem State.oldest_of_pending {st : State c} {ch : Channel} {h : Half} {hs : List Half}
    (hle : st.count ch ≤ c.pendingDepth) (hp : st.pending ch = h :: hs) : st.oldest ch = h := by
  have h₀ : st.count ch ≠ 0 := by
    rw [count_eq_length, hp]
    simp
  have hcons := Queue.oldest_cons_pop (fun h => h) h₀ hle
  rw [← pending, hp] at hcons
  exact (List.cons.inj hcons).1.symm

/-- Two halves of one event at the heads of the queues are emitted together. -/
theorem State.emitEvent_pair (hs : s.Lossless c N) {st : State c} {i : ℕ} (hi : i < N)
    (hold : ∀ ch, st.oldest ch = s.half c ch i) (h₀ : ∀ ch, st.count ch ≠ 0) :
    (st.emitEvent both both (s.half c .left i).ts).2 = s.emission c i := by
  have hlen : ∀ ch, 0 < (s.half c ch i).len := fun ch => hs.payload_pos ch i hi
  have hdata : ∀ ch, memcpy (zeros c.maxFrameOctets) (s.half c ch i).data (s.half c ch i).len =
      s.payload ch i ++ zeros (c.maxFrameOctets - (s.payload ch i).length) := by
    intro ch
    rw [← memcpy_half]
    simp [Streams.half, Delivery.half, Streams.delivery, hs.payload_pos ch i hi]
  have hsrc : ∀ ch, (s.half c ch i).srcValid = true := fun _ => rfl
  have hevent : st.fillEvent (s.half c .left i).ts (fun ch => both ch && (st.oldest ch).srcValid) =
      s.event c i := by
    simp only [fillEvent, hold, hsrc, hlen, hdata, both, decide_true, Bool.and_self, if_true]
    rfl
  have hpopped : (fun ch => if both ch && st.count ch ≠ 0 then some (st.oldest ch) else none) =
      fun ch => some (s.half c ch i) := by
    funext ch
    simp [both, h₀, hold]
  exact congrArg₂ Emission.mk hevent hpopped

theorem State.emitEvent_both (st : State c) (hts : ∀ ch, (st.oldest ch).hasTs = true)
    (hsrc : ∀ ch, (st.oldest ch).srcValid = true) (h₀ : ∀ ch, st.count ch ≠ 0) (ts : UInt32) :
    (st.emitEvent both both ts).1.resolvedTs = ts ∧
    (st.emitEvent both both ts).1.plcBackedEvents = st.plcBackedEvents ∧
    (st.emitEvent both both ts).1.rejects = st.rejects := by
  simp [emitEvent, popHalf, both, hts, hsrc, h₀]

theorem State.position_timed (st : State c) {d : Delivery} (hd : d.hasTs = true) :
    ∃ lastTs lastHasTs,
      st.position d = ({ st with lastTs := lastTs, lastHasTs := lastHasTs }, true, d.ts) := by
  simp only [position, hd, if_true]
  split_ifs
  · exact ⟨_, _, rfl⟩
  · exact ⟨st.lastTs, st.lastHasTs, rfl⟩

/-! ### Counting the halves -/

/-- How many events the slower channel has delivered. -/
def slower (n : Channel → ℕ) : ℕ := min (n .left) (n .right)

theorem slower_eq (n : Channel → ℕ) (ch : Channel) : slower n = min (n ch) (n ch.other) := by
  cases ch
  · rfl
  · exact min_comm _ _

theorem Channel.forall_of {P : Channel → Prop} (ch : Channel) (h : P ch) (h' : P ch.other) :
    ∀ ch', P ch' := by
  intro ch'
  cases ch <;> cases ch' <;> assumption

/-- The history after `n ch` halves of each channel: the events of the slower channel are out, the
rest of the faster one is pending. -/
structure Tracks (s : Streams) (n : Channel → ℕ) (t : History c) : Prop where
  pending : ∀ ch, t.st.pending ch =
    (List.range' (slower n) (n ch - slower n)).map (s.half c ch)
  emissions : t.emissions = (List.range (slower n)).map (s.emission c)
  accepted : ∀ ch, t.accepted ch = (List.range (n ch)).map (s.half c ch)
  resolved : t.st.resolvedHasTs = true →
    ∃ k, slower n = k + 1 ∧ t.st.resolvedTs = UInt32.ofNat (s.ts .left k)
  plcBackedEvents : t.st.plcBackedEvents = 0
  rejects : t.st.rejects = 0

theorem tracks_start (c : Config) (s : Streams) (intervalUs : UInt32) :
    Tracks s (fun _ => 0) (History.start c intervalUs) where
  pending := fun _ => rfl
  emissions := rfl
  accepted := fun _ => rfl
  resolved := fun h => nomatch h
  plcBackedEvents := rfl
  rejects := rfl

section Step

variable {n : Channel → ℕ} {t : History c} {ch : Channel}

theorem Tracks.count (htr : Tracks s n t) (ch : Channel) : t.st.count ch = n ch - slower n := by
  rw [State.count_eq_length, htr.pending]
  simp

theorem Tracks.open (hs : s.Lossless c N) (htr : Tracks s n t) (hi : n ch < N)
    (hskew : n ch + 1 ≤ n ch.other + c.pendingDepth) :
    t.st.alreadyResolved true (UInt32.ofNat (s.ts ch (n ch))) = false := by
  by_cases hres : t.st.resolvedHasTs = true
  · obtain ⟨k, hk, hts⟩ := htr.resolved hres
    have hslow := slower_eq n ch
    have hpos := c.pendingDepth_pos
    have hnewer := hs.newer ch (i := k) (k := n ch - k) (by omega) (by omega) (by omega)
    rw [show k + (n ch - k) = n ch by omega] at hnewer
    simp [State.alreadyResolved, hts, hnewer]
  · simp [State.alreadyResolved, hres]

/-- The call with the next half of a channel enqueues it and resolves at most one event. -/
theorem Tracks.store_eq (hs : s.Lossless c N) (htr : Tracks s n t) (hi : n ch < N)
    (hskew : n ch + 1 ≤ n ch.other + c.pendingDepth) :
    t.st.accepts (s.delivery ch (n ch)) = some (s.half c ch (n ch)) ∧
    ∃ lastTs lastHasTs, t.st.store (s.delivery ch (n ch)) =
      ({ t.st with lastTs := lastTs, lastHasTs := lastHasTs }.enqueueHalf ch
        (s.half c ch (n ch))).resolve false := by
  obtain ⟨lastTs, lastHasTs, hpos⟩ :=
    t.st.position_timed (d := s.delivery ch (n ch)) rfl
  have hlen : ¬ (s.delivery ch (n ch)).len > c.maxFrameOctets :=
    Nat.not_lt.2 (hs.payload_le ch (n ch) hi)
  have hopen : State.alreadyResolved { t.st with lastTs := lastTs, lastHasTs := lastHasTs } true
      (UInt32.ofNat (s.ts ch (n ch))) = false := htr.open hs hi hskew
  have hcount := htr.count ch
  have hslow := slower_eq n ch
  have hroom : ¬ c.pendingDepth ≤ t.st.count ch := by
    have := c.pendingDepth_pos
    omega
  constructor
  · simp only [State.accepts, hpos, hlen, false_or]
    rw [if_neg (by simpa [Streams.delivery] using hopen)]
    rfl
  · refine ⟨lastTs, lastHasTs, ?_⟩
    simp only [State.store, hpos, hlen, if_false]
    rw [if_neg (by simpa [Streams.delivery] using hopen)]
    have hroom' : ¬ c.pendingDepth ≤
        State.count { t.st with lastTs := lastTs, lastHasTs := lastHasTs } ch := hroom
    simp [State.place, Streams.delivery, hroom', Streams.half]

/-- One more half on channel `ch`. -/
def oneMore (n : Channel → ℕ) (ch : Channel) : Channel → ℕ := Function.update n ch (n ch + 1)

theorem oneMore_self (n : Channel → ℕ) (ch : Channel) : oneMore n ch ch = n ch + 1 :=
  Function.update_self ..

theorem oneMore_other (n : Channel → ℕ) (ch : Channel) : oneMore n ch ch.other = n ch.other :=
  Function.update_of_ne ch.other_ne ..

/-- The state in which the next half of `ch` has been enqueued and nothing is resolved yet. -/
structure Enqueued (s : Streams) (n : Channel → ℕ) (ch : Channel) (t : History c)
    (st : State c) : Prop where
  store_eq : t.st.store (s.delivery ch (n ch)) = st.resolve false
  pending : ∀ ch', st.pending ch' =
    (List.range' (slower n) (oneMore n ch ch' - slower n)).map (s.half c ch')
  resolvedHasTs : st.resolvedHasTs = t.st.resolvedHasTs
  resolvedTs : st.resolvedTs = t.st.resolvedTs
  plcBackedEvents : st.plcBackedEvents = t.st.plcBackedEvents
  rejects : st.rejects = t.st.rejects

theorem Tracks.enqueued (hs : s.Lossless c N) (htr : Tracks s n t) (hi : n ch < N)
    (hskew : n ch + 1 ≤ n ch.other + c.pendingDepth) : ∃ st, Enqueued s n ch t st := by
  obtain ⟨-, lastTs, lastHasTs, hstore⟩ := htr.store_eq hs hi hskew
  refine ⟨_, hstore, ?_, rfl, rfl, rfl, rfl⟩
  have hslow := slower_eq n ch
  have hroom : State.count { t.st with lastTs := lastTs, lastHasTs := lastHasTs } ch <
      c.pendingDepth := by
    have : State.count { t.st with lastTs := lastTs, lastHasTs := lastHasTs } ch =
        n ch - slower n := htr.count ch
    have := c.pendingDepth_pos
    omega
  refine Channel.forall_of ch ?_ ?_
  · rw [State.pending_enqueueHalf _ hroom, if_pos rfl, oneMore_self,
      show n ch + 1 - slower n = n ch - slower n + 1 by omega, List.range'_concat,
      List.map_append, show slower n + 1 * (n ch - slower n) = n ch by omega]
    exact congrArg (· ++ _) (htr.pending ch)
  · rw [State.pending_enqueueHalf _ hroom, if_neg ch.other_ne, oneMore_other, List.append_nil]
    exact htr.pending ch.other

theorem Enqueued.count {st : State c} (h : Enqueued s n ch t st) (ch' : Channel) :
    st.count ch' = oneMore n ch ch' - slower n := by
  rw [State.count_eq_length, h.pending]
  simp

theorem Tracks.accepted_store (hs : s.Lossless c N) (htr : Tracks s n t) (hi : n ch < N)
    (hskew : n ch + 1 ≤ n ch.other + c.pendingDepth) (ch' : Channel) :
    (t.store (s.delivery ch (n ch))).accepted ch' =
      (List.range (oneMore n ch ch')).map (s.half c ch') := by
  obtain ⟨haccepts, -⟩ := htr.store_eq hs hi hskew
  revert ch'
  refine Channel.forall_of ch ?_ ?_
  · rw [oneMore_self, List.range_succ, List.map_append]
    simp [History.store, haccepts, htr.accepted]
  · rw [oneMore_other]
    simp [History.store, htr.accepted, ch.other_ne]

/-- A half of the channel that is ahead waits: the other queue is empty. -/
theorem Tracks.store_ahead (hs : s.Lossless c N) (htr : Tracks s n t) (hi : n ch < N)
    (hskew : n ch + 1 ≤ n ch.other + c.pendingDepth) (hahead : n ch.other ≤ n ch) :
    Tracks s (oneMore n ch) (t.store (s.delivery ch (n ch))) := by
  obtain ⟨st, hst⟩ := htr.enqueued hs hi hskew
  have hself := oneMore_self n ch
  have hother := oneMore_other n ch
  have hslow := slower_eq n ch
  have hslow' := slower_eq (oneMore n ch) ch
  have hsame : slower (oneMore n ch) = slower n := by omega
  have hempty : st.count .left = 0 ∨ st.count .right = 0 := by
    have : st.count ch.other = 0 := by
      have := hst.count ch.other
      omega
    cases ch
    · exact .inr this
    · exact .inl this
  have hstore : t.st.store (s.delivery ch (n ch)) = ⟨st, .none, none⟩ :=
    hst.store_eq.trans (if_pos hempty)
  refine ⟨?_, ?_, htr.accepted_store hs hi hskew, ?_, ?_, ?_⟩
  · simpa only [History.store, hstore, hsame] using hst.pending
  · simpa [History.store, hstore, hsame] using htr.emissions
  · simpa only [History.store, hstore, hsame, hst.resolvedHasTs, hst.resolvedTs]
      using htr.resolved
  · simpa only [History.store, hstore, hst.plcBackedEvents] using htr.plcBackedEvents
  · simpa only [History.store, hstore, hst.rejects] using htr.rejects

/-- When a half of the slower channel is enqueued, the two halves of its event are the oldest
ones. -/
theorem Enqueued.pending_cons {st : State c} (h : Enqueued s n ch t st)
    (hbehind : n ch < n ch.other) (ch' : Channel) :
    st.pending ch' = s.half c ch' (slower n) ::
      (List.range' (slower n + 1) (oneMore n ch ch' - (slower n + 1))).map (s.half c ch') := by
  have hslow := slower_eq n ch
  have hlt : ∀ ch', slower n < oneMore n ch ch' := by
    refine Channel.forall_of ch ?_ ?_
    · rw [oneMore_self]
      omega
    · rw [oneMore_other]
      omega
  have := hlt ch'
  rw [h.pending, show oneMore n ch ch' - slower n = oneMore n ch ch' - (slower n + 1) + 1 by omega,
    List.range'_succ, List.map_cons]

theorem Tracks.store_behind (hs : s.Lossless c N) (htr : Tracks s n t) (hinv : t.Inv)
    (hi : n ch < N) (hskew : n ch + 1 ≤ n ch.other + c.pendingDepth)
    (hbehind : n ch < n ch.other) :
    Tracks s (oneMore n ch) (t.store (s.delivery ch (n ch))) := by
  obtain ⟨st, hst⟩ := htr.enqueued hs hi hskew
  have hself := oneMore_self n ch
  have hother := oneMore_other n ch
  have hslow := slower_eq n ch
  have hnext : slower (oneMore n ch) = slower n + 1 := by
    have := slower_eq (oneMore n ch) ch
    omega
  have hle : ∀ ch', st.count ch' ≤ c.pendingDepth := by
    have hbound := hinv.bound
    have hsum := State.count_other t.st ch
    have hcount := htr.count ch.other
    have hpos := c.pendingDepth_pos
    refine Channel.forall_of ch ?_ ?_ <;> rw [hst.count] <;> omega
  -- the halves of the slower event are at both heads
  have hcons := hst.pending_cons hbehind
  have hold : ∀ ch', st.oldest ch' = s.half c ch' (slower n) :=
    fun ch' => State.oldest_of_pending (hle ch') (hcons ch')
  have h₀ : ∀ ch', st.count ch' ≠ 0 := by
    intro ch'
    rw [State.count_eq_length, hcons]
    simp
  -- they match, so they are emitted together
  have hstore : t.st.store (s.delivery ch (n ch)) =
      State.emitted (st.emitEvent State.both State.both (s.half c .left (slower n)).ts) := by
    have hsame : tsSameEvent (s.half c .left (slower n)).ts (s.half c .right (slower n)).ts :=
      hs.sameEvent (by omega)
    have hts : ∀ ch', (s.half c ch' (slower n)).hasTs = true := fun _ => rfl
    rw [hst.store_eq]
    simp [State.resolve, h₀, hold, hts, hsame]
  have hemission := State.emitEvent_pair hs (i := slower n) (by omega) hold h₀
  obtain ⟨hts, hplc, hrejects⟩ := State.emitEvent_both st
    (fun ch' => by rw [hold]; rfl) (fun ch' => by rw [hold]; rfl) h₀
    (s.half c .left (slower n)).ts
  refine ⟨fun ch' => ?_, ?_, htr.accepted_store hs hi hskew, fun _ => ?_, ?_, ?_⟩
  · have hsplit := State.emitEvent_pending State.both State.both
      (s.half c .left (slower n)).ts (hle ch')
    rw [hemission, hcons] at hsplit
    simp only [History.store, hstore, State.emitted, hnext]
    exact (List.cons.inj hsplit).2.symm
  · simp only [History.store, hstore, State.emitted, hemission, htr.emissions, hnext,
      List.range_succ, List.map_append, Option.toList_some, List.map_cons, List.map_nil]
  · refine ⟨slower n, hnext, ?_⟩
    simp only [History.store, hstore, State.emitted, hts]
    rfl
  · simp only [History.store, hstore, State.emitted, hplc, hst.plcBackedEvents]
    exact htr.plcBackedEvents
  · simp only [History.store, hstore, State.emitted, hrejects, hst.rejects]
    exact htr.rejects

end Step

/-! ### Every interleaving -/

/-- How many halves of each channel a sequence of calls delivers. -/
def delivered (ds : List Delivery) (ch : Channel) : ℕ := ds.countP fun d => d.ch = ch

theorem delivered_concat (ds : List Delivery) (d : Delivery) :
    delivered (ds ++ [d]) = oneMore (delivered ds) d.ch := by
  funext ch
  by_cases hch : ch = d.ch
  · subst hch
    simp [delivered, oneMore]
  · have : d.ch ≠ ch := fun h => hch h.symm
    simp [delivered, oneMore, hch, this]

/-- In an interleaving of the two streams the next call delivers the next half of its channel. -/
theorem next_delivery {ds p : List Delivery} {d : Delivery}
    (hstream : ∀ ch, (ds.filter fun d => d.ch = ch) = (List.range N).map (s.delivery ch))
    (hp : p ++ [d] <+: ds) :
    delivered p d.ch < N ∧ d = s.delivery d.ch (delivered p d.ch) := by
  have hfilter : (p.filter fun d' => d'.ch = d.ch) ++ [d] <+:
      (List.range N).map (s.delivery d.ch) := by
    have := hp.filter fun d' => decide (d'.ch = d.ch)
    rw [hstream] at this
    simpa using this
  have hlen : (p.filter fun d' => d'.ch = d.ch).length = delivered p d.ch :=
    List.countP_eq_length_filter.symm
  obtain ⟨rest, hrest⟩ := hfilter
  have hget := congrArg (fun l => l[delivered p d.ch]?) hrest
  simp only [List.append_assoc, ← hlen, List.getElem?_append_right (le_refl _), Nat.sub_self,
    List.singleton_append, List.getElem?_cons_zero, List.getElem?_map] at hget
  rw [hlen] at hget
  obtain ⟨i, hi, hd⟩ := Option.map_eq_some_iff.1 hget.symm
  obtain ⟨hlt, rfl⟩ := List.getElem?_eq_some_iff.1 hi
  rw [List.length_range] at hlt
  exact ⟨hlt, by simpa using hd.symm⟩

theorem tracks_of_prefix (hs : s.Lossless c N) (intervalUs : UInt32) {ds : List Delivery}
    (hstream : ∀ ch, (ds.filter fun d => d.ch = ch) = (List.range N).map (s.delivery ch))
    (hskew : ∀ p, p <+: ds → ∀ ch, delivered p ch ≤ delivered p ch.other + c.pendingDepth)
    (p : List Delivery) (hp : p <+: ds) :
    Tracks s (delivered p) ((History.start c intervalUs).run p) := by
  induction p using List.reverseRecOn with
  | nil => exact tracks_start c s intervalUs
  | append_singleton p d ih =>
    have htr := ih ((List.prefix_append p [d]).trans hp)
    obtain ⟨hi, hd⟩ := next_delivery hstream hp
    have hskew' := hskew _ hp d.ch
    rw [delivered_concat, oneMore_self, oneMore_other] at hskew'
    have hrun : (History.start c intervalUs).run (p ++ [d]) =
        ((History.start c intervalUs).run p).store (s.delivery d.ch (delivered p d.ch)) := by
      rw [← hd]
      exact List.foldl_concat ..
    rw [delivered_concat, hrun]
    by_cases hahead : delivered p d.ch.other ≤ delivered p d.ch
    · exact htr.store_ahead hs hi hskew' hahead
    · exact htr.store_behind hs ((History.inv_start c intervalUs).run p) hi hskew' (by omega)

/-- Two lossless channels, interleaved so that neither is ever more than `MODEA_PENDING_DEPTH`
halves ahead: exactly the `N` events are emitted, in order, each with both halves; no half is
ignored, dropped or rejected, and none is left over. -/
theorem lossless_pairs (c : Config) (intervalUs : UInt32) (N : ℕ) (s : Streams)
    (hs : s.Lossless c N) (ds : List Delivery)
    (hstream : ∀ ch, (ds.filter fun d => d.ch = ch) = (List.range N).map (s.delivery ch))
    (hskew : ∀ p, p <+: ds → ∀ ch, delivered p ch ≤ delivered p ch.other + c.pendingDepth) :
    let t := (History.start c intervalUs).run ds
    t.emissions.map (fun e => e.event) = (List.range N).map (s.event c) ∧
    (∀ ch, t.accepted ch = (List.range N).map (s.half c ch)) ∧
    t.st.plcBackedEvents = 0 ∧ t.st.overflowDrops = 0 ∧ t.st.rejects = 0 ∧
    ∀ ch, t.st.pending ch = [] := by
  intro t
  have htr : Tracks s (delivered ds) t :=
    tracks_of_prefix hs intervalUs hstream hskew ds List.prefix_rfl
  have hall : ∀ ch, delivered ds ch = N := by
    intro ch
    have := congrArg List.length (hstream ch)
    rw [← List.countP_eq_length_filter] at this
    simpa [delivered] using this
  have hslow : slower (delivered ds) = N := by simp [slower, hall]
  have hinv : t.Inv := (History.inv_start c intervalUs).run ds
  refine ⟨?_, fun ch => ?_, htr.plcBackedEvents, hinv.noOverflow, htr.rejects, fun ch => ?_⟩
  · rw [htr.emissions, hslow, List.map_map]
    rfl
  · rw [htr.accepted, hall]
  · rw [htr.pending, hall, hslow]
    simp

/-- Queues of two halves of 120 octets. -/
def depthTwo : Config := ⟨2, by decide, 120⟩

/-- Events of ten milliseconds whose timestamps wrap at the second one; the right channel is
stamped seven units late. -/
def wrapping : Streams where
  ts := fun ch i => 2 ^ 32 - 5000 + 10000 * i + if ch = .right then 7 else 0
  payload := fun _ i => [UInt8.ofNat i, 1]
  seq := fun _ i => UInt16.ofNat i

theorem wrapping_lossless : wrapping.Lossless depthTwo 3 where
  payload_pos := fun _ _ _ => Nat.succ_pos _
  payload_le := fun _ _ _ => by
    simp [wrapping, depthTwo]
  cross := by
    intro ch i _
    cases ch <;>
      simp only [wrapping, Channel.other, tsTolerance, reduceCtorEq, if_true, if_false] <;> omega
  spaced := by
    intro ch i _
    simp only [wrapping, tsTolerance]
    omega
  near := by
    intro ch i _
    simp only [wrapping, depthTwo]
    omega

/-- The left channel runs two halves ahead, then the right one takes over. -/
theorem lossless_pairs_wrapping :
    ((History.start depthTwo 10000).run
      [wrapping.delivery .left 0, wrapping.delivery .left 1, wrapping.delivery .right 0,
        wrapping.delivery .right 1, wrapping.delivery .right 2,
        wrapping.delivery .left 2]).emissions.map (fun e => e.event) =
      (List.range 3).map (wrapping.event depthTwo) := by
  refine (lossless_pairs depthTwo 10000 3 wrapping wrapping_lossless _ ?_ ?_).1
  · intro ch
    cases ch <;> rfl
  · intro p hp ch
    rw [List.prefix_iff_eq_take.1 hp]
    have hlen := hp.length_le
    simp only [List.length_cons, List.length_nil] at hlen
    generalize p.length = k at hlen
    interval_cases k <;> cases ch <;> decide

end ModeA

end LeAudioReceiver
