import LeAudioReceiver.FlprRing.Basic
import LeAudioReceiver.Machine.Basic
import Mathlib.Data.List.Infix

/-!
# One producer, one consumer

The protocol of `src/flpr_ring.h` for a single ring: a producer that begins, fills and commits, a
consumer that begins, reads and finishes, in any interleaving.  The machine records what was
committed and what was read, so that the counters of the ring, which wrap, can be compared with
the history, which does not.

* `Fifo.Inv` : the counters are the lengths of the history modulo `2 ^ 32`, at most four
  transactions are outstanding, and each of them still has its committed contents;
* `Fifo.isFifo` : **the ring is a queue**: nothing is lost, duplicated, reordered or
  overwritten, and a producer is refused exactly when four slots are outstanding.
-/

namespace LeAudioReceiver

namespace FlprRing

/-- Where the producer is. -/
inductive Producer where
  | idle
  /-- Between `produce_begin` and `produce_commit`, with the index it was given. -/
  | filling (idx : UInt32)

/-- Where the consumer is. -/
inductive Consumer where
  | idle
  /-- Between `consume_begin` and the read. -/
  | claimed (i : Fin 4)
  /-- Between the read and `consume_done`. -/
  | finished

/-- A ring with its two users, and the history of the transfer. -/
structure Fifo where
  ring : Ring
  producer : Producer
  consumer : Consumer
  /-- The contents committed so far. -/
  committed : List Slot
  /-- How many of them the consumer is done with. -/
  consumed : ℕ
  /-- The contents read so far. -/
  reads : List Slot

/-- The atomic steps. -/
inductive FifoStep where
  | produceBegin
  | fill (c : Slot)
  | produceCommit
  | consumeBegin
  | read
  | consumeDone

namespace Fifo

/-- One step; the consumer uses epoch `e`. -/
def next (e : UInt32) (s : Fifo) : FifoStep → Option Fifo
  | .produceBegin =>
    match s.producer with
    | .idle =>
      match s.ring.produceBegin with
      | (r, none) => some { s with ring := r }
      | (r, some idx) => some { s with ring := r, producer := .filling idx }
    | .filling _ => none
  | .fill c =>
    match s.producer with
    | .idle => none
    | .filling idx => some { s with ring := s.ring.write idx c }
  | .produceCommit =>
    match s.producer with
    | .idle => none
    | .filling idx =>
      some { s with
        ring := s.ring.produceCommit, producer := .idle
        committed := s.committed ++ [s.ring.slots (slotBase idx)] }
  | .consumeBegin =>
    match s.consumer with
    | .idle =>
      match s.ring.consumeBegin e with
      | (r, .empty) => some { s with ring := r }
      | (r, .stale) => some { s with ring := r, consumed := s.consumed + 1 }
      | (r, .slot i) => some { s with ring := r, consumer := .claimed i }
    | _ => none
  | .read =>
    match s.consumer with
    | .claimed i => some { s with consumer := .finished, reads := s.reads ++ [s.ring.slots i] }
    | _ => none
  | .consumeDone =>
    match s.consumer with
    | .finished =>
      some { s with
        ring := s.ring.consumeDone, consumer := .idle, consumed := s.consumed + 1 }
    | _ => none

/-- The machine: it starts from a ring that was just reset to epoch `e`. -/
def machine (e : UInt32) : Machine Fifo FifoStep where
  init s := ∃ r, s = ⟨r, .idle, .idle, [], 0, []⟩ ∧ ∃ r₀ : Ring, r₀.resetEpoch e = some r
  next := next e

/-- Transaction `k` is committed and the consumer is not done with it. -/
def Outstanding (s : Fifo) (k : ℕ) : Prop := s.consumed ≤ k ∧ k < s.committed.length

/-- The transactions the consumer has looked at. -/
def seen (s : Fifo) : ℕ :=
  match s.consumer with
  | .finished => s.consumed + 1
  | _ => s.consumed

/-- The invariant: counters, bounds, contents, and what each side is in the middle of. -/
structure Inv (e : UInt32) (s : Fifo) : Prop where
  producerIdx : s.ring.producerIdx = UInt32.ofNat s.committed.length
  consumerIdx : s.ring.consumerIdx = UInt32.ofNat s.consumed
  le : s.consumed ≤ s.committed.length
  bound : s.committed.length ≤ s.consumed + 4
  slots : ∀ k, s.Outstanding k → s.committed[k]? = some (s.ring.slots (slotIdx k))
  filling : ∀ idx, s.producer = .filling idx →
    idx = UInt32.ofNat s.committed.length ∧ s.committed.length < s.consumed + 4
  claimed : ∀ i, s.consumer = .claimed i →
    i = slotIdx s.consumed ∧ s.Outstanding s.consumed ∧ Fresh e (s.ring.slots i)
  finished : s.consumer = .finished → s.Outstanding s.consumed
  reads : s.reads = (s.committed.take s.seen).filter (Fresh e)

theorem inv_init {e : UInt32} {s : Fifo} (h : (machine e).init s) : Inv e s := by
  obtain ⟨r, rfl, r₀, hr⟩ := h
  obtain ⟨hp, hc⟩ := Ring.resetEpoch_idx hr
  refine ⟨hp, hc, le_rfl, by simp, ?_, ?_, ?_, ?_, rfl⟩
  · rintro k ⟨-, hk⟩
    simp at hk
  · rintro idx ⟨⟩
  · rintro i ⟨⟩
  · rintro ⟨⟩

/-! ### The producer's steps -/

section Steps

variable {e : UInt32} {s s' : Fifo}

theorem inv_produceBegin (h : s.Inv e) (hs : s.next e .produceBegin = some s') : s'.Inv e := by
  unfold next at hs
  cases hp : s.producer with
  | filling idx => simp only [hp] at hs; cases hs
  | idle =>
    simp only [hp, Ring.produceBegin] at hs
    split_ifs at hs with hfull
    · obtain rfl := Option.some.inj hs
      exact ⟨h.producerIdx, h.consumerIdx, h.le, h.bound, h.slots, by simp, h.claimed,
        h.finished, h.reads⟩
    · obtain rfl := Option.some.inj hs
      rw [h.producerIdx, h.consumerIdx, space_eq_zero h.le h.bound] at hfull
      have hbound := h.bound
      refine ⟨h.producerIdx, h.consumerIdx, h.le, h.bound, h.slots, ?_, h.claimed, h.finished,
        h.reads⟩
      rintro idx ⟨⟩
      exact ⟨h.producerIdx, show s.committed.length < s.consumed + 4 by omega⟩

theorem Inv.slotIdx_ne (h : s.Inv e) {idx : UInt32} (hp : s.producer = .filling idx) {k : ℕ}
    (hk : s.Outstanding k) : slotIdx k ≠ slotBase idx := by
  obtain ⟨rfl, hlt⟩ := h.filling idx hp
  obtain ⟨hle, hlt'⟩ := hk
  rw [slotBase_ofNat]
  exact FlprRing.slotIdx_ne hlt' (by omega)

theorem inv_fill (h : s.Inv e) {c : Slot} (hs : s.next e (.fill c) = some s') : s'.Inv e := by
  unfold next at hs
  cases hp : s.producer with
  | idle => simp only [hp] at hs; cases hs
  | filling idx =>
    simp only [hp] at hs
    obtain rfl := Option.some.inj hs
    have hwrite : ∀ k, s.Outstanding k →
        (s.ring.write idx c).slots (slotIdx k) = s.ring.slots (slotIdx k) := fun k hk =>
      Function.update_of_ne (h.slotIdx_ne hp hk) _ _
    refine ⟨h.producerIdx, h.consumerIdx, h.le, h.bound, ?_,
      fun _ hi => h.filling _ (hp.trans hi), ?_, h.finished, h.reads⟩
    · intro k hk
      exact (h.slots k hk).trans (congrArg _ (hwrite k hk).symm)
    · intro i hi
      obtain ⟨rfl, hout, hfresh⟩ := h.claimed i hi
      exact ⟨rfl, hout, (hwrite _ hout).symm ▸ hfresh⟩

theorem inv_produceCommit (h : s.Inv e) (hs : s.next e .produceCommit = some s') : s'.Inv e := by
  unfold next at hs
  cases hp : s.producer with
  | idle => simp only [hp] at hs; cases hs
  | filling idx =>
    simp only [hp] at hs
    obtain rfl := Option.some.inj hs
    obtain ⟨rfl, hlt⟩ := h.filling idx hp
    have hle := h.le
    have hgrow : ∀ {k}, s.Outstanding k → Outstanding { s with
        ring := s.ring.produceCommit, producer := .idle
        committed := s.committed ++ [s.ring.slots (slotBase (UInt32.ofNat s.committed.length))] }
        k := by
      rintro k ⟨h₁, h₂⟩
      exact ⟨h₁, by simp only [List.length_append, List.length_singleton]; omega⟩
    have hseen : s.seen ≤ s.committed.length := by
      unfold seen
      split
      · exact (h.finished ‹_›).2
      · exact hle
    refine ⟨?_, h.consumerIdx, ?_, ?_, ?_, ?_, ?_, ?_, ?_⟩
    · show s.ring.producerIdx + 1 = _
      rw [h.producerIdx, ofNat_add_one, List.length_append, List.length_singleton]
    · show s.consumed ≤ _
      simp only [List.length_append, List.length_singleton]
      omega
    · show _ ≤ s.consumed + 4
      simp only [List.length_append, List.length_singleton]
      omega
    · rintro k ⟨h₁, h₂⟩
      simp only [List.length_append, List.length_singleton] at h₂
      rcases Nat.lt_or_ge k s.committed.length with hk | hk
      · rw [List.getElem?_append_left hk]
        exact h.slots k ⟨h₁, hk⟩
      · obtain rfl : k = s.committed.length := by omega
        rw [List.getElem?_append_right le_rfl, Nat.sub_self, slotBase_ofNat]
        rfl
    · rintro idx ⟨⟩
    · intro i hi
      obtain ⟨rfl, hout, hfresh⟩ := h.claimed i hi
      exact ⟨rfl, hgrow hout, hfresh⟩
    · exact fun hf => hgrow (h.finished hf)
    · show s.reads = ((s.committed ++ _).take s.seen).filter _
      rw [List.take_append_of_le_length hseen]
      exact h.reads

/-! ### The consumer's steps -/

theorem take_succ_committed (h : s.Inv e) (hout : s.Outstanding s.consumed) :
    s.committed.take (s.consumed + 1) =
      s.committed.take s.consumed ++ [s.ring.slots (slotIdx s.consumed)] := by
  rw [List.take_add_one, h.slots _ hout]
  rfl

theorem inv_consumeBegin (he : e ≠ 0) (h : s.Inv e) (hs : s.next e .consumeBegin = some s') :
    s'.Inv e := by
  unfold next at hs
  cases hc : s.consumer with
  | claimed i => simp only [hc] at hs; cases hs
  | finished => simp only [hc] at hs; cases hs
  | idle =>
    have hreads := h.reads
    simp only [seen, hc] at hreads
    simp only [hc, Ring.consumeBegin] at hs
    split_ifs at hs with hempty hstale
    · obtain rfl := Option.some.inj hs
      rw [← hc]
      exact h
    all_goals
      rw [h.producerIdx, h.consumerIdx, used_eq_zero h.le h.bound] at hempty
      have hout : s.Outstanding s.consumed := ⟨le_rfl, by have := h.le; omega⟩
      obtain rfl := Option.some.inj hs
    · -- the stale slot is passed over
      rw [h.consumerIdx, slotBase_ofNat] at hstale
      refine ⟨h.producerIdx, ?_, hout.2, ?_, ?_, ?_, ?_, ?_, ?_⟩
      · show s.ring.consumerIdx + 1 = _
        rw [h.consumerIdx, ofNat_add_one]
      · have := h.bound
        show s.committed.length ≤ s.consumed + 1 + 4
        omega
      · rintro k ⟨h₁, h₂⟩
        exact h.slots k ⟨Nat.le_of_succ_le h₁, h₂⟩
      · intro idx hidx
        obtain ⟨hi, hlt⟩ := h.filling idx hidx
        exact ⟨hi, show s.committed.length < s.consumed + 1 + 4 by omega⟩
      · rintro i ⟨⟩
      · rintro ⟨⟩
      · show s.reads = (s.committed.take (s.consumed + 1)).filter _
        -- it is of another epoch
        have hnot : ¬ Fresh e (s.ring.slots (slotIdx s.consumed)) := by
          rintro (h₀ | h₁)
          · exact hstale.2.1 h₀
          · exact hstale.2.2 h₁
        rw [take_succ_committed h hout, List.filter_append, ← hreads]
        simp [hnot]
    · have hfresh : Fresh e (s.ring.slots (slotBase s.ring.consumerIdx)) := by
        by_contra hnot
        exact hstale ⟨he, fun h₀ => hnot (.inl h₀), fun h₁ => hnot (.inr h₁)⟩
      refine ⟨h.producerIdx, h.consumerIdx, h.le, h.bound, h.slots, h.filling, ?_, ?_, hreads⟩
      · rintro i ⟨⟩
        exact ⟨by rw [h.consumerIdx, slotBase_ofNat], hout, hfresh⟩
      · rintro ⟨⟩

theorem inv_read (h : s.Inv e) (hs : s.next e .read = some s') : s'.Inv e := by
  unfold next at hs
  cases hc : s.consumer with
  | idle => simp only [hc] at hs; cases hs
  | finished => simp only [hc] at hs; cases hs
  | claimed i =>
    have hreads := h.reads
    simp only [seen, hc] at hreads
    simp only [hc] at hs
    obtain rfl := Option.some.inj hs
    obtain ⟨rfl, hout, hfresh⟩ := h.claimed i hc
    refine ⟨h.producerIdx, h.consumerIdx, h.le, h.bound, h.slots, h.filling, ?_, fun _ => hout, ?_⟩
    · rintro i ⟨⟩
    · show s.reads ++ _ = (s.committed.take (s.consumed + 1)).filter _
      rw [take_succ_committed h hout, List.filter_append, ← hreads]
      simp [hfresh]

theorem inv_consumeDone (h : s.Inv e) (hs : s.next e .consumeDone = some s') : s'.Inv e := by
  unfold next at hs
  cases hc : s.consumer with
  | idle => simp only [hc] at hs; cases hs
  | claimed i => simp only [hc] at hs; cases hs
  | finished =>
    have hreads := h.reads
    simp only [seen, hc] at hreads
    simp only [hc] at hs
    obtain rfl := Option.some.inj hs
    have hout := h.finished hc
    have hbound := h.bound
    refine ⟨h.producerIdx, ?_, hout.2, ?_, ?_, ?_, ?_, ?_, hreads⟩
    · show s.ring.consumerIdx + 1 = _
      rw [h.consumerIdx, ofNat_add_one]
    · show s.committed.length ≤ s.consumed + 1 + 4
      omega
    · rintro k ⟨h₁, h₂⟩
      exact h.slots k ⟨Nat.le_of_succ_le h₁, h₂⟩
    · intro idx hidx
      obtain ⟨hi, hlt⟩ := h.filling idx hidx
      exact ⟨hi, show s.committed.length < s.consumed + 1 + 4 by omega⟩
    · rintro i ⟨⟩
    · rintro ⟨⟩

theorem inv_next (he : e ≠ 0) (h : s.Inv e) {a : FifoStep} (hs : s.next e a = some s') :
    s'.Inv e := by
  cases a with
  | produceBegin => exact inv_produceBegin h hs
  | fill c => exact inv_fill h hs
  | produceCommit => exact inv_produceCommit h hs
  | consumeBegin => exact inv_consumeBegin he h hs
  | read => exact inv_read h hs
  | consumeDone => exact inv_consumeDone h hs

theorem inv_reachable (he : e ≠ 0) (h : (machine e).Reachable s) : s.Inv e :=
  h.invariant (fun _ => inv_init) fun _ _ _ hi hs => inv_next he hi hs

end Steps

/-! ### The ring is a queue -/

/-- Only a fill writes to the slots. -/
theorem next_slots_eq {e : UInt32} {s s' : Fifo} {a : FifoStep} (hs : s.next e a = some s')
    (ha : ∀ c, a ≠ .fill c) : s'.ring.slots = s.ring.slots := by
  have hbegin := s.ring.produceBegin_slots
  have hbegin' := s.ring.consumeBegin_slots e
  cases a with
  | fill c => exact absurd rfl (ha c)
  | produceBegin =>
    unfold next at hs
    dsimp only at hs
    split at hs
    · split at hs <;> rename_i heq <;> rw [heq] at hbegin <;> obtain rfl := Option.some.inj hs <;>
        exact hbegin
    · cases hs
  | consumeBegin =>
    unfold next at hs
    dsimp only at hs
    split at hs
    · split at hs <;> rename_i heq <;> rw [heq] at hbegin' <;>
        obtain rfl := Option.some.inj hs <;> exact hbegin'
    · cases hs
  | produceCommit | read | consumeDone =>
    unfold next at hs
    dsimp only at hs
    split at hs <;> first | cases hs; rfl | cases hs

/-- No step writes to an outstanding slot. -/
theorem next_slots {e : UInt32} {s s' : Fifo} (h : s.Inv e) {a : FifoStep}
    (hs : s.next e a = some s') {k : ℕ} (hk : s.Outstanding k) :
    s'.ring.slots (slotIdx k) = s.ring.slots (slotIdx k) := by
  by_cases ha : ∃ c, a = .fill c
  · obtain ⟨c, rfl⟩ := ha
    unfold next at hs
    cases hp : s.producer with
    | idle => simp only [hp] at hs; cases hs
    | filling idx =>
      simp only [hp] at hs
      obtain rfl := Option.some.inj hs
      exact Function.update_of_ne (h.slotIdx_ne hp hk) _ _
  · rw [next_slots_eq hs fun c hc => ha ⟨c, hc⟩]

/-- **The ring is a queue.**  From a ring reset to epoch `e ≠ 0`, in every reachable state of every
interleaving, however often the counters have wrapped:
the difference of the counters is the number of outstanding slots and at most four;
what was read is what was committed, in order, up to some point, less the slots of other epochs,
so it is a prefix when the producer only fills slots of this epoch;
no step overwrites an outstanding slot; and the producer is refused exactly when four slots are
outstanding. -/
theorem isFifo {e : UInt32} (he : e ≠ 0) {s : Fifo} (h : (machine e).Reachable s) :
    ((used s.ring.producerIdx s.ring.consumerIdx).toNat = s.committed.length - s.consumed ∧
      s.consumed ≤ s.committed.length ∧ s.committed.length - s.consumed ≤ slotCount) ∧
    ((∃ n ≤ s.committed.length, s.reads = (s.committed.take n).filter (Fresh e)) ∧
      ((∀ c ∈ s.committed, Fresh e c) → s.reads <+: s.committed)) ∧
    (∀ a s', (machine e).next s a = some s' → ∀ k, s.Outstanding k →
      s.committed[k]? = some (s.ring.slots (slotIdx k)) ∧
      s'.ring.slots (slotIdx k) = s.ring.slots (slotIdx k)) ∧
    (s.ring.produceBegin.2 = none ↔ s.committed.length - s.consumed = slotCount) := by
  have hinv := inv_reachable he h
  have hle := hinv.le
  have hbound := hinv.bound
  refine ⟨⟨?_, hle, ?_⟩, ⟨?_, ?_⟩, ?_, ?_⟩
  · rw [hinv.producerIdx, hinv.consumerIdx, toNat_used hle hbound]
  · rw [slotCount]
    omega
  · refine ⟨s.seen, ?_, hinv.reads⟩
    unfold seen
    split
    · exact (hinv.finished ‹_›).2
    · exact hle
  · intro hfresh
    have hall : (s.committed.take s.seen).filter (Fresh e) = s.committed.take s.seen := by
      refine List.filter_eq_self.2 fun c hc => ?_
      simpa using hfresh c (List.mem_of_mem_take hc)
    rw [hinv.reads, hall]
    exact List.take_prefix _ _
  · intro a s' hs k hk
    exact ⟨hinv.slots k hk, next_slots hinv hs hk⟩
  · have hspace := space_eq_zero hle hbound
    rw [← hinv.producerIdx, ← hinv.consumerIdx] at hspace
    unfold Ring.produceBegin slotCount
    split_ifs with hfull
    · simp only [true_iff]
      have := hspace.1 hfull
      omega
    · simp only [false_iff]
      intro h4
      exact hfull (hspace.2 (by omega))

/-- A slot of epoch `1`. -/
def slotOf (x : UInt8) : Slot := ⟨{ SlotMeta.zero with epoch := 1 }, [x]⟩

/-- An empty ring of epoch `1`. -/
def ringOne : Ring := ⟨1, 0, 0, 0, 0, fun _ => ⟨SlotMeta.zero, []⟩⟩

/-- The steps that commit a slot. -/
def produce (x : UInt8) : List FifoStep := [.produceBegin, .fill (slotOf x), .produceCommit]

/-- Five transactions, the fifth in the place of the first, which was consumed.  The ring is full,
and the second one is being read. -/
theorem isFifo_full :
    ∃ s : Fifo, (machine 1).Reachable s ∧ s.reads = [slotOf 1, slotOf 2] ∧
      s.reads <+: s.committed ∧ (used s.ring.producerIdx s.ring.consumerIdx).toNat = 4 ∧
      s.ring.produceBegin.2 = none := by
  have hrun : ((machine 1).run ⟨ringOne, .idle, .idle, [], 0, []⟩
      (produce 1 ++ produce 2 ++ produce 3 ++ produce 4 ++ [.consumeBegin, .read, .consumeDone] ++
        produce 5 ++ [.consumeBegin, .read])).map (fun s => (s.committed, s.consumed, s.reads)) =
      some ([slotOf 1, slotOf 2, slotOf 3, slotOf 4, slotOf 5], 1, [slotOf 1, slotOf 2]) := rfl
  obtain ⟨s, hs, hhistory⟩ := Option.map_eq_some_iff.1 hrun
  obtain ⟨hcommitted, hconsumed, hreads⟩ : s.committed = _ ∧ s.consumed = _ ∧ s.reads = _ := by
    simpa only [Prod.mk.injEq] using hhistory
  have hstart : (machine 1).Reachable ⟨ringOne, .idle, .idle, [], 0, []⟩ :=
    .init ⟨ringOne, rfl, ringOne, rfl⟩
  have hreach := hstart.run hs
  obtain ⟨⟨hused, -⟩, ⟨-, hprefix⟩, -, hfull⟩ := isFifo (by decide) hreach
  have houtstanding : s.committed.length - s.consumed = 4 := by
    rw [hcommitted, hconsumed]
    rfl
  refine ⟨s, hreach, hreads, hprefix ?_, hused.trans houtstanding, hfull.2 houtstanding⟩
  intro c hc
  rw [hcommitted] at hc
  simp only [List.mem_cons, List.not_mem_nil, or_false] at hc
  rcases hc with rfl | rfl | rfl | rfl | rfl <;> exact .inr rfl

end Fifo

end FlprRing

end LeAudioReceiver
