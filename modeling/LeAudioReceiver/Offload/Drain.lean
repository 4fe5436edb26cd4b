import LeAudioReceiver.Offload.Process
import LeAudioReceiver.FlprRing.Pending

/-!
# Draining the input ring

`ring_process_input` of `src/flpr/main.c`, run from its first pass to its return while nothing
else touches the two rings.  `Offload.Cores` has the same passes in atomic steps, between those of
the receive callback and of the application core.

* `Drained` : what any number of passes has done to the rings;
* `drainPass_cases` : one pass; `drained_loop` : all of them, by induction on the passes left;
* `drain_lossless` : the call returns, and every slot that it took without skipping it has been
  answered.
-/

namespace LeAudioReceiver

namespace Offload

open FlprRing

/-! ### The loop -/

/-- `FLPR_STALL_CONSUMER_INPUT`. -/
def stallConsumerInput : UInt8 := 0x01

/-- `FLPR_STALL_PRODUCER_OUTPUT`. -/
def stallProducerOutput : UInt8 := 0x02

/-- The rings of the remote core. -/
structure Rings where
  inp : Ring
  out : Ring

/-- A pass of the loop behind the stall flags, with the value of `consumed` behind it and whether
another pass follows.  `cycles` are the cycle counts that will be measured. -/
def drainPass (epoch : UInt32) (cycles : UInt32 → UInt32) (g : Rings) (consumed : UInt32) :
    Rings × UInt32 × Bool :=
  if space g.out.producerIdx g.out.consumerIdx = 0 then (g, consumed, false)
  else
    match g.inp.consumeBegin epoch with
    | (inp, .empty) => ({ g with inp := inp }, consumed, false)
    | (inp, .stale) => ({ g with inp := inp }, consumed, true)
    | (inp, .slot i) =>
      match g.out.produceBegin with
      -- the input index is left unchanged
      | (out, none) => (⟨inp, out⟩, consumed + 1, false)
      | (out, some idx) =>
        let out := (out.write idx (answer (inp.slots i) (cycles consumed))).produceCommit
        (⟨inp.consumeDone, out⟩, consumed + 1, true)

/-- The `while` loop; `none` if it has not left after so many passes. -/
def drainLoop (sf : UInt8) (epoch : UInt32) (cycles : UInt32 → UInt32) :
    ℕ → Rings → UInt32 → Option (Rings × UInt32)
  | 0, _, _ => none
  | fuel + 1, g, consumed =>
    if sf &&& stallConsumerInput ≠ 0 then some (g, consumed)
    else if sf &&& stallProducerOutput ≠ 0 then some (g, consumed)
    else
      match drainPass epoch cycles g consumed with
      | (g, consumed, true) => drainLoop sf epoch cycles fuel g consumed
      | (g, consumed, false) => some (g, consumed)

/-- `ring_process_input`, with the stall flags that the call has read. -/
def ringProcessInput (sf : UInt8) (epoch : UInt32) (cycles : UInt32 → UInt32) (fuel : ℕ)
    (g : Rings) : Option (Rings × UInt32) :=
  drainLoop sf epoch cycles fuel g 0

/-! ### The effect of a number of passes -/

/-- A slot that a consumer with this epoch skips. -/
def Stale (epoch : UInt32) (c : Slot) : Prop :=
  epoch ≠ 0 ∧ c.slotMeta.epoch ≠ 0 ∧ c.slotMeta.epoch ≠ epoch

instance (epoch : UInt32) : DecidablePred (Stale epoch) :=
  fun _ => inferInstanceAs (Decidable (_ ∧ _ ∧ _))

/-- `o` is the processor's output for `c`, and carries its identity. -/
structure Answers (c o : Slot) : Prop where
  processed : ∃ cycles, o = answer c cycles
  sequence : o.slotMeta.sequence = c.slotMeta.sequence
  epoch : o.slotMeta.epoch = c.slotMeta.epoch
  correctionPpm : o.slotMeta.correctionPpm = c.slotMeta.correctionPpm
  cpuTimestamp : o.slotMeta.cpuTimestamp = c.slotMeta.cpuTimestamp

/-- Whatever the processor does with a slot, its answer carries the slot's identity. -/
theorem answers_answer (c : Slot) (cycles : UInt32) : Answers c (answer c cycles) := by
  obtain ⟨e, herr⟩ | ⟨outMeta, outPayload, hok, -, hproc⟩ :=
    flprAudioProcess_cases c.slotMeta c.payload payloadCapacityBytes
  · have hanswer : answer c cycles = ⟨(errorMeta c.slotMeta).setProcessing cycles e.code,
        List.replicate payloadCapacityBytes 0⟩ := by
      rw [answer, herr]
    refine ⟨⟨cycles, rfl⟩, ?_, ?_, ?_, ?_⟩ <;> rw [hanswer] <;> rfl
  · have hanswer : answer c cycles = ⟨outMeta.setProcessing cycles 0, outPayload⟩ := by
      rw [answer, hok]
    split_ifs at hproc
    · obtain ⟨ctx, prev, prevValid, ctx', output, next, -, -, -, -, rfl, -⟩ := processAsrc_ok hproc
      refine ⟨⟨cycles, rfl⟩, ?_, ?_, ?_, ?_⟩ <;> rw [hanswer] <;> rfl
    · unfold processIdentity at hproc
      dsimp only at hproc
      split_ifs at hproc
      obtain ⟨rfl, -⟩ := Prod.mk.inj (Except.ok.inj hproc)
      refine ⟨⟨cycles, rfl⟩, ?_, ?_, ?_, ?_⟩ <;> rw [hanswer] <;> rfl

/-- From `g` to `g'` the slots `taken` left the input ring and `published` entered the output
ring. -/
structure Drained (epoch : UInt32) (g g' : Rings) (taken published : List Slot) : Prop where
  /-- The slots behind those taken stay where they are. -/
  input : g.inp.pending = taken ++ g'.inp.pending
  slots : g'.inp.slots = g.inp.slots
  producerIdx : g'.inp.producerIdx = g.inp.producerIdx
  /-- One answer for each slot that is not stale, in the order of the input. -/
  answers : List.Forall₂ Answers (taken.filter fun c => ¬ Stale epoch c) published
  output : g'.out.pending = g.out.pending ++ published
  consumerIdx : g'.out.consumerIdx = g.out.consumerIdx
  /-- No answer without room for it. -/
  room : published.length ≤ slotCount - g.out.load

section Drained

variable {epoch : UInt32} {g g' g'' : Rings} {taken taken' published published' : List Slot}

theorem Drained.refl (epoch : UInt32) (g : Rings) : Drained epoch g g [] [] :=
  ⟨rfl, rfl, rfl, .nil, (List.append_nil _).symm, rfl, Nat.zero_le _⟩

theorem Drained.load_out (h : Drained epoch g g' taken published) :
    g'.out.load = g.out.load + published.length := by
  rw [← Ring.length_pending, h.output, List.length_append, Ring.length_pending]

theorem Drained.trans (h : Drained epoch g g' taken published)
    (h' : Drained epoch g' g'' taken' published') :
    Drained epoch g g'' (taken ++ taken') (published ++ published') where
  input := by rw [h.input, h'.input, List.append_assoc]
  slots := h'.slots.trans h.slots
  producerIdx := h'.producerIdx.trans h.producerIdx
  answers := by
    rw [List.filter_append]
    exact List.rel_append h.answers h'.answers
  output := by rw [h'.output, h.output, List.append_assoc]
  consumerIdx := h'.consumerIdx.trans h.consumerIdx
  room := by
    have h₁ := h.room
    have h₂ := h'.room
    rw [h.load_out] at h₂
    rw [List.length_append]
    omega

/-! ### Passes -/

/-- `consume_begin` on a ring that holds something: the head is skipped if it is stale, else handed
to the consumer. -/
theorem consumeBegin_of_pending {r : Ring} (hload : 0 < r.load) :
    (Stale epoch (r.slots (slotBase r.consumerIdx)) ∧ r.consumeBegin epoch =
      ({ r.consumeDone with errStaleEpoch := r.errStaleEpoch + 1 }, .stale)) ∨
    (¬ Stale epoch (r.slots (slotBase r.consumerIdx)) ∧
      r.consumeBegin epoch = (r, .slot (slotBase r.consumerIdx))) := by
  have hused : used r.producerIdx r.consumerIdx ≠ 0 := by
    intro h₀
    rw [Ring.load, h₀] at hload
    exact absurd hload (by decide)
  by_cases hstale : Stale epoch (r.slots (slotBase r.consumerIdx))
  · refine .inl ⟨hstale, ?_⟩
    rw [Ring.consumeBegin, if_neg hused]
    exact if_pos hstale
  · refine .inr ⟨hstale, ?_⟩
    rw [Ring.consumeBegin, if_neg hused]
    exact if_neg hstale

theorem consumeBegin_of_empty {r : Ring} (hload : r.load = 0) :
    r.consumeBegin epoch = (r, .empty) := by
  have hused : used r.producerIdx r.consumerIdx = 0 := UInt32.toNat_inj.1 hload
  rw [Ring.consumeBegin, if_pos hused]

/-- One pass: it leaves both rings alone and is the last, since the output is full or the input
empty, or it takes one slot and publishes its answer unless the slot is stale. -/
theorem drainPass_cases (cycles : UInt32 → UInt32) (g : Rings) (consumed : UInt32) :
    ((slotCount ≤ g.out.load ∨ g.inp.pending = []) ∧
      drainPass epoch cycles g consumed = (g, consumed, false)) ∨
    ∃ g' c, g'.inp.load + 1 = g.inp.load ∧
      (Stale epoch c ∧ drainPass epoch cycles g consumed = (g', consumed, true) ∧
          Drained epoch g g' [c] [] ∨
        ¬ Stale epoch c ∧ drainPass epoch cycles g consumed = (g', consumed + 1, true) ∧
          Drained epoch g g' [c] [answer c (cycles consumed)]) := by
  unfold drainPass
  by_cases hfull : slotCount ≤ g.out.load
  · rw [if_pos (Ring.space_eq_zero_iff.2 hfull)]
    exact .inl ⟨.inl hfull, rfl⟩
  have hspace : ¬ space g.out.producerIdx g.out.consumerIdx = 0 := fun h =>
    hfull (Ring.space_eq_zero_iff.1 h)
  rw [if_neg hspace]
  rcases Nat.eq_zero_or_pos g.inp.load with hempty | hload
  · rw [consumeBegin_of_empty hempty]
    exact .inl ⟨.inr (Ring.pending_eq_nil.2 hempty), rfl⟩
  have hhead := Ring.pending_eq_cons hload
  have hdone := Ring.load_consumeDone hload
  right
  obtain ⟨hstale, hbegin⟩ | ⟨hfresh, hbegin⟩ := @consumeBegin_of_pending epoch _ hload
  · rw [hbegin]
    refine ⟨_, _, ?_, .inl ⟨hstale, rfl, hhead, rfl, rfl, ?_, ?_, rfl, Nat.zero_le _⟩⟩
    · show g.inp.consumeDone.load + 1 = g.inp.load
      omega
    · rw [List.filter_cons_of_neg (by simpa using hstale)]
      exact .nil
    · exact (List.append_nil _).symm
  · have hproduce : g.out.produceBegin = (g.out, some g.out.producerIdx) := if_neg hspace
    rw [hbegin]
    dsimp only
    rw [hproduce]
    refine ⟨_, _, ?_, .inr ⟨hfresh, rfl, hhead, rfl, rfl, ?_, ?_, rfl, ?_⟩⟩
    · show g.inp.consumeDone.load + 1 = g.inp.load
      omega
    · rw [List.filter_cons_of_pos (by simpa using hfresh)]
      exact .cons (answers_answer _ _) .nil
    · exact Ring.pending_produceCommit (Nat.lt_of_not_le hfull) _
    · show 1 ≤ _
      omega

/-- What makes a pass the last. -/
def Idle (sf : UInt8) (g : Rings) : Prop :=
  sf &&& stallConsumerInput ≠ 0 ∨ sf &&& stallProducerOutput ≠ 0 ∨ slotCount ≤ g.out.load ∨
    g.inp.pending = []

/-- The whole loop.  Every pass but the last takes a slot, so one more pass than there are slots
is enough. -/
theorem drained_loop (sf : UInt8) (cycles : UInt32 → UInt32) (fuel : ℕ) :
    ∀ (g : Rings) (consumed : UInt32), g.inp.load < fuel →
      ∃ g' taken published,
        drainLoop sf epoch cycles fuel g consumed =
          some (g', consumed + UInt32.ofNat published.length) ∧
        Drained epoch g g' taken published ∧ Idle sf g' := by
  induction fuel with
  | zero =>
    intro g consumed hfuel
    exact absurd hfuel (Nat.not_lt_zero _)
  | succ fuel ih =>
    intro g consumed hfuel
    have hstop : consumed = consumed + UInt32.ofNat ([] : List Slot).length :=
      (UInt32.add_zero _).symm
    rw [drainLoop]
    by_cases h₁ : sf &&& stallConsumerInput ≠ 0
    · rw [if_pos h₁]
      exact ⟨g, [], [], by rw [← hstop], .refl epoch g, .inl h₁⟩
    by_cases h₂ : sf &&& stallProducerOutput ≠ 0
    · rw [if_neg h₁, if_pos h₂]
      exact ⟨g, [], [], by rw [← hstop], .refl epoch g, .inr (.inl h₂)⟩
    rw [if_neg h₁, if_neg h₂]
    obtain ⟨hidle, hpass⟩ | ⟨g₁, c, hload, hpass⟩ := @drainPass_cases epoch cycles g consumed
    · rw [hpass]
      exact ⟨g, [], [], by rw [← hstop], .refl epoch g, .inr (.inr hidle)⟩
    rcases hpass with ⟨-, hpass, hfirst⟩ | ⟨-, hpass, hfirst⟩
    · -- a stale slot is skipped and not counted
      rw [hpass]
      obtain ⟨g', taken, published, hrun, hrest, hidle⟩ := ih g₁ consumed (by omega)
      exact ⟨g', _, _, hrun, hfirst.trans hrest, hidle⟩
    · rw [hpass]
      obtain ⟨g', taken, published, hrun, hrest, hidle⟩ := ih g₁ (consumed + 1) (by omega)
      refine ⟨g', _, _, hrun.trans ?_, hfirst.trans hrest, hidle⟩
      rw [List.singleton_append, List.length_cons, ← ofNat_add_one, UInt32.add_assoc,
        UInt32.add_comm 1]

end Drained

/-- **The drain loses nothing.**  For every content of the two rings, every epoch of the remote
core and every measured duration, the call returns after at most one pass more than there are
slots.  It has taken a prefix of the input and published one answer for each slot of the prefix
that is not stale, in order and with its identity, into room that the output ring had; everything
behind the prefix is untouched, and the returned number is the number of answers.  It stops only
when it is stalled, the output is full or the input is empty. -/
theorem drain_lossless (sf : UInt8) (epoch : UInt32) (cycles : UInt32 → UInt32) (g : Rings)
    (fuel : ℕ) :
    ∃ g' taken published consumed,
      ringProcessInput sf epoch cycles (g.inp.load + 1 + fuel) g = some (g', consumed) ∧
      Drained epoch g g' taken published ∧ consumed.toNat = published.length ∧ Idle sf g' := by
  obtain ⟨g', taken, published, hrun, hdrained, hidle⟩ :=
    @drained_loop epoch sf cycles (g.inp.load + 1 + fuel) g 0 (by omega)
  have hroom := hdrained.room
  refine ⟨g', taken, published, _, hrun, hdrained, ?_, hidle⟩
  rw [UInt32.zero_add, UInt32.toNat_ofNat_of_lt']
  unfold slotCount at hroom
  show published.length < 2 ^ 32
  omega

end Offload

end LeAudioReceiver
