import LeAudioReceiver.Acceptance.RingTest
import LeAudioReceiver.FlprRing.Pending

/-!
# The ring test on empty rings

Requests and answers are numbered.  Where both rings are empty before the test and the processor
does not fail, the slots that were received, those in the output ring and those in the input ring
carry the numbers from `0` on, without a gap (`Flow`).  Every step of the remote core and of the
test keeps that, so a test that passes has received every number once, in order, with its frames.

* `Flow.move` : a move of the surroundings keeps the flow, and what the thread has in hand;
* `consumeBlock_flow`, `produceBlock_flow` : so do the block operations.
-/

namespace LeAudioReceiver

namespace Acceptance

open FlprRing
open Offload (answer padTo)

/-! ## Numbered lists -/

/-- The entries of `l` carry the numbers from `start` on. -/
def Numbered {α : Type} (P : ℕ → α → Prop) (start : ℕ) (l : List α) : Prop :=
  ∀ j c, l[j]? = some c → P (start + j) c

namespace Numbered

variable {α : Type} {P : ℕ → α → Prop} {start : ℕ} {l l' : List α}

theorem nil : Numbered P start [] := by
  intro j c hj
  cases hj

theorem cons_iff {c : α} : Numbered P start (c :: l) ↔ P start c ∧ Numbered P (start + 1) l := by
  refine ⟨fun h => ⟨h 0 c rfl, fun j d hj => ?_⟩, fun h j d hj => ?_⟩
  · have := h (j + 1) d hj
    rwa [Nat.add_comm j 1, ← Nat.add_assoc] at this
  · cases j with
    | zero =>
      obtain rfl := Option.some.inj hj
      exact h.1
    | succ j =>
      have := h.2 j d hj
      rwa [Nat.add_assoc, Nat.add_comm 1 j] at this

theorem append_iff :
    Numbered P start (l ++ l') ↔ Numbered P start l ∧ Numbered P (start + l.length) l' := by
  induction l generalizing start with
  | nil =>
    refine ⟨fun h => ⟨nil, h⟩, fun h => h.2⟩
  | cons c l ih =>
    rw [List.cons_append, cons_iff, cons_iff, ih, List.length_cons, and_assoc,
      Nat.add_assoc start 1, Nat.add_comm 1]

theorem snoc {c : α} (h : Numbered P start l) (hc : P (start + l.length) c) :
    Numbered P start (l ++ [c]) :=
  append_iff.2 ⟨h, cons_iff.2 ⟨hc, nil⟩⟩

end Numbered

/-! ## Requests and answers -/

/-- Slot `c` is what the test sends under number `k`. -/
def IsRequest (e : UInt32) (k : ℕ) (c : Slot) : Prop :=
  ∃ old timestamp, c = blockSlot old (genPayload payloadCapacityBytes (UInt32.ofNat k)) 480
    (UInt32.ofNat k) 0 true e timestamp

/-- Slot `c` carries the sequence number `k` and the 480 frames generated for it. -/
structure IsAnswer (e : UInt32) (k : ℕ) (c : Slot) : Prop where
  sequence : c.slotMeta.sequence = UInt32.ofNat k
  epoch : c.slotMeta.epoch = e
  frames : c.slotMeta.validFrames = 480
  payload : c.payload.take (480 * 4) = genPayload (480 * 4) (UInt32.ofNat k)

theorem length_genPayload (n : ℕ) (q : UInt32) : (genPayload n q).length = n := by
  rw [genPayload_eq, List.length_map, List.length_range]

theorem take_genPayload {n m : ℕ} (h : m ≤ n) (q : UInt32) :
    (genPayload n q).take m = genPayload m q := by
  rw [genPayload_eq, genPayload_eq, ← List.map_take, List.take_range, Nat.min_eq_left h]

theorem take_padTo (size : ℕ) (bytes : List UInt8) :
    (padTo size bytes).take bytes.length = bytes := by
  rw [padTo, List.take_append_of_le_length le_rfl, List.take_length]

theorem length_padTo {size : ℕ} {bytes : List UInt8} (h : bytes.length ≤ size) :
    (padTo size bytes).length = size := by
  rw [padTo, List.length_append, List.length_replicate]
  omega

variable {e : UInt32} {k : ℕ} {c : Slot}

theorem IsRequest.epoch (h : IsRequest e k c) : c.slotMeta.epoch = e := by
  obtain ⟨old, timestamp, rfl⟩ := h
  rfl

theorem blockSlot_genPayload (old : SlotMeta) (q e ts : UInt32) :
    blockSlot old (genPayload payloadCapacityBytes q) 480 q 0 true e ts =
      ⟨{ old with
          sequence := q, epoch := e, validFrames := 480, flags := flagValid, correctionPpm := 0
          cpuTimestamp := ts, crc32 := crc32 (genPayload (480 * 4) q) },
        padTo payloadCapacityBytes (genPayload (480 * 4) q)⟩ := by
  have htake : (genPayload payloadCapacityBytes q).take ((480 : UInt16).toNat * 4) =
      genPayload (480 * 4) q := take_genPayload (by decide) q
  unfold blockSlot
  dsimp only
  rw [htake, if_pos rfl]

theorem flprAudioProcess_request {m : SlotMeta} {bytes : List UInt8}
    (hflags : m.flags = flagValid) (hframes : m.validFrames = 480) (hlen : bytes.length = 480 * 4)
    (hcrc : m.crc32 = crc32 bytes) :
    Offload.flprAudioProcess m (padTo payloadCapacityBytes bytes) payloadCapacityBytes =
      (0, { SlotMeta.zero with
            sequence := m.sequence, epoch := m.epoch, validFrames := 480, flags := flagValid
            correctionPpm := m.correctionPpm, crc32 := m.crc32, cpuTimestamp := m.cpuTimestamp },
        padTo payloadCapacityBytes bytes) := by
  have htake : (padTo payloadCapacityBytes bytes).take ((480 : UInt16).toNat * 4) = bytes := by
    have := take_padTo payloadCapacityBytes bytes
    rwa [hlen] at this
  have hsize : (padTo payloadCapacityBytes bytes).length = payloadCapacityBytes := by
    refine length_padTo ?_
    rw [hlen]
    decide
  have hident : ¬ (flagValid &&& flagAsrcLinear ≠ 0) := by decide
  have hvalid : Offload.validateInput m (padTo payloadCapacityBytes bytes) = none := by
    unfold Offload.validateInput
    dsimp only
    rw [hflags, hframes, htake, hsize, hcrc, if_neg (by decide), if_neg (by decide),
      if_neg (by decide), if_neg (by decide), if_neg (by decide), if_neg fun h => hident h.1,
      if_neg fun h => h.2 rfl]
  have hcopy : Offload.processIdentity m (padTo payloadCapacityBytes bytes) payloadCapacityBytes =
      .ok ({ SlotMeta.zero with
            sequence := m.sequence, epoch := m.epoch, validFrames := 480, flags := flagValid
            correctionPpm := m.correctionPpm, crc32 := m.crc32, cpuTimestamp := m.cpuTimestamp },
        padTo payloadCapacityBytes bytes) := by
    unfold Offload.processIdentity
    dsimp only
    rw [hflags, hframes, htake, if_neg (by decide)]
    rfl
  unfold Offload.flprAudioProcess
  rw [hvalid, hflags]
  dsimp only
  rw [if_neg hident, hcopy]

theorem respond_none {m m' : SlotMeta} {payload payload' : List UInt8} {cycles : UInt32}
    {ret : Int32}
    (h : Offload.flprAudioProcess m payload payloadCapacityBytes = (ret, m', payload')) :
    respond ⟨m, payload⟩ cycles none = ⟨m'.setProcessing cycles ret, payload'⟩ := by
  unfold respond answer
  rw [h]

theorem IsRequest.respond (h : IsRequest e k c) (cycles : UInt32) :
    IsAnswer e k (respond c cycles none) := by
  obtain ⟨old, ts, rfl⟩ := h
  generalize hq : UInt32.ofNat k = q
  have hlen := length_genPayload (480 * 4) q
  rw [blockSlot_genPayload]
  generalize hbytes : genPayload (480 * 4) q = bytes at hlen
  have htake := take_padTo payloadCapacityBytes bytes
  rw [hlen] at htake
  rw [respond_none (flprAudioProcess_request rfl rfl hlen rfl)]
  exact ⟨hq.symm, rfl, rfl, by rw [hq, hbytes]; exact htake⟩

/-! ## The flow through the rings -/

/-- The requests that the remote core has still to answer: the slot that it is about to release has
its answer in the output ring. -/
def waiting (inp : Ring) : FlprPc → List Slot
  | .published _ => inp.pending.tail
  | _ => inp.pending

/-- What the main loop has in hand, where its next answer has number `k`. -/
def InHand (e : UInt32) (k : ℕ) (inp out : Ring) : FlprPc → Prop
  | .claimed _ i => 0 < inp.load ∧ i = slotBase inp.consumerIdx
  | .producing _ i idx =>
    0 < inp.load ∧ i = slotBase inp.consumerIdx ∧ out.load < slotCount ∧ idx = out.producerIdx
  | .processed _ =>
    0 < inp.load ∧ out.load < slotCount ∧ IsAnswer e k (out.slots (slotBase out.producerIdx))
  | .published _ => 0 < inp.load
  | _ => True

/-- `n` requests were sent, and the answers `l` received: the numbers go on from there through the
output ring and then through the input ring. -/
structure Flow (e first : UInt32) (n : ℕ) (l : List Slot) (inp out : Ring) (pc : FlprPc) :
    Prop where
  inpBound : inp.load ≤ slotCount
  outBound : out.load ≤ slotCount
  consumer : out.consumerIdx = first + UInt32.ofNat l.length
  answers : Numbered (IsAnswer e) 0 (l ++ out.pending)
  requests : Numbered (IsRequest e) (l.length + out.load) (waiting inp pc)
  count : l.length + out.load + (waiting inp pc).length = n
  hand : InHand e (l.length + out.load) inp out pc

namespace Flow

variable {first : UInt32} {n : ℕ} {l : List Slot} {inp out : Ring} {pc : FlprPc}

theorem idle (h : Flow e first n l inp out pc) {pc' : FlprPc}
    (hw : waiting inp pc' = waiting inp pc)
    (hh : InHand e (l.length + out.load) inp out pc') : Flow e first n l inp out pc' := by
  refine ⟨h.inpBound, h.outBound, h.consumer, h.answers, ?_, ?_, hh⟩
  · rw [hw]
    exact h.requests
  · rw [hw]
    exact h.count

theorem head (h : Flow e first n l inp out pc) (hw : waiting inp pc = inp.pending)
    (hload : 0 < inp.load) :
    IsRequest e (l.length + out.load) (inp.slots (slotBase inp.consumerIdx)) := by
  have hreq := h.requests
  rw [hw, Ring.pending_eq_cons hload] at hreq
  exact (Numbered.cons_iff.1 hreq).1

theorem outHead (h : Flow e first n l inp out pc) (hload : 0 < out.load) :
    IsAnswer e l.length (out.slots (slotBase out.consumerIdx)) := by
  have hans := h.answers
  rw [Ring.pending_eq_cons hload, Numbered.append_iff, Nat.zero_add] at hans
  exact (Numbered.cons_iff.1 hans.2).1

/-! ### Steps of the remote core -/

theorem inpBegin {sf : UInt8} (h : Flow e first n l inp out (.checked sf)) :
    inp.consumeBegin e = (inp, .empty) ∨
      inp.consumeBegin e = (inp, .slot (slotBase inp.consumerIdx)) ∧ 0 < inp.load := by
  unfold Ring.consumeBegin
  dsimp only
  split_ifs with hempty hstale
  · exact .inl rfl
  · -- every request carries the epoch
    exact absurd (h.head rfl (Ring.load_pos hempty)).epoch hstale.2.2
  · exact .inr ⟨rfl, Ring.load_pos hempty⟩

/-- Writing into free space leaves what is in use. -/
theorem pending_write {r : Ring} (h : r.load < slotCount) (c : Slot) :
    (r.write r.producerIdx c).pending = r.pending := by
  refine List.map_congr_left fun k hk => ?_
  exact Function.update_of_ne (Ring.slotIdx_ne_producer h (List.mem_range.1 hk)) _ _

theorem write_slots_self (r : Ring) (idx : UInt32) (c : Slot) :
    (r.write idx c).slots (slotBase idx) = c := Function.update_self _ _ _

theorem write_self (r : Ring) (idx : UInt32) : r.write idx (r.slots (slotBase idx)) = r := by
  unfold Ring.write
  rw [Function.update_eq_self]

theorem process {sf : UInt8} {i : Fin 4} {idx : UInt32}
    (h : Flow e first n l inp out (.producing sf i idx)) (cycles : UInt32) :
    Flow e first n l inp (out.write idx (respond (inp.slots i) cycles none)) (.processed sf) := by
  obtain ⟨hload, rfl, hroom, rfl⟩ := h.hand
  have hanswer := (h.head rfl hload).respond cycles
  refine ⟨h.inpBound, h.outBound, h.consumer, ?_, h.requests, h.count, hload, hroom, ?_⟩
  · rw [pending_write hroom]
    exact h.answers
  · show IsAnswer e _ ((out.write out.producerIdx _).slots (slotBase out.producerIdx))
    rw [write_slots_self]
    exact hanswer

theorem publish {sf : UInt8} (h : Flow e first n l inp out (.processed sf)) :
    Flow e first n l inp out.produceCommit (.published sf) := by
  obtain ⟨hload, hroom, hanswer⟩ := h.hand
  have hpending := Ring.pending_produceCommit hroom (out.slots (slotBase out.producerIdx))
  rw [write_self] at hpending
  have hcommit := Ring.load_produceCommit hroom
  have hreq : Numbered (IsRequest e) (l.length + out.load) inp.pending := h.requests
  have hcount : l.length + out.load + inp.pending.length = n := h.count
  rw [Ring.pending_eq_cons hload] at hreq hcount
  refine ⟨h.inpBound, by omega, h.consumer, ?_, ?_, ?_, hload⟩
  · rw [hpending, ← List.append_assoc]
    refine h.answers.snoc ?_
    rw [List.length_append, Ring.length_pending, Nat.zero_add]
    exact hanswer
  · rw [hcommit, waiting, Ring.pending_eq_cons hload]
    exact (Numbered.cons_iff.1 hreq).2
  · rw [hcommit, waiting, Ring.pending_eq_cons hload, List.tail_cons, ← hcount, List.length_cons]
    omega

theorem release {sf : UInt8} (h : Flow e first n l inp out (.published sf)) :
    Flow e first n l inp.consumeDone out (.head sf) := by
  have hload : 0 < inp.load := h.hand
  have htail : inp.consumeDone.pending = inp.pending.tail := by
    rw [Ring.pending_eq_cons hload, List.tail_cons]
  have hdone := Ring.load_consumeDone hload
  have hbound := h.inpBound
  refine ⟨by omega, h.outBound, h.consumer, h.answers, ?_, ?_, trivial⟩
  · show Numbered _ _ inp.consumeDone.pending
    rw [htail]
    exact h.requests
  · show _ + inp.consumeDone.pending.length = n
    rw [htail]
    exact h.count

/-! ### Steps of the test -/

theorem outBegin (h : Flow e first n l inp out pc) :
    out.consumeBegin e = (out, .empty) ∨
      out.consumeBegin e = (out, .slot (slotBase out.consumerIdx)) ∧ 0 < out.load := by
  unfold Ring.consumeBegin
  dsimp only
  split_ifs with hempty hstale
  · exact .inl rfl
  · exact absurd (h.outHead (Ring.load_pos hempty)).epoch hstale.2.2
  · exact .inr ⟨rfl, Ring.load_pos hempty⟩

theorem take (h : Flow e first n l inp out pc) (hload : 0 < out.load) :
    Flow e first n (l ++ [out.slots (slotBase out.consumerIdx)]) inp out.consumeDone pc := by
  have hdone := Ring.load_consumeDone hload
  have hbound := h.outBound
  have hans := h.answers
  rw [Ring.pending_eq_cons hload, List.append_cons] at hans
  have hlen : (l ++ [out.slots (slotBase out.consumerIdx)]).length = l.length + 1 :=
    List.length_append
  have hsum : (l ++ [out.slots (slotBase out.consumerIdx)]).length + out.consumeDone.load =
      l.length + out.load := by omega
  refine ⟨h.inpBound, by omega, ?_, hans, ?_, ?_, ?_⟩
  · show out.consumerIdx + 1 = _
    rw [hlen, h.consumer, ← ofNat_add_one, UInt32.add_assoc]
  · rw [hsum]
    exact h.requests
  · rw [hsum]
    exact h.count
  · rw [hsum]
    have hhand := h.hand
    cases pc with
    | producing sf i idx => exact ⟨hhand.1, hhand.2.1, by have := hhand.2.2.1; omega, hhand.2.2.2⟩
    | processed sf => exact ⟨hhand.1, by have := hhand.2.1; omega, hhand.2.2⟩
    | _ => exact hhand

theorem write (h : Flow e first n l inp out pc) (hroom : inp.load < slotCount) (c : Slot) :
    Flow e first n l (inp.write inp.producerIdx c) out pc := by
  have hw : waiting (inp.write inp.producerIdx c) pc = waiting inp pc := by
    unfold waiting
    rw [pending_write hroom]
  refine ⟨h.inpBound, h.outBound, h.consumer, h.answers, ?_, ?_, ?_⟩
  · rw [hw]
    exact h.requests
  · rw [hw]
    exact h.count
  · have hhand := h.hand
    cases pc <;> exact hhand

theorem put (h : Flow e first n l inp out pc) (hroom : inp.load < slotCount)
    (hc : IsRequest e n (inp.slots (slotBase inp.producerIdx))) :
    Flow e first (n + 1) l inp.produceCommit out pc := by
  have hpending := Ring.pending_produceCommit hroom (inp.slots (slotBase inp.producerIdx))
  rw [write_self] at hpending
  have hcommit := Ring.load_produceCommit hroom
  have hw : waiting inp.produceCommit pc =
      waiting inp pc ++ [inp.slots (slotBase inp.producerIdx)] := by
    cases pc with
    | published sf =>
      have hload : 0 < inp.load := h.hand
      show inp.produceCommit.pending.tail = inp.pending.tail ++ _
      rw [hpending, Ring.pending_eq_cons hload]
      rfl
    | _ => exact hpending
  refine ⟨by omega, h.outBound, h.consumer, h.answers, ?_, ?_, ?_⟩
  · rw [hw]
    refine h.requests.snoc ?_
    rw [h.count]
    exact hc
  · rw [hw, List.length_append, ← Nat.add_assoc, h.count]
    rfl
  · have hhand := h.hand
    have hpos : 0 < inp.produceCommit.load := by omega
    cases pc with
    | claimed sf i => exact ⟨hpos, hhand.2⟩
    | producing sf i idx => exact ⟨hpos, hhand.2⟩
    | processed sf => exact ⟨hpos, hhand.2⟩
    | published sf => exact hpos
    | _ => trivial

end Flow

/-! ## Moves of the surroundings -/

/-- The processor does not fail. -/
def Move.Clean : Move → Prop
  | .flpr _ (some _) => False
  | _ => True

def Turn.Clean (t : Turn) : Prop := ∀ m ∈ t.moves, m.Clean

/-- A test with epoch `e`, which sent `n` requests and received `l` behind `base`. -/
structure Testing (e first : UInt32) (base : List Slot) (n : ℕ) (l : List Slot) (s : Sys) :
    Prop where
  flow : Flow e first n l s.inp s.out s.flpr
  epoch : s.epoch = e
  flprEpoch : s.flprEpoch = e
  requests : s.requests = []
  consumed : s.consumed = base ++ l

/-- What the surroundings leave to the thread: its counters, the slot that it writes and the slot
that it reads. -/
structure Beside (s s' : Sys) : Prop where
  counters : s'.counters = s.counters
  inpProducer : s'.inp.producerIdx = s.inp.producerIdx
  inpSlots : s'.inp.slots = s.inp.slots
  inpLoad : s'.inp.load ≤ s.inp.load
  outConsumer : s'.out.consumerIdx = s.out.consumerIdx
  outLoad : s.out.load ≤ s'.out.load
  outHead : 0 < s.out.load →
    s'.out.slots (slotBase s.out.consumerIdx) = s.out.slots (slotBase s.out.consumerIdx)

theorem Beside.refl (s : Sys) : Beside s s :=
  ⟨rfl, rfl, rfl, le_rfl, rfl, le_rfl, fun _ => rfl⟩

theorem Beside.trans {s s' s'' : Sys} (h : Beside s s') (h' : Beside s' s'') : Beside s s'' := by
  refine ⟨h'.counters.trans h.counters, h'.inpProducer.trans h.inpProducer,
    h'.inpSlots.trans h.inpSlots, h'.inpLoad.trans h.inpLoad, h'.outConsumer.trans h.outConsumer,
    h.outLoad.trans h'.outLoad, fun hload => ?_⟩
  have hhead := h'.outHead (Nat.lt_of_lt_of_le hload h.outLoad)
  rw [h.outConsumer] at hhead
  exact hhead.trans (h.outHead hload)

namespace Testing

variable {first : UInt32} {base : List Slot} {n : ℕ} {l : List Slot} {s : Sys}

theorem flprStep (h : Testing e first base n l s) (cycles : UInt32) :
    Testing e first base n l (s.flprStep cycles none) ∧ Beside s (s.flprStep cycles none) := by
  have hflow := h.flow
  -- the sections that only move the loop on
  have hpc : ∀ pc, waiting s.inp pc = waiting s.inp s.flpr →
      InHand e (l.length + s.out.load) s.inp s.out pc →
      Testing e first base n l { s with flpr := pc } ∧ Beside s { s with flpr := pc } := by
    intro pc hw hh
    refine ⟨⟨hflow.idle hw hh, h.epoch, h.flprEpoch, h.requests, h.consumed⟩, ?_⟩
    exact ⟨rfl, rfl, rfl, le_rfl, rfl, le_rfl, fun _ => rfl⟩
  unfold Sys.flprStep
  cases hs : s.flpr with
  | outside =>
    rw [hs] at hpc
    exact hpc _ rfl trivial
  | head sf =>
    rw [hs] at hpc
    dsimp only
    split_ifs <;> exact hpc _ rfl trivial
  | checked sf =>
    rw [hs] at hpc hflow
    have hbegin := hflow.inpBegin
    rw [← h.flprEpoch] at hbegin
    dsimp only
    rcases hbegin with hb | ⟨hb, hload⟩
    · rw [hb]
      exact hpc .outside rfl trivial
    · rw [hb]
      exact hpc (.claimed sf _) rfl ⟨hload, rfl⟩
  | claimed sf i =>
    rw [hs] at hpc hflow
    dsimp only
    unfold Ring.produceBegin
    split_ifs with hspace
    · -- the counter of a full ring is all that changes
      exact ⟨⟨⟨hflow.inpBound, hflow.outBound, hflow.consumer, hflow.answers, hflow.requests,
        hflow.count, trivial⟩, h.epoch, h.flprEpoch, h.requests, h.consumed⟩,
        ⟨rfl, rfl, rfl, le_rfl, rfl, le_rfl, fun _ => rfl⟩⟩
    · rw [Ring.space_eq_zero_iff, Nat.not_le] at hspace
      exact hpc (.producing sf i _) rfl ⟨hflow.hand.1, hflow.hand.2, hspace, rfl⟩
  | producing sf i idx =>
    rw [hs] at hflow
    obtain ⟨-, -, hroom, hidx⟩ := hflow.hand
    refine ⟨⟨hflow.process cycles, h.epoch, h.flprEpoch, h.requests, h.consumed⟩, ?_⟩
    refine ⟨rfl, rfl, rfl, le_rfl, rfl, le_rfl, fun hload => ?_⟩
    -- the answer is written beside the slots in use
    have hne := Ring.slotIdx_ne_producer hroom hload
    rw [← hidx] at hne
    exact Function.update_of_ne hne _ _
  | processed sf =>
    rw [hs] at hflow
    have hcommit := Ring.load_produceCommit hflow.hand.2.1
    refine ⟨⟨hflow.publish, h.epoch, h.flprEpoch, h.requests, h.consumed⟩, ?_⟩
    refine ⟨rfl, rfl, rfl, le_rfl, rfl, ?_, fun _ => rfl⟩
    show s.out.load ≤ s.out.produceCommit.load
    omega
  | published sf =>
    rw [hs] at hflow
    have hdone := Ring.load_consumeDone hflow.hand
    refine ⟨⟨hflow.release, h.epoch, h.flprEpoch, h.requests, h.consumed⟩, ?_⟩
    refine ⟨rfl, rfl, rfl, ?_, rfl, le_rfl, fun _ => rfl⟩
    show s.inp.consumeDone.load ≤ s.inp.load
    omega

theorem messages (h : Testing e first base n l s) (sem : ℕ) (acks : List Control)
    (resetAck stallAck : Ack) :
    Testing e first base n l
        { s with sem := sem, acks := acks, resetAck := resetAck, stallAck := stallAck } ∧
      Beside s { s with sem := sem, acks := acks, resetAck := resetAck, stallAck := stallAck } :=
  ⟨⟨h.flow, h.epoch, h.flprEpoch, h.requests, h.consumed⟩,
    ⟨rfl, rfl, rfl, le_rfl, rfl, le_rfl, fun _ => rfl⟩⟩

/-- A move of the surroundings. -/
theorem move (h : Testing e first base n l s) {m : Move} (hm : m.Clean) :
    Testing e first base n l (s.move m) ∧ Beside s (s.move m) := by
  cases m with
  | flpr cycles err =>
    cases err with
    | none => exact h.flprStep cycles
    | some err => exact hm.elim
  | request sent =>
    unfold Sys.move
    rw [h.requests]
    exact ⟨h, Beside.refl s⟩
  | ack =>
    unfold Sys.move
    cases s.acks with
    | nil => exact ⟨h, Beside.refl s⟩
    | cons a acks =>
      cases a with
      | reset seq data => exact h.messages s.sem acks _ s.stallAck
      | stall seq data => exact h.messages s.sem acks s.resetAck _
  | consumer data =>
    unfold Sys.move Sys.onRingConsumer
    dsimp only
    split_ifs
    · exact ⟨h, Beside.refl s⟩
    · exact h.messages _ s.acks s.resetAck s.stallAck

theorem moves (h : Testing e first base n l s) {ms : List Move} (hms : ∀ m ∈ ms, m.Clean) :
    Testing e first base n l (ms.foldl Sys.move s) ∧ Beside s (ms.foldl Sys.move s) := by
  induction ms generalizing s with
  | nil => exact ⟨h, Beside.refl s⟩
  | cons m ms ih =>
    obtain ⟨hm, hms⟩ := List.forall_mem_cons.1 hms
    have hone := h.move hm
    have hrest := ih hone.1 hms
    exact ⟨hrest.1, hone.2.trans hrest.2⟩

end Testing

/-! ## The block operations -/

section

variable (e first : UInt32) (base : List Slot) (n : ℕ)

/-- A test in flow with `I` besides, which may speak of the received slots. -/
def InFlow (I : List Slot → Sys → Prop) (s : Sys) : Prop :=
  ∃ l, Testing e first base n l s ∧ I l s

/-- What holds between two operations: `recv` counts the received slots. -/
def Rest : Sys → Prop :=
  InFlow e first base n fun l s => s.counters.recv = UInt32.ofNat l.length

/-- After `consume_begin`. -/
def Began : Consume ⊕ Fin 4 → Sys → Prop
  | .inl _ => Rest e first base n
  | .inr i => InFlow e first base n fun l s =>
      s.counters.recv = UInt32.ofNat l.length ∧ 0 < s.out.load ∧ i = slotBase s.out.consumerIdx

/-- The thread has read slot `c`. -/
def Holding (c : Slot) : Sys → Prop :=
  InFlow e first base n fun l s =>
    s.counters.recv = UInt32.ofNat l.length ∧ 0 < s.out.load ∧
      c = s.out.slots (slotBase s.out.consumerIdx)

/-- After `produce_begin`. -/
def Reserved : Option UInt32 → Sys → Prop
  | none => Rest e first base n
  | some idx => InFlow e first base n fun l s =>
      s.counters.recv = UInt32.ofNat l.length ∧ s.inp.load < slotCount ∧ idx = s.inp.producerIdx

/-- The next request is written. -/
def Written : Sys → Prop :=
  InFlow e first base n fun l s =>
    s.counters.recv = UInt32.ofNat l.length ∧ s.inp.load < slotCount ∧
      IsRequest e n (s.inp.slots (slotBase s.inp.producerIdx))

/-- After `flpr_ring_mgr_produce_block`. -/
def Produced : Produce → Sys → Prop
  | .ok => Rest e first base (n + 1)
  | _ => Rest e first base n

end

section

open Scheduled (Triple)

variable {first : UInt32} {base : List Slot} {n : ℕ}

theorem cpu_flow {α : Type} {I : List Slot → Sys → Prop} {f : Turn → Sys → α × Sys}
    {Q : α → Sys → Prop} (hI : ∀ l s s', Beside s s' → I l s → I l s')
    (h : ∀ t s l, Testing e first base n l s → I l s → Q (f t s).1 (f t s).2) :
    Triple Turn.Clean (InFlow e first base n I) (cpu f) Q := by
  refine Triple.stepAfter (fun t s ht hs => ?_) fun t s _ hs => ?_
  · obtain ⟨l, hl, hi⟩ := hs
    obtain ⟨hl', hbeside⟩ := hl.moves ht
    exact ⟨l, hl', hI l s _ hbeside hi⟩
  · obtain ⟨l, hl, hi⟩ := hs
    exact h t s l hl hi

theorem cpu_rest {α : Type} {f : Turn → Sys → α × Sys} {Q : α → Sys → Prop}
    (h : ∀ t s, Rest e first base n s → Q (f t s).1 (f t s).2) :
    Triple Turn.Clean (Rest e first base n) (cpu f) Q := by
  refine cpu_flow (fun l s s' hb hi => ?_) fun t s l hl hi => h t s ⟨l, hl, hi⟩
  rw [hb.counters]
  exact hi

theorem Testing.count {l : List Slot} {s : Sys} (h : Testing e first base n l s)
    (f : TestCounters → TestCounters) : Testing e first base n l (s.count f) :=
  ⟨h.flow, h.epoch, h.flprEpoch, h.requests, h.consumed⟩

theorem Rest.count {s : Sys} (h : Rest e first base n s) {f : TestCounters → TestCounters}
    (hf : ∀ c, (f c).recv = c.recv) : Rest e first base n (s.count f) := by
  obtain ⟨l, hl, hrecv⟩ := h
  exact ⟨l, hl.count f, (hf s.counters).trans hrecv⟩

theorem consumeBegin_flow :
    Triple Turn.Clean (Rest e first base n) (cpu fun _ s => s.consumeBegin)
      (Began e first base n) := by
  refine cpu_rest fun t s hs => ?_
  obtain ⟨l, hl, hrecv⟩ := hs
  have hbegin := hl.flow.outBegin
  rw [← hl.epoch] at hbegin
  unfold Sys.consumeBegin
  rcases hbegin with hb | ⟨hb, hload⟩
  · rw [hb]
    exact ⟨l, hl, hrecv⟩
  · rw [hb]
    exact ⟨l, hl, hrecv, hload, rfl⟩

/-- What the thread has read does not change behind its back. -/
theorem holding_beside {c : Slot} (l : List Slot) (s s' : Sys) (hb : Beside s s')
    (h : s.counters.recv = UInt32.ofNat l.length ∧ 0 < s.out.load ∧
      c = s.out.slots (slotBase s.out.consumerIdx)) :
    s'.counters.recv = UInt32.ofNat l.length ∧ 0 < s'.out.load ∧
      c = s'.out.slots (slotBase s'.out.consumerIdx) := by
  obtain ⟨hrecv, hload, hc⟩ := h
  rw [hb.counters, hb.outConsumer, hb.outHead hload]
  exact ⟨hrecv, Nat.lt_of_lt_of_le hload hb.outLoad, hc⟩

theorem readSlot_flow {i : Fin 4} :
    Triple Turn.Clean (Began e first base n (.inr i)) (cpu fun _ s => (s.out.slots i, s))
      (Holding e first base n) := by
  refine cpu_flow (fun l s s' hb hi => ?_) fun t s l hl hi => ?_
  · obtain ⟨hrecv, hload, hi⟩ := hi
    rw [hb.counters, hb.outConsumer]
    exact ⟨hrecv, Nat.lt_of_lt_of_le hload hb.outLoad, hi⟩
  · obtain ⟨hrecv, hload, rfl⟩ := hi
    exact ⟨l, hl, hrecv, hload, rfl⟩

theorem verify_flow {c : Slot} :
    Triple Turn.Clean (Holding e first base n c) (update fun s => s.verify c)
      fun _ => Holding e first base n c := by
  refine cpu_flow holding_beside fun t s l hl hi => ?_
  show Holding e first base n c (s.verify c)
  unfold Sys.verify
  by_cases hactive : s.testActive = true
  · rw [if_pos hactive]
    exact ⟨l, hl.count _, hi⟩
  · rw [if_neg hactive]
    exact ⟨l, hl, hi⟩

theorem consumeDone_flow {c : Slot} :
    Triple Turn.Clean (Holding e first base n c)
      (update fun s => { s with out := s.out.consumeDone, consumed := s.consumed ++ [c] })
      fun _ => InFlow e first base n fun l s => s.counters.recv + 1 = UInt32.ofNat l.length := by
  refine cpu_flow holding_beside fun t s l hl hi => ?_
  obtain ⟨hrecv, hload, rfl⟩ := hi
  refine ⟨_, ⟨hl.flow.take hload, hl.epoch, hl.flprEpoch, hl.requests, ?_⟩, ?_⟩
  · show s.consumed ++ _ = _
    rw [hl.consumed, List.append_assoc]
  · show s.counters.recv + 1 = _
    rw [hrecv, ofNat_add_one, List.length_append]
    rfl

theorem countRecv_flow :
    Triple Turn.Clean
      (InFlow e first base n fun l s => s.counters.recv + 1 = UInt32.ofNat l.length)
      (update fun s => s.count fun k => { k with recv := k.recv + 1 })
      fun _ => Rest e first base n := by
  refine cpu_flow (fun l s s' hb hi => ?_) fun t s l hl hi => ?_
  · rw [hb.counters]
    exact hi
  · exact ⟨l, hl.count fun k => { k with recv := k.recv + 1 }, hi⟩

/-- A slot that the thread holds has a valid number of frames. -/
theorem Holding.frames {c : Slot} {s : Sys} (h : Holding e first base n c s) :
    ¬ c.slotMeta.validFrames.toNat > payloadCapacityFrames := by
  obtain ⟨l, hl, -, hload, rfl⟩ := h
  rw [(hl.flow.outHead hload).frames]
  decide

theorem consumeBlock_flow :
    Triple Turn.Clean (Rest e first base n) consumeBlock fun _ => Rest e first base n := by
  refine consumeBegin_flow.bind fun r => ?_
  cases r with
  | inl result => exact Triple.pure fun s hs => hs
  | inr i =>
    refine readSlot_flow.bind fun c => Triple.of_pre (fun hframes => ?_) fun s => Holding.frames
    refine Triple.ite (fun h => absurd h hframes) fun _ => ?_
    refine verify_flow.bind fun _ => ?_
    refine consumeDone_flow.bind fun _ => ?_
    refine countRecv_flow.bind fun _ => ?_
    exact Triple.pure fun s hs => hs

theorem room_beside {P : Ring → Prop} (hP : ∀ r r' : Ring, r'.producerIdx = r.producerIdx →
      r'.slots = r.slots → P r → P r') (l : List Slot) (s s' : Sys) (hb : Beside s s')
    (h : s.counters.recv = UInt32.ofNat l.length ∧ s.inp.load < slotCount ∧ P s.inp) :
    s'.counters.recv = UInt32.ofNat l.length ∧ s'.inp.load < slotCount ∧ P s'.inp := by
  obtain ⟨hrecv, hroom, hp⟩ := h
  rw [hb.counters]
  exact ⟨hrecv, Nat.lt_of_le_of_lt hb.inpLoad hroom, hP _ _ hb.inpProducer hb.inpSlots hp⟩

theorem checkStall_flow :
    Triple Turn.Clean (Rest e first base n) (cpu fun _ s => s.checkStall)
      fun _ => Rest e first base n := by
  refine cpu_rest fun t s hs => ?_
  show Rest e first base n s.checkStall.2
  unfold Sys.checkStall
  split_ifs
  · exact hs.count (f := fun c => { c with backpressure := c.backpressure + 1 }) fun c => rfl
  · exact hs

theorem produceBegin_flow :
    Triple Turn.Clean (Rest e first base n) (cpu fun _ s => s.produceBegin)
      (Reserved e first base n) := by
  refine cpu_rest fun t s hs => ?_
  obtain ⟨l, hl, hrecv⟩ := hs
  unfold Sys.produceBegin Ring.produceBegin
  split_ifs with hspace
  · have hflow := hl.flow
    exact ⟨l, ⟨⟨hflow.inpBound, hflow.outBound, hflow.consumer, hflow.answers, hflow.requests,
      hflow.count, hflow.hand⟩, hl.epoch, hl.flprEpoch, hl.requests, hl.consumed⟩, hrecv⟩
  · rw [Ring.space_eq_zero_iff, Nat.not_le] at hspace
    exact ⟨l, hl, hrecv, hspace, rfl⟩

theorem writeSlot_flow {idx : UInt32} :
    Triple Turn.Clean (Reserved e first base n (some idx))
      (cpu fun t s => ((), { s with
        inp := s.inp.write idx (blockSlot (s.inp.slots (slotBase idx)).slotMeta
          (genPayload payloadCapacityBytes (UInt32.ofNat n)) 480 (UInt32.ofNat n) 0 true e
          t.reading) }))
      fun _ => Written e first base n := by
  refine cpu_flow (room_beside (P := fun r => idx = r.producerIdx) fun r r' hp _ hr => ?_)
    fun t s l hl hi => ?_
  · exact hr.trans hp.symm
  · obtain ⟨hrecv, hroom, rfl⟩ := hi
    refine ⟨l, ⟨hl.flow.write hroom _, hl.epoch, hl.flprEpoch, hl.requests, hl.consumed⟩, hrecv,
      hroom, ?_⟩
    exact ⟨_, t.reading, Flow.write_slots_self s.inp s.inp.producerIdx _⟩

theorem produceCommit_flow :
    Triple Turn.Clean (Written e first base n)
      (update fun s => { s with inp := s.inp.produceCommit })
      fun _ => Rest e first base (n + 1) := by
  refine cpu_flow (room_beside (P := fun r => IsRequest e n (r.slots (slotBase r.producerIdx)))
    fun r r' hp hslots hr => ?_) fun t s l hl hi => ?_
  · rw [hp, hslots]
    exact hr
  · obtain ⟨hrecv, hroom, hreq⟩ := hi
    exact ⟨l, ⟨hl.flow.put hroom hreq, hl.epoch, hl.flprEpoch, hl.requests, hl.consumed⟩, hrecv⟩

theorem epoch_flow :
    Triple Turn.Clean (Rest e first base n) (cpu fun _ s => (s.epoch, s))
      fun epoch s => epoch = e ∧ Rest e first base n s := by
  refine cpu_rest fun t s hs => ?_
  obtain ⟨l, hl, hrecv⟩ := hs
  exact ⟨hl.epoch, l, hl, hrecv⟩

theorem produceBlock_flow :
    Triple Turn.Clean (Rest e first base n)
      (produceBlock (genPayload payloadCapacityBytes (UInt32.ofNat n)) 480 (UInt32.ofNat n) 0 true)
      (Produced e first base n) := by
  refine Triple.ite (fun h => absurd h (by decide)) fun _ => ?_
  refine checkStall_flow.bind fun stalled => ?_
  refine Triple.ite (fun _ => Triple.pure fun s hs => hs) fun _ => ?_
  refine epoch_flow.bind fun epoch => Triple.of_pre (fun hepoch => ?_) fun s hs => hs.1
  obtain rfl := hepoch
  refine Triple.mono ?_ (fun s hs => hs.2) fun r s hs => hs
  refine Triple.ite (fun _ => Triple.pure fun s hs => hs) fun _ => ?_
  refine produceBegin_flow.bind fun idx => ?_
  cases idx with
  | none => exact Triple.pure fun s hs => hs
  | some idx =>
    refine writeSlot_flow.bind fun _ => ?_
    refine produceCommit_flow.bind fun _ => ?_
    exact Triple.pure fun s hs => hs

end

end Acceptance

end LeAudioReceiver
