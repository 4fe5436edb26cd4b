import LeAudioReceiver.FlprRing.Basic
import LeAudioReceiver.Offload.Memory
import LeAudioReceiver.Offload.Submit

/-!
# Every answer is a response

The two ends of an answer: what `flpr_audio_process` leaves in an output slot, and what
`flpr_ring_mgr_consume_asrc_result` (`src/flpr_ring_mgr.c`) does with the slot it finds.
`consumeAsrcResult` is that function on its memory: the output ring, the caller's PCM buffer and the
caller's result.

* `consume_eq` : the checks, the copy and the release, in terms of `consumeSlot`;
* `consume_takesOne` : a call takes one slot or finds none, and copies only what it accepts;
* `processor_atomic` : **the processor either answers with frames that the other end accepts, or
  with silence under the request's identity**, and never leaves its buffers.
-/

namespace LeAudioReceiver

namespace Offload

open Asrc (Frame AsrcState)
open FlprRing Buffer

/-! ### Consuming, in memory -/

/-- `enum flpr_consume_result`. -/
inductive ConsumeOutcome where
  | ok
  | empty
  | stale
  | invalid
  deriving DecidableEq, Repr

/-- What a consumer can write. -/
structure Consumer where
  /-- The output ring. -/
  ring : Ring
  /-- `pcm_out`, as bytes. -/
  pcm : List UInt8
  /-- `*result`. -/
  result : ConsumeAsrcResult

/-- The slot is released and the answer turned away. -/
def Consumer.reject (c : Consumer) : ConsumeOutcome × Consumer :=
  (.invalid, { c with ring := c.ring.consumeDone })

/-- `flpr_ring_mgr_consume_asrc_result`, where `pointers` tells that no pointer is null, and `epoch`
is the stream epoch of the ring manager. -/
def consumeAsrcResult (pointers : Bool) (outputCapacity : UInt16) (epoch now : UInt32)
    (c : Consumer) : ConsumeOutcome × Consumer :=
  if ¬ pointers ∨ outputCapacity.toNat < payloadCapacityFrames then (.invalid, c)
  else
    let c := { c with result := { c.result with outputFrames := 0 } }
    let (ring, found) := c.ring.consumeBegin epoch
    let c := { c with ring := ring }
    match found with
    | .empty => (.empty, c)
    | .stale => (.stale, c)
    | .slot i =>
      let m := (c.ring.slots i).slotMeta
      let payload := (c.ring.slots i).payload
      let vf := m.validFrames.toNat
      if m.flags &&& flagAsrcLinear = 0 then c.reject
      else if vf > payloadCapacityFrames then c.reject
      else if vf = 0 ∧ m.processingStatus ≥ 0 then c.reject
      else if reservedDirty m.asrcState then c.reject
      else if vf > 0 ∧ m.crc32 ≠ 0 ∧ crc32 (payload.take (vf * 4)) ≠ m.crc32 then c.reject
      else
        -- nothing is copied before the last check
        let c := { c with pcm := if vf > 0 then put c.pcm 0 (payload.take (vf * 4)) else c.pcm }
        let result : ConsumeAsrcResult :=
          { outputFrames := m.validFrames, sequence := m.sequence, flags := m.flags
            correctionPpm := m.correctionPpm
            payloadCrc := if vf > 0 then crc32 (payload.take (vf * 4)) else 0
            postState := m.asrcState, processingCycles := m.processingCycles
            processingStatus := m.processingStatus, rttCycles := now - m.cpuTimestamp }
        (.ok, { c with result := result, ring := c.ring.consumeDone })

/-- Valid arguments of `flpr_ring_mgr_consume_asrc_result`. -/
structure ConsumeArgs where
  outputCapacity : UInt16
  enough : payloadCapacityFrames ≤ outputCapacity.toNat
  epoch : UInt32
  now : UInt32

/-- A call with valid arguments. -/
def Consumer.consume (c : Consumer) (a : ConsumeArgs) : ConsumeOutcome × Consumer :=
  consumeAsrcResult true a.outputCapacity a.epoch a.now c

section Consume

variable (c : Consumer) (a : ConsumeArgs)

/-- What a call does, by what it finds in the ring. -/
theorem consume_eq : c.consume a =
    match c.ring.consumeBegin a.epoch with
    | (ring, .empty) => (.empty, ⟨ring, c.pcm, { c.result with outputFrames := 0 }⟩)
    | (ring, .stale) => (.stale, ⟨ring, c.pcm, { c.result with outputFrames := 0 }⟩)
    | (ring, .slot i) =>
      match consumeSlot (ring.slots i) a.now with
      | none => (.invalid, ⟨ring.consumeDone, c.pcm, { c.result with outputFrames := 0 }⟩)
      | some (cr, _) =>
        (.ok, ⟨ring.consumeDone,
          put c.pcm 0 ((ring.slots i).payload.take ((ring.slots i).slotMeta.validFrames.toNat * 4)),
          cr⟩) := by
  have hargs : ¬ (¬ true = true ∨ a.outputCapacity.toNat < payloadCapacityFrames) := by
    have henough := a.enough
    simp only [not_true_eq_false, false_or, not_lt]
    exact henough
  rw [Consumer.consume, consumeAsrcResult, if_neg hargs]
  dsimp only
  generalize c.ring.consumeBegin a.epoch = r
  obtain ⟨ring, found⟩ := r
  cases found with
  | empty => rfl
  | stale => rfl
  | slot i =>
    dsimp only [consumeSlot]
    generalize ring.slots i = s
    split_ifs with h₁ h₂ h₃ h₄ h₅ h₆
    · rfl
    · rfl
    · rfl
    · rfl
    · rfl
    · rfl
    · have hnone : s.slotMeta.validFrames.toNat = 0 := by omega
      rw [hnone, Nat.zero_mul, List.take_zero, put_nil]

/-- What a call with valid arguments does to the ring and to the caller's buffer. -/
structure Consumer.TakesOne (c : Consumer) (o : ConsumeOutcome) (c' : Consumer) : Prop where
  empty : o = .empty → c'.ring = c.ring
  taken : o ≠ .empty →
    c'.ring.consumerIdx = c.ring.consumerIdx + 1 ∧ c'.ring.load + 1 = c.ring.load
  kept : c'.ring.producerIdx = c.ring.producerIdx ∧ c'.ring.slots = c.ring.slots
  pcm : o ≠ .ok → c'.pcm = c.pcm

/-- **A call consumes exactly one slot unless the ring is empty**, and the caller's buffer is
untouched unless it returns `FLPR_CONSUME_OK`. -/
theorem consume_takesOne : c.TakesOne (c.consume a).1 (c.consume a).2 := by
  rw [consume_eq, Ring.consumeBegin]
  by_cases hempty : used c.ring.producerIdx c.ring.consumerIdx = 0
  · rw [if_pos hempty]
    exact ⟨fun _ => rfl, fun h => absurd rfl h, ⟨rfl, rfl⟩, fun _ => rfl⟩
  -- one slot fewer, whether it is skipped or released
  have hload := Ring.load_consumeDone (Ring.load_pos hempty)
  have hpos := Ring.load_pos hempty
  have htaken : c.ring.consumeDone.consumerIdx = c.ring.consumerIdx + 1 ∧
      c.ring.consumeDone.load + 1 = c.ring.load := ⟨rfl, by omega⟩
  rw [if_neg hempty]
  dsimp only
  split_ifs with hstale
  · exact ⟨nofun, fun _ => htaken, ⟨rfl, rfl⟩, fun _ => rfl⟩
  · dsimp only
    cases consumeSlot (c.ring.slots (slotBase c.ring.consumerIdx)) a.now with
    | none => exact ⟨nofun, fun _ => htaken, ⟨rfl, rfl⟩, fun _ => rfl⟩
    | some r => exact ⟨nofun, fun _ => htaken, ⟨rfl, rfl⟩, fun h => absurd rfl h⟩

variable {c a}

/-- The next slot of the ring is `s`, of the consumer's epoch. -/
def Consumer.Finds (c : Consumer) (a : ConsumeArgs) (s : Slot) : Prop :=
  used c.ring.producerIdx c.ring.consumerIdx ≠ 0 ∧
    c.ring.slots (slotBase c.ring.consumerIdx) = s ∧ (a.epoch = 0 ∨ Fresh a.epoch s)

theorem consume_of_finds {s : Slot} (h : c.Finds a s) {cr : ConsumeAsrcResult}
    {scratch : List Frame} (hs : consumeSlot s a.now = some (cr, scratch)) :
    c.consume a =
      (.ok, ⟨c.ring.consumeDone, put c.pcm 0 (s.payload.take (s.slotMeta.validFrames.toNat * 4)),
        cr⟩) := by
  obtain ⟨hne, rfl, hfresh⟩ := h
  have hepoch : ¬ (a.epoch ≠ 0 ∧ (c.ring.slots (slotBase c.ring.consumerIdx)).slotMeta.epoch ≠ 0 ∧
      (c.ring.slots (slotBase c.ring.consumerIdx)).slotMeta.epoch ≠ a.epoch) := by
    rintro ⟨h₁, h₂, h₃⟩
    rcases hfresh with h₀ | h₀ | h₀
    · exact h₁ h₀
    · exact h₂ h₀
    · exact h₃ h₀
  rw [consume_eq, Ring.consumeBegin, if_neg hne]
  dsimp only
  rw [if_neg hepoch]
  dsimp only
  rw [hs]

end Consume

/-! ### Accepted slots -/

/-- The result for an accepted slot. -/
def resultOf (s : Slot) (now : UInt32) : ConsumeAsrcResult where
  outputFrames := s.slotMeta.validFrames
  sequence := s.slotMeta.sequence
  flags := s.slotMeta.flags
  correctionPpm := s.slotMeta.correctionPpm
  payloadCrc :=
    if s.slotMeta.validFrames.toNat > 0 then
      crc32 (s.payload.take (s.slotMeta.validFrames.toNat * 4))
    else 0
  postState := s.slotMeta.asrcState
  processingCycles := s.slotMeta.processingCycles
  processingStatus := s.slotMeta.processingStatus
  rttCycles := now - s.slotMeta.cpuTimestamp

/-- A slot that passes the checks of the consumer. -/
structure Acceptable (s : Slot) : Prop where
  flag : s.slotMeta.flags &&& flagAsrcLinear ≠ 0
  frames : s.slotMeta.validFrames.toNat ≤ payloadCapacityFrames
  status : s.slotMeta.validFrames.toNat = 0 → s.slotMeta.processingStatus < 0
  reserved : ¬ reservedDirty s.slotMeta.asrcState
  checksum : s.slotMeta.validFrames.toNat = 0 ∨
    crc32 (s.payload.take (s.slotMeta.validFrames.toNat * 4)) = s.slotMeta.crc32

theorem Acceptable.consumeSlot_eq {s : Slot} (h : Acceptable s) (now : UInt32) :
    consumeSlot s now =
      some (resultOf s now, decodeFrames s.slotMeta.validFrames.toNat s.payload) := by
  have hstatus : ¬ (s.slotMeta.validFrames.toNat = 0 ∧ s.slotMeta.processingStatus ≥ 0) := by
    rintro ⟨h₀, h₁⟩
    exact absurd (h.status h₀) (Int32.not_lt.2 h₁)
  have hcrc : ¬ (s.slotMeta.validFrames.toNat > 0 ∧ s.slotMeta.crc32 ≠ 0 ∧
      crc32 (s.payload.take (s.slotMeta.validFrames.toNat * 4)) ≠ s.slotMeta.crc32) := by
    rintro ⟨h₀, -, h₂⟩
    rcases h.checksum with h' | h'
    · omega
    · exact h₂ h'
  rw [consumeSlot, if_neg h.flag, if_neg (Nat.not_lt.2 h.frames), if_neg hstatus,
    if_neg h.reserved, if_neg hcrc]
  rfl

/-! ### What the processor answers -/

/-- The processor succeeded: with frames, and zeros behind them; and the slot of a resampled block
passes at the other end, for the request that it answers. -/
structure Completed (m : SlotMeta) (ret : Int32) (outMeta : SlotMeta) (outPayload : List UInt8) :
    Prop where
  success : ret = 0
  frames : 1 ≤ outMeta.validFrames.toNat ∧ outMeta.validFrames.toNat ≤ payloadCapacityFrames
  zeros : ∀ b ∈ outPayload.drop (outMeta.validFrames.toNat * 4), b = 0
  identity : outMeta.sequence = m.sequence ∧ outMeta.epoch = m.epoch ∧
    outMeta.correctionPpm = m.correctionPpm ∧ outMeta.cpuTimestamp = m.cpuTimestamp
  passes : m.flags &&& flagAsrcLinear ≠ 0 → ∀ cycles (c : Consumer) (a : ConsumeArgs),
    c.Finds a ⟨outMeta.setProcessing cycles ret, outPayload⟩ →
    (c.consume a).1 = .ok ∧
      ∀ t : Request, t.sequence = m.sequence → t.correctionPpm = m.correctionPpm →
        t.preState = m.asrcState → validateMetadata t (c.consume a).2.result = true

/-- The processor refused: with silence, under the identity of the request; and the slot of a
refused resampling request still arrives, with the error code and no frames. -/
structure Refused (m : SlotMeta) (ret : Int32) (outMeta : SlotMeta) (outPayload : List UInt8) :
    Prop where
  failure : ret < 0
  frames : outMeta.validFrames = 0
  silence : ∀ b ∈ outPayload, b = 0
  identity : outMeta.sequence = m.sequence ∧ outMeta.epoch = m.epoch ∧
    outMeta.correctionPpm = m.correctionPpm ∧ outMeta.cpuTimestamp = m.cpuTimestamp
  arrives : m.flags &&& flagAsrcLinear ≠ 0 → ∀ cycles (c : Consumer) (a : ConsumeArgs),
    c.Finds a ⟨outMeta.setProcessing cycles ret, outPayload⟩ →
    (c.consume a).1 = .ok ∧ (c.consume a).2.pcm = c.pcm ∧
      (c.consume a).2.result.outputFrames = 0 ∧
      (c.consume a).2.result.processingStatus = ret

theorem mem_replicate_zero {n : ℕ} {b : UInt8} (h : b ∈ List.replicate n (0 : UInt8)) : b = 0 :=
  (List.mem_replicate.1 h).2

theorem drop_padTo (n : ℕ) (bytes : List UInt8) :
    ∀ b ∈ (padTo n bytes).drop bytes.length, b = 0 := by
  intro b hb
  rw [padTo, List.drop_left] at hb
  exact mem_replicate_zero hb

theorem flagAsrc_and (flags : UInt16) (h : flags &&& flagAsrcLinear ≠ 0) :
    flags &&& flagAsrcLinear &&& flagAsrcLinear ≠ 0 := by
  rw [UInt16.and_assoc, UInt16.and_self]
  exact h

theorem code_neg (e : ProcessError) : e.code < 0 := by
  cases e
  all_goals decide

theorem refused (m : SlotMeta) {code : Int32} (hcode : code < 0) (n : ℕ) :
    Refused m code (errorMeta m) (List.replicate n 0) where
  failure := hcode
  frames := rfl
  silence := fun _ => mem_replicate_zero
  identity := ⟨rfl, rfl, rfl, rfl⟩
  arrives := by
    intro hflag cycles c a hfinds
    have hreserved : ¬ reservedDirty SlotMeta.zero.asrcState := by decide
    have hacc : Acceptable ⟨(errorMeta m).setProcessing cycles code, List.replicate n 0⟩ :=
      ⟨flagAsrc_and _ hflag, Nat.zero_le _, fun _ => hcode, hreserved, .inl rfl⟩
    rw [consume_of_finds hfinds (hacc.consumeSlot_eq _)]
    exact ⟨rfl, put_nil, rfl, rfl⟩

theorem completed_identity {m outMeta : SlotMeta} {payload outPayload : List UInt8} {n : ℕ}
    (hvalid : validateInput m payload = none) (hflag : ¬ m.flags &&& flagAsrcLinear ≠ 0)
    (h : processIdentity m payload n = .ok (outMeta, outPayload)) :
    Completed m 0 outMeta outPayload := by
  obtain ⟨hpos, hle, hin⟩ := validateInput_none hvalid
  unfold processIdentity at h
  dsimp only at h
  split_ifs at h with hcap
  obtain ⟨rfl, rfl⟩ := Prod.mk.inj (Except.ok.inj h)
  refine ⟨rfl, ⟨hpos, hle⟩, ?_, ⟨rfl, rfl, rfl, rfl⟩, fun hasrc => absurd hasrc hflag⟩
  have hlen : (payload.take (m.validFrames.toNat * 4)).length = m.validFrames.toNat * 4 :=
    List.length_take_of_le hin
  have hzeros := drop_padTo n (payload.take (m.validFrames.toNat * 4))
  rw [hlen] at hzeros
  exact hzeros

section Resampled

variable {m : SlotMeta} {ctx : Asrc.AudioAsrc} {output : List Frame} {next : Frame} {n : ℕ}
  {cycles : UInt32}

/-- The slot of a resampled block. -/
def asrcSlot (m : SlotMeta) (ctx : Asrc.AudioAsrc) (output : List Frame) (next : Frame) (n : ℕ)
    (cycles : UInt32) : Slot :=
  ⟨(asrcMeta m ctx output next).setProcessing cycles 0, padTo n (encodeFrames output)⟩

theorem toNat_validFrames (hcap : output.length ≤ payloadCapacityFrames) :
    (asrcMeta m ctx output next).validFrames.toNat = output.length :=
  UInt16.toNat_ofNat_of_lt' (lt_of_le_of_lt hcap (by decide))

theorem reserved_stateExport (ctx : Asrc.AudioAsrc) (prev : Frame) (prevValid : Bool) :
    ¬ reservedDirty (Asrc.stateExport ctx prev prevValid) := by
  simp [reservedDirty, Asrc.stateExport]

/-- The consumer's checks hold: the checksum is the one of the frames that were produced. -/
theorem acceptable_asrcSlot (hpos : 0 < output.length)
    (hcap : output.length ≤ payloadCapacityFrames) :
    Acceptable (asrcSlot m ctx output next n cycles) where
  flag := by
    change (flagValid ||| flagAsrcLinear) &&& flagAsrcLinear ≠ 0
    decide
  frames := (@toNat_validFrames m ctx output next hcap).trans_le hcap
  status := by
    intro h₀
    have hcount : (asrcMeta m ctx output next).validFrames.toNat = 0 := h₀
    rw [toNat_validFrames hcap] at hcount
    omega
  reserved := reserved_stateExport ctx next true
  checksum := by
    have hcount :
        (asrcSlot m ctx output next n cycles).slotMeta.validFrames.toNat = output.length :=
      @toNat_validFrames m ctx output next hcap
    have htake :
        (padTo n (encodeFrames output)).take (output.length * 4) = encodeFrames output := by
      rw [padTo, ← length_encodeFrames, List.take_left]
    refine .inr ?_
    rw [hcount]
    exact congrArg crc32 htake

/-- The submitter's checks hold: the state can be imported, and its ratio is the one of the
request. -/
theorem validate_asrcSlot (hpos : 0 < output.length) (hcap : output.length ≤ payloadCapacityFrames)
    (hstep : ctx.stepBase = m.asrcState.stepBase) (hne : m.asrcState.stepBase ≠ 0) {t : Request}
    (hseq : t.sequence = m.sequence) (hppm : t.correctionPpm = m.correctionPpm)
    (hstate : t.preState = m.asrcState) (now : UInt32) :
    validateMetadata t (resultOf (asrcSlot m ctx output next n cycles) now) = true := by
  have hcount : (asrcMeta m ctx output next).validFrames.toNat = output.length :=
    toNat_validFrames hcap
  have hframes : ¬ ((resultOf (asrcSlot m ctx output next n cycles) now).outputFrames < 1 ∨
      (resultOf (asrcSlot m ctx output next n cycles) now).outputFrames.toNat >
        payloadCapacityFrames) := by
    change ¬ ((asrcMeta m ctx output next).validFrames < 1 ∨
      (asrcMeta m ctx output next).validFrames.toNat > payloadCapacityFrames)
    rintro (h | h)
    · rw [UInt16.lt_iff_toNat_lt, hcount] at h
      have hone : (1 : UInt16).toNat = 1 := rfl
      omega
    · omega
  have himport := Asrc.stateImport_stateExport next true (hstep ▸ hne : ctx.stepBase ≠ 0)
  have hstatus : ¬ (resultOf (asrcSlot m ctx output next n cycles) now).processingStatus ≠ 0 :=
    fun h => h rfl
  have hflags : ¬ (resultOf (asrcSlot m ctx output next n cycles) now).flags ≠
      flagValid ||| flagAsrcLinear := fun h => h rfl
  have hsequence : ¬ (resultOf (asrcSlot m ctx output next n cycles) now).sequence ≠ t.sequence :=
    fun h => h hseq.symm
  have hcorrection : ¬ (resultOf (asrcSlot m ctx output next n cycles) now).correctionPpm ≠
      t.correctionPpm := fun h => h hppm.symm
  have hreserved : ¬ reservedDirty (resultOf (asrcSlot m ctx output next n cycles) now).postState :=
    reserved_stateExport ctx next true
  have herror : ¬ ((resultOf (asrcSlot m ctx output next n cycles) now).processingStatus < 0 ∧
      (resultOf (asrcSlot m ctx output next n cycles) now).outputFrames = 0) :=
    fun h => absurd h.1 (by decide : ¬ (0 : Int32) < 0)
  rw [validateMetadata, if_neg herror, if_neg hframes, if_neg hstatus, if_neg hflags,
    if_neg hsequence, if_neg hcorrection, if_neg hreserved]
  change (if (Asrc.stateImport (Asrc.stateExport ctx next true)).isNone = true then false
    else ctx.stepBase == t.preState.stepBase) = true
  rw [himport, hstate, hstep]
  simp

end Resampled

theorem completed_asrc {m outMeta : SlotMeta} {payload outPayload : List UInt8} {n : ℕ}
    (h : processAsrc m payload n = .ok (outMeta, outPayload)) :
    Completed m 0 outMeta outPayload := by
  obtain ⟨ctx, prev, prevValid, ctx', output, next, himport, hdone, hpos, hcap, rfl, rfl⟩ :=
    processAsrc_ok h
  obtain ⟨hstep, hne⟩ := Asrc.stateImport_stepBase himport
  have hcount := @toNat_validFrames m ctx' output (next.getD ⟨0, 0⟩) hcap
  refine ⟨rfl, ⟨by omega, by omega⟩, ?_, ⟨rfl, rfl, rfl, rfl⟩, ?_⟩
  · have hzeros := drop_padTo n (encodeFrames output)
    rw [length_encodeFrames] at hzeros
    rw [hcount]
    exact hzeros
  · intro _ cycles c a hfinds
    have hacc : Acceptable (asrcSlot m ctx' output (next.getD ⟨0, 0⟩) n cycles) :=
      acceptable_asrcSlot hpos hcap
    rw [consume_of_finds hfinds (hacc.consumeSlot_eq _)]
    refine ⟨rfl, fun t hseq hppm hstate => ?_⟩
    exact validate_asrcSlot hpos hcap ((Asrc.process_stepBase hdone).trans hstep) hne hseq hppm
      hstate a.now

/-- **Every answer is a response.**  For every metadata, every payload and every size of the two
buffers, `flpr_audio_process` accesses no byte outside them and either succeeds, with a slot that
the other end accepts, or refuses, with silence.  And whatever slot
`flpr_ring_mgr_consume_asrc_result` finds, it takes exactly one unless there is none, and touches
the caller's buffer only when it accepts the slot. -/
theorem processor_atomic :
    (∀ (m : SlotMeta) (payload : Option (List UInt8)) (outputMeta : SlotMeta)
      (output : List UInt8), ∃ ret outMeta outPayload,
        flprAudioProcessMem (some m) payload (some outputMeta) (some output) =
          .ok (ret, some outMeta, some outPayload) ∧
        outPayload.length = output.length ∧
        (Completed m ret outMeta outPayload ∨ Refused m ret outMeta outPayload)) ∧
    ∀ (c : Consumer) (a : ConsumeArgs), c.TakesOne (c.consume a).1 (c.consume a).2 := by
  refine ⟨?_, consume_takesOne⟩
  intro m payload outputMeta output
  cases payload with
  | none =>
    exact ⟨errNullPtr, errorMeta m, List.replicate output.length 0,
      flprAudioProcessMem_null outputMeta, List.length_replicate, .inr (refused m (by decide) _)⟩
  | some payload =>
    rcases flprAudioProcess_cases m payload output.length with
      ⟨e, herror⟩ | ⟨outMeta, outPayload, hok, hvalid, hstage⟩
    · refine ⟨e.code, errorMeta m, List.replicate output.length 0, ?_, List.length_replicate,
        .inr (refused m (code_neg e) _)⟩
      rw [flprAudioProcessMem_eq, herror]
    · obtain ⟨out, -, hlen, hout⟩ := @dispatchMem_eq m payload output
        (validateInput_none hvalid).2.2
      obtain rfl : out = outPayload := hout _ hstage
      refine ⟨0, outMeta, out, ?_, hlen, .inl ?_⟩
      · rw [flprAudioProcessMem_eq, hok]
      · split_ifs at hstage with hflag
        · exact completed_asrc hstage
        · exact completed_identity hvalid hflag hstage

end Offload

end LeAudioReceiver
