import LeAudioReceiver.Offload.Process

/-!
# Submitting a block to the remote core

The part of `audio_offload_process_asrc` (`src/audio_offload.c`) that the caller can see, with the
typed ring transfers below it (`flpr_ring_mgr_produce_asrc` and
`flpr_ring_mgr_consume_asrc_result` of `src/flpr_ring_mgr.c`).  Everything the call learns from
its surroundings (the lifecycle checks, the locks, the notification, the output slot it reads) is
a field of `SubmitEnv`; the counters it keeps do not influence its result and are left out.

`offloadProcessAsrc_ok` : a call that succeeds has read a slot which passed every check.
-/

namespace LeAudioReceiver

namespace Offload

open Asrc (Frame AsrcState)
open FlprRing

/-- The negative return codes of the offload path. -/
inductive Errno where
  | eagain
  | einval
  | eio
  | enospc
  deriving DecidableEq, Repr

/-! ### Producing the request -/

/-- The slot that `flpr_ring_mgr_produce_asrc` fills over the old contents; the processing fields
keep their old values. -/
def requestSlot (old : Slot) (epoch timestamp : UInt32) (pcm : List Frame) (sequence : UInt32)
    (correctionPpm : Int32) (preState : AsrcState) : Slot :=
  let copyBytes := payloadMaxInput * 4
  let payload := padTo payloadCapacityBytes ((encodeFrames pcm).take copyBytes)
  ⟨{ old.slotMeta with
      sequence := sequence, epoch := epoch, validFrames := UInt16.ofNat payloadMaxInput
      flags := flagValid ||| flagAsrcLinear, correctionPpm := correctionPpm
      cpuTimestamp := timestamp, asrcState := preState, crc32 := crc32 (payload.take copyBytes) },
    payload⟩

/-! ### Consuming the answer -/

/-- What `flpr_ring_consume_begin` finds in the output ring. -/
inductive OutputRead where
  | empty
  | stale
  | slot (s : Slot)

/-- `struct flpr_consume_asrc_result`. -/
structure ConsumeAsrcResult where
  outputFrames : UInt16
  sequence : UInt32
  flags : UInt16
  correctionPpm : Int32
  payloadCrc : UInt32
  postState : AsrcState
  processingCycles : UInt32
  processingStatus : Int32
  rttCycles : UInt32

/-- The reserved bytes of a state are not all zero. -/
def reservedDirty (st : AsrcState) : Prop :=
  st.reserved.1 ≠ 0 ∨ st.reserved.2.1 ≠ 0 ∨ st.reserved.2.2 ≠ 0

instance (st : AsrcState) : Decidable (reservedDirty st) :=
  inferInstanceAs (Decidable (_ ∨ _ ∨ _))

/-- The checks of `flpr_ring_mgr_consume_asrc_result` on a slot, then the copy of its payload and
metadata; `none` is `FLPR_CONSUME_INVALID`. -/
def consumeSlot (s : Slot) (now : UInt32) : Option (ConsumeAsrcResult × List Frame) :=
  let m := s.slotMeta
  let vf := m.validFrames.toNat
  if m.flags &&& flagAsrcLinear = 0 then none
  else if vf > payloadCapacityFrames then none
  else if vf = 0 ∧ m.processingStatus ≥ 0 then none
  else if reservedDirty m.asrcState then none
  else if vf > 0 ∧ m.crc32 ≠ 0 ∧ crc32 (s.payload.take (vf * 4)) ≠ m.crc32 then none
  else
    some ({ outputFrames := m.validFrames, sequence := m.sequence, flags := m.flags
            correctionPpm := m.correctionPpm
            payloadCrc := if vf > 0 then crc32 (s.payload.take (vf * 4)) else 0
            postState := m.asrcState, processingCycles := m.processingCycles
            processingStatus := m.processingStatus, rttCycles := now - m.cpuTimestamp },
      decodeFrames vf s.payload)

/-! ### Validating the answer -/

/-- The caller's side of a transaction. -/
structure Request where
  /-- Decoded PCM. -/
  input : List Frame
  sequence : UInt32
  correctionPpm : Int32
  /-- The exported continuity state. -/
  preState : AsrcState

/-- `asrc_validate_metadata`: the frame count, status, flags, sequence, correction and state of
the answer, in the order of the source. -/
def validateMetadata (t : Request) (cr : ConsumeAsrcResult) : Bool :=
  if cr.processingStatus < 0 ∧ cr.outputFrames = 0 then false
  else if cr.outputFrames < 1 ∨ cr.outputFrames.toNat > payloadCapacityFrames then false
  else if cr.processingStatus ≠ 0 then false
  else if cr.flags ≠ flagValid ||| flagAsrcLinear then false
  else if cr.sequence ≠ t.sequence then false
  else if cr.correctionPpm ≠ t.correctionPpm then false
  else if reservedDirty cr.postState then false
  else if (Asrc.stateImport cr.postState).isNone then false
  else cr.postState.stepBase == t.preState.stepBase

/-- `asrc_shadow_verify`: the answer is compared with a local run from the same state. -/
def shadowVerify (t : Request) (cr : ConsumeAsrcResult) (scratch : List Frame) : Bool :=
  match Asrc.stateImport t.preState with
  | none => false
  | some (ctx, prev, prevValid) =>
    match Asrc.process ctx t.input payloadCapacityFrames t.correctionPpm.toInt prev prevValid with
    | .done ctx output _ nextPrev =>
      let exported := Asrc.stateExport ctx (nextPrev.getD ⟨0, 0⟩) true
      output.length == cr.outputFrames.toNat && output == scratch &&
        exported.phase == cr.postState.phase && exported.stepBase == cr.postState.stepBase &&
        exported.prevL == cr.postState.prevL && exported.prevR == cr.postState.prevR &&
        exported.prevValid == cr.postState.prevValid
    | _ => false

/-! ### The transaction -/

/-- What one call observes of its surroundings. -/
structure SubmitEnv where
  /-- Initialised and `ACTIVE` at the pre-check. -/
  active : Bool
  /-- The submit lock was taken within its deadline. -/
  locked : Bool
  /-- Still `ACTIVE` behind the lock. -/
  stillActive : Bool
  /-- The input ring has no free slot, or a stall is injected. -/
  full : Bool
  /-- The stream epoch of the ring manager. -/
  epoch : UInt32
  /-- The old contents of the input slot. -/
  old : Slot
  /-- The cycle counter when the request is produced. -/
  timestamp : UInt32
  /-- The notification was sent. -/
  notified : Bool
  /-- The output arrived within its deadline. -/
  arrived : Bool
  /-- The lifecycle is unchanged before the output is consumed. -/
  current₁ : Bool
  /-- What the output ring holds. -/
  read : OutputRead
  /-- The cycle counter when the output is consumed. -/
  now : UInt32
  /-- The lifecycle is unchanged after the output was consumed. -/
  current₂ : Bool
  /-- The shadow verification is compiled in. -/
  verify : Bool
  /-- The lifecycle is unchanged at the commit. -/
  commit : Bool

/-- `struct audio_offload_asrc_result`. -/
structure AsrcResult where
  outputFrames : UInt16
  postState : AsrcState
  processingCycles : UInt32

/-- The slot that this request puts into the input ring. -/
def Request.slot (t : Request) (env : SubmitEnv) : Slot :=
  requestSlot env.old env.epoch env.timestamp t.input t.sequence t.correctionPpm t.preState

/-- The stages of a transaction behind the read: consume, validate, verify, commit, copy. -/
def settle (t : Request) (env : SubmitEnv) (s : Slot) : Except Errno (AsrcResult × List Frame) :=
  match consumeSlot s env.now with
  | none => .error .eagain
  | some (cr, scratch) =>
    if ¬ env.current₂ then .error .eagain
    else if ¬ validateMetadata t cr then .error .eagain
    else if env.verify ∧ ¬ shadowVerify t cr scratch then .error .eagain
    else if ¬ env.commit then .error .eagain
    else
      .ok (⟨cr.outputFrames, cr.postState, cr.processingCycles⟩,
        scratch.take cr.outputFrames.toNat)

/-- `audio_offload_process_asrc`: the result and the frames copied to the caller's buffer.  Every
fault behind the argument checks is `-EAGAIN` with the buffer untouched. -/
def offloadProcessAsrc (t : Request) (outputCapacity : ℕ) (env : SubmitEnv) :
    Except Errno (AsrcResult × List Frame) :=
  if t.input.length ≠ payloadMaxInput ∨ outputCapacity < payloadCapacityFrames then .error .einval
  -- lifecycle capture and the submit lock
  else if ¬ (env.active ∧ env.locked ∧ env.stillActive) then .error .eagain
  -- produce, notify, wait
  else if env.full ∨ env.epoch = 0 then .error .eagain
  else if ¬ (env.notified ∧ env.arrived ∧ env.current₁) then .error .eagain
  else
    match env.read with
    | .empty => .error .eagain
    | .stale => .error .eagain
    | .slot s => settle t env s

theorem settle_ok {t : Request} {env : SubmitEnv} {s : Slot} {r : AsrcResult × List Frame}
    (h : settle t env s = .ok r) :
    ∃ cr scratch, consumeSlot s env.now = some (cr, scratch) ∧ validateMetadata t cr = true ∧
      r = (⟨cr.outputFrames, cr.postState, cr.processingCycles⟩,
        scratch.take cr.outputFrames.toNat) := by
  unfold settle at h
  cases hconsume : consumeSlot s env.now with
  | none => rw [hconsume] at h; cases h
  | some p =>
    obtain ⟨cr, scratch⟩ := p
    rw [hconsume] at h
    dsimp only at h
    split_ifs at h with _ hvalid
    exact ⟨cr, scratch, rfl, hvalid, (Except.ok.inj h).symm⟩

/-- A submit that succeeds has read a slot that passed every check. -/
theorem offloadProcessAsrc_ok {t : Request} {outputCapacity : ℕ} {env : SubmitEnv}
    {r : AsrcResult × List Frame} (h : offloadProcessAsrc t outputCapacity env = .ok r) :
    t.input.length = payloadMaxInput ∧ ∃ s, env.read = .slot s ∧ settle t env s = .ok r := by
  unfold offloadProcessAsrc at h
  split_ifs at h with hargs
  have hlen : t.input.length = payloadMaxInput := by_contra fun hne => hargs (.inl hne)
  split at h
  · cases h
  · cases h
  · rename_i s hread
    exact ⟨hlen, s, hread, h⟩

/-! ### Accepted answers -/

theorem consumeSlot_eq {s : Slot} {now : UInt32} {cr : ConsumeAsrcResult} {scratch : List Frame}
    (h : consumeSlot s now = some (cr, scratch)) :
    cr.outputFrames = s.slotMeta.validFrames ∧ cr.postState = s.slotMeta.asrcState ∧
      scratch = decodeFrames s.slotMeta.validFrames.toNat s.payload := by
  unfold consumeSlot at h
  dsimp only at h
  split_ifs at h <;> cases h <;> exact ⟨rfl, rfl, rfl⟩

theorem validateMetadata_frames {t : Request} {cr : ConsumeAsrcResult}
    (h : validateMetadata t cr = true) : cr.outputFrames ≠ 0 := by
  intro h₀
  unfold validateMetadata at h
  rw [h₀] at h
  split_ifs at h with _ h₁
  exact h₁ (.inl (by decide))

theorem decodeFrames_requestSlot {old : Slot} {epoch ts sequence : UInt32} {pcm : List Frame}
    {ppm : Int32} {preState : AsrcState} (h : pcm.length = payloadMaxInput) :
    decodeFrames payloadMaxInput
      (requestSlot old epoch ts pcm sequence ppm preState).payload = pcm := by
  have htake : (encodeFrames pcm).take (payloadMaxInput * 4) = encodeFrames pcm :=
    List.take_of_length_le (by rw [length_encodeFrames, h])
  rw [requestSlot, htake, padTo, ← h]
  exact decodeFrames_encodeFrames _ _

/-- **What an honest answer means.**  If the slot that was read is the remote core's answer to this
request, then a submit that succeeds returns the frames and the state of a local run. -/
theorem offloadProcessAsrc_answer {t : Request} {outputCapacity : ℕ} {env : SubmitEnv}
    {r : AsrcResult} {pcm : List Frame} {cycles : UInt32}
    (h : offloadProcessAsrc t outputCapacity env = .ok (r, pcm))
    (hread : env.read = .slot (answer (t.slot env) cycles)) :
    ∃ ctx prev prevValid ctx' next,
      Asrc.stateImport t.preState = some (ctx, prev, prevValid) ∧
      Asrc.process ctx t.input payloadCapacityFrames t.correctionPpm.toInt prev prevValid =
        .done ctx' pcm payloadMaxInput next ∧
      0 < pcm.length ∧ pcm.length ≤ payloadCapacityFrames ∧ r.outputFrames.toNat = pcm.length ∧
      r.postState = Asrc.stateExport ctx' (next.getD ⟨0, 0⟩) true := by
  obtain ⟨hlen, s, hread', hsettle⟩ := offloadProcessAsrc_ok h
  obtain ⟨cr, scratch, hconsume, hvalid, hr⟩ := settle_ok hsettle
  obtain rfl : s = answer (t.slot env) cycles := by
    rw [hread] at hread'
    exact (OutputRead.slot.inj hread').symm
  obtain ⟨hframes, hpost, hscratch⟩ := consumeSlot_eq hconsume
  have hne := validateMetadata_frames hvalid
  obtain ⟨rfl, hpcm⟩ := Prod.mk.inj hr
  rw [hframes] at hne
  rcases flprAudioProcess_cases (t.slot env).slotMeta (t.slot env).payload
    payloadCapacityBytes with ⟨e, herr⟩ | ⟨outMeta, outPayload, hok, -, hproc⟩
  · -- an error answer carries no frames
    refine absurd ?_ hne
    rw [answer, herr]
    rfl
  · have hflag : (t.slot env).slotMeta.flags &&& flagAsrcLinear ≠ 0 := by
      show (flagValid ||| flagAsrcLinear) &&& flagAsrcLinear ≠ 0
      decide
    rw [if_pos hflag] at hproc
    obtain ⟨ctx, prev, prevValid, ctx', output, next, himport, hdone, hpos, hcap, rfl, rfl⟩ :=
      processAsrc_ok hproc
    have hanswer : answer (t.slot env) cycles =
        ⟨(asrcMeta (t.slot env).slotMeta ctx' output (next.getD ⟨0, 0⟩)).setProcessing cycles 0,
          padTo payloadCapacityBytes (encodeFrames output)⟩ := by
      rw [answer, hok]
    -- the frames survive the payload
    have hcount : (answer (t.slot env) cycles).slotMeta.validFrames.toNat = output.length := by
      rw [hanswer]
      exact UInt16.toNat_ofNat_of_lt' (lt_of_le_of_lt hcap (by decide))
    have hpayload : (answer (t.slot env) cycles).payload =
        padTo payloadCapacityBytes (encodeFrames output) := by rw [hanswer]
    obtain rfl : pcm = output := by
      rw [hpcm, hscratch, hframes, hcount, hpayload, padTo, decodeFrames_encodeFrames,
        List.take_length]
    refine ⟨ctx, prev, prevValid, ctx', next, himport, ?_, hpos, hcap, ?_, ?_⟩
    · rw [← decodeFrames_requestSlot hlen]
      exact hdone
    · rw [hframes, hcount]
    · rw [hpost, hanswer]
      rfl

end Offload

end LeAudioReceiver
