import LeAudioReceiver.FlprRing.Slot

/-!
# The processor on the remote core

A model of `src/flpr_audio_process.c`: one slot in, one slot out, no hidden state.  Depending on
the flags of the request the payload is copied (`processIdentity`) or resampled with the
continuity state carried in the metadata (`processAsrc`).  Buffers are lists of bytes and a buffer
size is the length of the list; null pointers have no counterpart.

`processAsrc_ok` says what an accepted resampling request leaves behind, and
`flprAudioProcess_cases` that every rejected request is answered by the error metadata and silence.
-/

namespace LeAudioReceiver

namespace Offload

open Asrc (Frame AsrcState)
open FlprRing

/-- `enum flpr_audio_process_result`, without success. -/
inductive ProcessError where
  | badFlags
  | badFrames
  | badPpm
  | capacity
  | prodRange
  | state
  | badCrc
  deriving DecidableEq, Repr

/-- The error codes. -/
def ProcessError.code : ProcessError → Int32
  | .badFlags => -2
  | .badFrames => -3
  | .badPpm => -4
  | .capacity => -5
  | .prodRange => -6
  | .state => -7
  | .badCrc => -8

/-- The flags that an input slot may carry. -/
def knownFlags : UInt16 := flagValid ||| flagCrcOk ||| flagStall ||| flagAsrcLinear

/-- `validate_input`; `none` is success. -/
def validateInput (m : SlotMeta) (payload : List UInt8) : Option ProcessError :=
  let need := m.validFrames.toNat * 4
  if m.flags &&& flagValid = 0 then some .badFlags
  else if m.flags &&& ~~~knownFlags ≠ 0 then some .badFlags
  else if m.validFrames = 0 then some .badFrames
  else if m.validFrames.toNat > payloadCapacityFrames then some .badFrames
  else if payload.length < need then some .badFrames
  else if m.flags &&& flagAsrcLinear ≠ 0 ∧
      (m.correctionPpm.toInt < -Asrc.maxPpm ∨ m.correctionPpm.toInt > Asrc.maxPpm) then
    some .badPpm
  else if m.crc32 ≠ 0 ∧ crc32 (payload.take need) ≠ m.crc32 then some .badCrc
  else none

/-- `bytes` at the start of a buffer of `size` bytes, zeros behind them. -/
def padTo (size : ℕ) (bytes : List UInt8) : List UInt8 :=
  bytes ++ List.replicate (size - bytes.length) 0

/-- `process_identity`: a bit-exact copy. -/
def processIdentity (m : SlotMeta) (payload : List UInt8) (outputPayloadBytes : ℕ) :
    Except ProcessError (SlotMeta × List UInt8) :=
  let copyBytes := m.validFrames.toNat * 4
  if outputPayloadBytes < copyBytes then .error .capacity
  else
    .ok ({ SlotMeta.zero with
            sequence := m.sequence, epoch := m.epoch, validFrames := m.validFrames
            flags := m.flags ||| flagValid, correctionPpm := m.correctionPpm, crc32 := m.crc32
            cpuTimestamp := m.cpuTimestamp },
      padTo outputPayloadBytes (payload.take copyBytes))

/-- `process_asrc`: resampling from the imported state, which is exported again afterwards. -/
def processAsrc (m : SlotMeta) (payload : List UInt8) (outputPayloadBytes : ℕ) :
    Except ProcessError (SlotMeta × List UInt8) :=
  if m.validFrames.toNat ≠ payloadMaxInput then .error .badFrames
  else if outputPayloadBytes < payloadCapacityBytes then .error .capacity
  else
    match Asrc.stateImport m.asrcState with
    | none => .error .state
    | some (ctx, prev, prevValid) =>
      match Asrc.process ctx (decodeFrames payloadMaxInput payload) payloadCapacityFrames
          m.correctionPpm.toInt prev prevValid with
      | .einval => .error .state
      | .full _ _ => .error .capacity
      | .done ctx output consumed nextPrev =>
        if consumed ≠ payloadMaxInput then .error .prodRange
        else if output.length = 0 ∨ output.length > payloadCapacityFrames then .error .prodRange
        else
          .ok ({ SlotMeta.zero with
                  sequence := m.sequence, epoch := m.epoch
                  validFrames := UInt16.ofNat output.length
                  flags := flagValid ||| flagAsrcLinear, correctionPpm := m.correctionPpm
                  cpuTimestamp := m.cpuTimestamp
                  crc32 := crc32 (encodeFrames output)
                  asrcState := Asrc.stateExport ctx (nextPrev.getD ⟨0, 0⟩) true },
            padTo outputPayloadBytes (encodeFrames output))

/-- The metadata of an error answer: the identity of the request, no frames. -/
def errorMeta (m : SlotMeta) : SlotMeta :=
  { SlotMeta.zero with
    sequence := m.sequence, epoch := m.epoch, flags := m.flags &&& flagAsrcLinear
    correctionPpm := m.correctionPpm, cpuTimestamp := m.cpuTimestamp }

/-- `flpr_audio_process`: the return code, the output metadata and the output payload. -/
def flprAudioProcess (m : SlotMeta) (payload : List UInt8) (outputPayloadBytes : ℕ) :
    Int32 × SlotMeta × List UInt8 :=
  let result : Except ProcessError (SlotMeta × List UInt8) :=
    match validateInput m payload with
    | some e => .error e
    | none =>
      if m.flags &&& flagAsrcLinear ≠ 0 then processAsrc m payload outputPayloadBytes
      else processIdentity m payload outputPayloadBytes
  match result with
  | .ok (outMeta, outPayload) => (0, outMeta, outPayload)
  | .error e => (e.code, errorMeta m, List.replicate outputPayloadBytes 0)

/-- The slot that the main loop of the remote core publishes for an input slot: the processor's
output with the cycles and the return code set last. -/
def answer (input : Slot) (cycles : UInt32) : Slot :=
  let (ret, outMeta, outPayload) :=
    flprAudioProcess input.slotMeta input.payload payloadCapacityBytes
  ⟨outMeta.setProcessing cycles ret, outPayload⟩

/-! ### What the processor answers -/

theorem flprAudioProcess_cases (m : SlotMeta) (payload : List UInt8) (n : ℕ) :
    (∃ e : ProcessError,
      flprAudioProcess m payload n = (e.code, errorMeta m, List.replicate n 0)) ∨
    ∃ outMeta outPayload, flprAudioProcess m payload n = (0, outMeta, outPayload) ∧
      validateInput m payload = none ∧
      (if m.flags &&& flagAsrcLinear ≠ 0 then processAsrc m payload n
        else processIdentity m payload n) = .ok (outMeta, outPayload) := by
  unfold flprAudioProcess
  cases hv : validateInput m payload with
  | some e => exact .inl ⟨e, rfl⟩
  | none =>
    dsimp only
    split
    · rename_i outMeta outPayload h
      exact .inr ⟨outMeta, outPayload, rfl, rfl, h⟩
    · rename_i e h
      exact .inl ⟨e, rfl⟩

/-- The metadata of a resampled answer. -/
def asrcMeta (m : SlotMeta) (ctx : Asrc.AudioAsrc) (output : List Frame) (next : Frame) :
    SlotMeta :=
  { SlotMeta.zero with
    sequence := m.sequence, epoch := m.epoch, validFrames := UInt16.ofNat output.length
    flags := flagValid ||| flagAsrcLinear, correctionPpm := m.correctionPpm
    cpuTimestamp := m.cpuTimestamp, crc32 := crc32 (encodeFrames output)
    asrcState := Asrc.stateExport ctx next true }

theorem processAsrc_ok {m outMeta : SlotMeta} {payload outPayload : List UInt8} {n : ℕ}
    (h : processAsrc m payload n = .ok (outMeta, outPayload)) :
    ∃ ctx prev prevValid ctx' output next,
      Asrc.stateImport m.asrcState = some (ctx, prev, prevValid) ∧
      Asrc.process ctx (decodeFrames payloadMaxInput payload) payloadCapacityFrames
        m.correctionPpm.toInt prev prevValid = .done ctx' output payloadMaxInput next ∧
      0 < output.length ∧ output.length ≤ payloadCapacityFrames ∧
      outMeta = asrcMeta m ctx' output (next.getD ⟨0, 0⟩) ∧
      outPayload = padTo n (encodeFrames output) := by
  unfold processAsrc at h
  split_ifs at h with h₁ h₂
  split at h
  · cases h
  · rename_i ctx prev prevValid himport
    split at h
    · cases h
    · cases h
    · rename_i ctx' output consumed next hproc
      split_ifs at h with hc hlen
      obtain ⟨rfl, rfl⟩ := Prod.mk.inj (Except.ok.inj h)
      obtain rfl : consumed = payloadMaxInput := by_contra hc
      exact ⟨ctx, prev, prevValid, ctx', output, next, himport, hproc, by omega, by omega, rfl, rfl⟩

end Offload

end LeAudioReceiver
