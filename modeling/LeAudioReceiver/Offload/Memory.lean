import LeAudioReceiver.Offload.Process
import LeAudioReceiver.Buffer.Basic

/-!
# The processor in its buffers

`src/flpr_audio_process.c` once more, with `audio_asrc_process` below it, now on the bytes of the
two payload buffers: every read and every write goes through a checked access, sample by sample
where the code casts the payload to `int16_t *`, and what a failed attempt has already written is
there when the error path clears the buffer.

* `processMem_eq` : for every context, also one that no session can be in, the converter stays
  inside the buffers and does what `Asrc.process` says;
* `flprAudioProcessMem_eq` : **no access is outside a buffer**, and the result is the one of
  `flprAudioProcess`.
-/

namespace LeAudioReceiver

namespace Offload

open Asrc (Frame AsrcState AudioAsrc ProcessResult interpFrame)
open FlprRing Buffer

/-! ### Samples in a buffer -/

/-- `((const int16_t *)buf)[i]`. -/
def loadSample (buf : List UInt8) (i : ℕ) : Except OutOfBounds Int16 := do
  let bytes ← load buf (i * 2) 2
  return decodeSample (bytes.getD 0 0) (bytes.getD 1 0)

/-- Both samples of frame `j`. -/
def loadFrame (buf : List UInt8) (j : ℕ) : Except OutOfBounds Frame := do
  let l ← loadSample buf (j * 2)
  let r ← loadSample buf (j * 2 + 1)
  return ⟨l, r⟩

/-- `((int16_t *)buf)[i] = x`. -/
def storeSample (buf : List UInt8) (i : ℕ) (x : Int16) : Except OutOfBounds (List UInt8) :=
  store buf (i * 2) (encodeSample x)

/-- Both samples of frame `j`. -/
def storeFrame (buf : List UInt8) (j : ℕ) (f : Frame) : Except OutOfBounds (List UInt8) := do
  let buf ← storeSample buf (j * 2) f.l
  storeSample buf (j * 2 + 1) f.r

/-! ### The converter -/

/-- The frame of an iteration, as `Asrc.emit`. -/
def emitMem (input : List UInt8) (inputFrames : ℕ) (prev : Frame) (prevValid : Bool)
    (pos frac : ℕ) : Except OutOfBounds (Option Frame) :=
  if pos > inputFrames then .ok none
  else if pos = 0 then do
    let f ← loadFrame input 0
    return some (if prevValid then interpFrame prev f frac else f)
  else if pos < inputFrames then do
    let idx := pos - 1
    let a ← loadFrame input idx
    let b ← loadFrame input (idx + 1)
    return some (interpFrame a b frac)
  else if frac = 0 then do
    let f ← loadFrame input (inputFrames - 1)
    return some f
  else .ok none

/-- The `while` loop with `out` frames in the buffer and room for `room` more. -/
def loopMem (step : ℕ) (input : List UInt8) (inputFrames : ℕ) (prev : Frame) (prevValid : Bool) :
    ℕ → ℕ → ℕ → List UInt8 → Except OutOfBounds (ℕ × ℕ × List UInt8)
  | 0, out, phase, output => .ok (out, phase, output)
  | room + 1, out, phase, output => do
    match ← emitMem input inputFrames prev prevValid (phase / 2 ^ 32) (phase % 2 ^ 32) with
    | none => return (out, phase, output)
    | some f =>
      let output ← storeFrame output out f
      let phase' := (phase + step) % 2 ^ 64
      -- the wrap guard
      if phase' < step then return (out + 1, phase', output)
      else loopMem step input inputFrames prev prevValid room (out + 1) phase' output

/-- The return value of `audio_asrc_process`, and what its pointers refer to afterwards. -/
structure Converted where
  ret : ℤ
  ctx : AudioAsrc
  inputConsumed : ℕ
  outputProduced : ℕ
  nextPrev : Frame
  output : List UInt8

/-- `audio_asrc_process`, on reports that are zero before the call. -/
def processMem (ctx : AudioAsrc) (input : List UInt8) (inputFrames : ℕ) (output : List UInt8)
    (outputCapacity : ℕ) (correctionPpm : ℤ) (prev : Frame) (prevValid : Bool) :
    Except OutOfBounds Converted :=
  if correctionPpm < -Asrc.maxPpm ∨ correctionPpm > Asrc.maxPpm then
    .ok ⟨-22, ctx, 0, 0, ⟨0, 0⟩, output⟩
  else if inputFrames = 0 then .ok ⟨0, ctx, 0, 0, ⟨0, 0⟩, output⟩
  else if outputCapacity = 0 then .ok ⟨1, ctx, 0, 0, ⟨0, 0⟩, output⟩
  else
    let step := Asrc.computeStep ctx.stepBase.toNat correctionPpm
    if step = 0 then .ok ⟨-22, ctx, 0, 0, ⟨0, 0⟩, output⟩
    else do
      let (out, phase, output) ←
        loopMem step input inputFrames prev prevValid outputCapacity 0 ctx.phase.toNat output
      let consumed := min (phase / 2 ^ 32) inputFrames
      if out = outputCapacity ∧ consumed < inputFrames then
        return ⟨1, ctx, consumed, out, ⟨0, 0⟩, output⟩
      else do
        let last ← loadFrame input (inputFrames - 1)
        return ⟨0, { ctx with phase := UInt64.ofNat (phase - consumed * 2 ^ 32) }, consumed, out,
          last, output⟩

/-! ### The processor -/

/-- `FLPR_AUDIO_ERR_NULL_PTR`. -/
def errNullPtr : Int32 := -1

/-- `validate_input` behind its test for null pointers. -/
def validateInputMem (m : SlotMeta) (payload : List UInt8) :
    Except OutOfBounds (Option ProcessError) :=
  let need := m.validFrames.toNat * 4
  if m.flags &&& flagValid = 0 then .ok (some .badFlags)
  else if m.flags &&& ~~~knownFlags ≠ 0 then .ok (some .badFlags)
  else if m.validFrames = 0 then .ok (some .badFrames)
  else if m.validFrames.toNat > payloadCapacityFrames then .ok (some .badFrames)
  else if payload.length < need then .ok (some .badFrames)
  else if m.flags &&& flagAsrcLinear ≠ 0 ∧
      (m.correctionPpm.toInt < -Asrc.maxPpm ∨ m.correctionPpm.toInt > Asrc.maxPpm) then
    .ok (some .badPpm)
  else if m.crc32 ≠ 0 then do
    let bytes ← load payload 0 need
    return if crc32 bytes ≠ m.crc32 then some .badCrc else none
  else .ok none

/-- Zeros from `off` to the end of the buffer, if it has an end behind `off`. -/
def zeroRemainder (output : List UInt8) (off : ℕ) : Except OutOfBounds (List UInt8) :=
  if output.length > off then store output off (List.replicate (output.length - off) 0)
  else .ok output

/-- `process_identity`: the metadata or the error, and the output buffer. -/
def processIdentityMem (m : SlotMeta) (payload output : List UInt8) :
    Except OutOfBounds (Except ProcessError SlotMeta × List UInt8) :=
  let copyBytes := m.validFrames.toNat * 4
  if output.length < copyBytes then .ok (.error .capacity, output)
  else do
    let bytes ← load payload 0 copyBytes
    let output ← store output 0 bytes
    let output ← zeroRemainder output copyBytes
    return (.ok { SlotMeta.zero with
        sequence := m.sequence, epoch := m.epoch, validFrames := m.validFrames
        flags := m.flags ||| flagValid, correctionPpm := m.correctionPpm, crc32 := m.crc32
        cpuTimestamp := m.cpuTimestamp }, output)

/-- `process_asrc`: the metadata or the error, and the output buffer, written in part when the
converter does not succeed. -/
def processAsrcMem (m : SlotMeta) (payload output : List UInt8) :
    Except OutOfBounds (Except ProcessError SlotMeta × List UInt8) :=
  if m.validFrames.toNat ≠ payloadMaxInput then .ok (.error .badFrames, output)
  else if output.length < payloadCapacityBytes then .ok (.error .capacity, output)
  else
    match Asrc.stateImport m.asrcState with
    | none => .ok (.error .state, output)
    | some (ctx, prev, prevValid) => do
      let c ← processMem ctx payload payloadMaxInput output payloadCapacityFrames
        m.correctionPpm.toInt prev prevValid
      if c.ret < 0 then return (.error .state, c.output)
      else if c.ret = 1 then return (.error .capacity, c.output)
      else if c.inputConsumed ≠ payloadMaxInput then return (.error .prodRange, c.output)
      else if c.outputProduced = 0 ∨ c.outputProduced > payloadCapacityFrames then
        return (.error .prodRange, c.output)
      else do
        let producedBytes := c.outputProduced * 4
        let bytes ← load c.output 0 producedBytes
        let output ← zeroRemainder c.output producedBytes
        return (.ok { SlotMeta.zero with
            sequence := m.sequence, epoch := m.epoch
            validFrames := UInt16.ofNat c.outputProduced
            flags := flagValid ||| flagAsrcLinear, correctionPpm := m.correctionPpm
            cpuTimestamp := m.cpuTimestamp, crc32 := crc32 bytes
            asrcState := Asrc.stateExport c.ctx c.nextPrev true }, output)

/-- The dispatch by flag. -/
def dispatchMem (m : SlotMeta) (payload output : List UInt8) :
    Except OutOfBounds (Except ProcessError SlotMeta × List UInt8) :=
  if m.flags &&& flagAsrcLinear ≠ 0 then processAsrcMem m payload output
  else processIdentityMem m payload output

/-- `flpr_audio_process`, its pointers `none` where they are null: the return code, the output
metadata and the output payload. -/
def flprAudioProcessMem (inputMeta : Option SlotMeta) (inputPayload : Option (List UInt8))
    (outputMeta : Option SlotMeta) (outputPayload : Option (List UInt8)) :
    Except OutOfBounds (Int32 × Option SlotMeta × Option (List UInt8)) :=
  match outputMeta, outputPayload with
  | some _, some output => do
    let (result, output) ← match inputMeta, inputPayload with
      | some m, some payload => do
        match ← validateInputMem m payload with
        | some e => pure (Except.error e.code, output)
        | none => do
          let (result, output) ← dispatchMem m payload output
          pure (result.mapError ProcessError.code, output)
      | _, _ => pure (Except.error errNullPtr, output)
    match result with
    | .ok outMeta => return (0, some outMeta, some output)
    | .error code => do
      -- the error path: what was written is cleared
      let output ← store output 0 (List.replicate output.length 0)
      return (code, some ((inputMeta.map errorMeta).getD SlotMeta.zero), some output)
  | _, _ => .ok (errNullPtr, outputMeta, outputPayload)

/-! ### Accesses inside the buffers -/

theorem loadSample_eq {buf : List UInt8} {i : ℕ} (h : i * 2 + 2 ≤ buf.length) :
    loadSample buf i = .ok (decodeSample (buf.getD (i * 2) 0) (buf.getD (i * 2 + 1) 0)) := by
  have h₀ : ((buf.drop (i * 2)).take 2).getD 0 0 = buf.getD (i * 2) 0 := by
    simp [List.getD_eq_getElem?_getD, List.getElem?_drop]
  have h₁ : ((buf.drop (i * 2)).take 2).getD 1 0 = buf.getD (i * 2 + 1) 0 := by
    simp [List.getD_eq_getElem?_getD, List.getElem?_drop]
  rw [loadSample, load_eq h, ← h₀, ← h₁]
  rfl

theorem loadFrame_eq {buf : List UInt8} {n j : ℕ} (hj : j < n) (h : n * 4 ≤ buf.length) :
    loadFrame buf j = .ok ((decodeFrames n buf).getD j default) := by
  have hl : j * 2 * 2 = j * 4 := by omega
  have hr : (j * 2 + 1) * 2 = j * 4 + 2 := by omega
  rw [loadFrame, loadSample_eq (by omega), loadSample_eq (by omega), getD_decodeFrames hj h, hl, hr]
  rfl

theorem storeFrame_eq {buf : List UInt8} {j : ℕ} (f : Frame) (h : j * 4 + 4 ≤ buf.length) :
    storeFrame buf j f = .ok (put buf (j * 4) (encodeFrames [f])) := by
  have hl : j * 2 * 2 = j * 4 := by omega
  have hr : (j * 2 + 1) * 2 = j * 4 + (encodeSample f.l).length := by
    rw [show (encodeSample f.l).length = 2 from rfl]
    omega
  have hlen : ∀ x, (encodeSample x).length = 2 := fun _ => rfl
  have hfirst : storeSample buf (j * 2) f.l = .ok (put buf (j * 4) (encodeSample f.l)) := by
    rw [storeSample, hl]
    exact store_eq (by rw [hlen]; omega)
  have hsecond : storeSample (put buf (j * 4) (encodeSample f.l)) (j * 2 + 1) f.r =
      .ok (put buf (j * 4) (encodeFrames [f])) := by
    rw [storeSample, hr, store_eq, put_put]
    · simp only [encodeFrames, List.flatMap_cons, List.flatMap_nil, List.append_nil]
    · rw [hlen]
      omega
    · rw [length_put (by rw [hlen]; omega), hlen, hlen]
      omega
  rw [storeFrame, hfirst]
  exact hsecond

/-! ### The converter stays inside -/

section Converter

variable {input : List UInt8} {n : ℕ} {prev : Frame} {prevValid : Bool}

theorem emitMem_eq (hn : 0 < n) (hin : n * 4 ≤ input.length) (pos frac : ℕ) :
    emitMem input n prev prevValid pos frac =
      .ok (Asrc.emit (decodeFrames n input) prev prevValid pos frac) := by
  unfold emitMem Asrc.emit
  rw [length_decodeFrames hin]
  by_cases h₁ : pos > n
  · rw [if_pos h₁, if_pos h₁]
  rw [if_neg h₁, if_neg h₁]
  by_cases h₀ : pos = 0
  · rw [if_pos h₀, if_pos h₀, loadFrame_eq hn hin]
    cases prevValid with
    | false => rfl
    | true => rfl
  rw [if_neg h₀, if_neg h₀]
  by_cases h₂ : pos < n
  · have hidx : pos - 1 + 1 = pos := Nat.sub_add_cancel (Nat.pos_of_ne_zero h₀)
    rw [if_pos h₂, if_pos h₂]
    dsimp only
    rw [hidx, loadFrame_eq (by omega) hin, loadFrame_eq h₂ hin]
    rfl
  rw [if_neg h₂, if_neg h₂]
  by_cases h₃ : frac = 0
  · rw [if_pos h₃, if_pos h₃, loadFrame_eq (by omega) hin]
    rfl
  · rw [if_neg h₃, if_neg h₃]

theorem loopMem_eq (hn : 0 < n) (hin : n * 4 ≤ input.length) {step : ℕ} :
    ∀ room out phase (output : List UInt8), (out + room) * 4 ≤ output.length →
      loopMem step input n prev prevValid room out phase output =
        .ok (out + (Asrc.loop step (decodeFrames n input) prev prevValid room phase).1.length,
          (Asrc.loop step (decodeFrames n input) prev prevValid room phase).2,
          put output (out * 4)
            (encodeFrames
              (Asrc.loop step (decodeFrames n input) prev prevValid room phase).1)) := by
  intro room
  induction room with
  | zero =>
    intro out phase output _
    rw [loopMem, Asrc.loop]
    simp [encodeFrames]
  | succ room ih =>
    intro out phase output hroom
    rw [loopMem, Asrc.loop, emitMem_eq hn hin]
    cases Asrc.emit (decodeFrames n input) prev prevValid (phase / 2 ^ 32) (phase % 2 ^ 32) with
    | none => simp [encodeFrames, bind, Except.bind, pure, Except.pure]
    | some f =>
      have hlen : (encodeFrames [f]).length = 4 := rfl
      have hstore := @storeFrame_eq output out f (by omega)
      have hrest := ih (out + 1) ((phase + step) % 2 ^ 64) (put output (out * 4) (encodeFrames [f]))
        (by rw [length_put (by rw [hlen]; omega)]; omega)
      have happend : ∀ fs : List Frame,
          put (put output (out * 4) (encodeFrames [f])) ((out + 1) * 4) (encodeFrames fs) =
            put output (out * 4) (encodeFrames (f :: fs)) := by
        intro fs
        have hnext : (out + 1) * 4 = out * 4 + (encodeFrames [f]).length := by
          rw [hlen]
          omega
        rw [hnext, put_put (by rw [hlen]; omega)]
        simp only [encodeFrames, List.flatMap_cons, List.flatMap_nil, List.append_nil]
      simp only [bind, Except.bind, pure, Except.pure, hstore]
      split_ifs
      · rfl
      · rw [hrest, happend, List.length_cons, Nat.add_assoc, Nat.add_comm 1]

/-- What `audio_asrc_process` leaves in its memory for a result. -/
def converted (ctx : AudioAsrc) (output : List UInt8) : ProcessResult → Converted
  | .einval => ⟨-22, ctx, 0, 0, ⟨0, 0⟩, output⟩
  | .done ctx' out consumed next =>
    ⟨0, ctx', consumed, out.length, next.getD ⟨0, 0⟩, put output 0 (encodeFrames out)⟩
  | .full out consumed => ⟨1, ctx, consumed, out.length, ⟨0, 0⟩, put output 0 (encodeFrames out)⟩

/-- **The converter stays inside its buffers**, whatever the context. -/
theorem processMem_eq {output : List UInt8} {capacity : ℕ} (hin : n * 4 ≤ input.length)
    (hout : capacity * 4 ≤ output.length) (ctx : AudioAsrc) (ppm : ℤ) :
    processMem ctx input n output capacity ppm prev prevValid =
      .ok (converted ctx output
        (Asrc.process ctx (decodeFrames n input) capacity ppm prev prevValid)) := by
  unfold processMem Asrc.process
  rw [length_decodeFrames hin]
  by_cases hppm : ppm < -Asrc.maxPpm ∨ ppm > Asrc.maxPpm
  · rw [if_pos hppm, if_pos hppm]
    rfl
  rw [if_neg hppm, if_neg hppm]
  have hempty : put output 0 (encodeFrames []) = output := put_nil
  by_cases hn : n = 0
  · rw [if_pos hn, if_pos hn, converted, hempty]
    rfl
  rw [if_neg hn, if_neg hn]
  by_cases hcap : capacity = 0
  · rw [if_pos hcap, if_pos hcap, converted, hempty]
    rfl
  rw [if_neg hcap, if_neg hcap]
  dsimp only
  by_cases hstep : Asrc.computeStep ctx.stepBase.toNat ppm = 0
  · rw [if_pos hstep, if_pos hstep]
    rfl
  rw [if_neg hstep, if_neg hstep, loopMem_eq (Nat.pos_of_ne_zero hn) hin _ _ _ _ (by omega)]
  have hlast := loadFrame_eq (j := n - 1) (by omega) hin
  simp only [bind, Except.bind, pure, Except.pure, Nat.zero_add, Nat.zero_mul, hlast]
  split_ifs
  · rfl
  · rfl

end Converter

/-! ### The processor stays inside -/

section Processor

variable {m : SlotMeta} {payload output : List UInt8}

theorem length_padTo {n : ℕ} {bytes : List UInt8} (h : bytes.length ≤ n) :
    (padTo n bytes).length = n := by
  rw [padTo, List.length_append, List.length_replicate]
  omega

theorem zeroRemainder_put {bytes : List UInt8} (h : bytes.length ≤ output.length) :
    zeroRemainder (put output 0 bytes) bytes.length = .ok (padTo output.length bytes) := by
  have hlen : (put output 0 bytes).length = output.length := length_put (by omega)
  have hall :
      (bytes ++ List.replicate (output.length - bytes.length) 0).length = output.length := by
    rw [List.length_append, List.length_replicate]
    omega
  unfold zeroRemainder
  rw [hlen]
  split_ifs with hgt
  · have hput := @put_put _ output bytes (List.replicate (output.length - bytes.length) 0) 0
      (by omega)
    rw [Nat.zero_add] at hput
    rw [store_eq (by rw [hlen, List.length_replicate]; omega), hput, put_all hall]
    rfl
  · have heq : bytes.length = output.length := by omega
    rw [put_all heq, padTo, heq, Nat.sub_self, List.replicate_zero, List.append_nil]

/-- The read for the checksum is inside the payload: the size is checked before. -/
theorem validateInputMem_eq : validateInputMem m payload = .ok (validateInput m payload) := by
  unfold validateInputMem validateInput
  dsimp only
  by_cases hlen : payload.length < m.validFrames.toNat * 4
  · simp only [if_pos hlen]
    split_ifs <;> rfl
  have hcrc : (if m.crc32 ≠ 0 then do
        let bytes ← load payload 0 (m.validFrames.toNat * 4)
        return if crc32 bytes ≠ m.crc32 then some .badCrc else none
      else .ok none) =
      Except.ok (if m.crc32 ≠ 0 ∧ crc32 (payload.take (m.validFrames.toNat * 4)) ≠ m.crc32 then
        some ProcessError.badCrc else none) := by
    rw [load_eq (by omega), List.drop_zero]
    by_cases hzero : m.crc32 = 0
    · rw [if_neg (not_not.2 hzero), if_neg fun h => h.1 hzero]
    · rw [if_pos hzero]
      simp only [bind, Except.bind, pure, Except.pure, ne_eq, hzero, not_false_eq_true, true_and]
  simp only [if_neg hlen, hcrc]
  split_ifs <;> rfl

theorem processIdentityMem_eq (hin : m.validFrames.toNat * 4 ≤ payload.length) :
    ∃ out, processIdentityMem m payload output =
        .ok ((processIdentity m payload output.length).map Prod.fst, out) ∧
      out.length = output.length ∧
      ∀ r, processIdentity m payload output.length = .ok r → out = r.2 := by
  unfold processIdentityMem processIdentity
  dsimp only
  split_ifs with hcap
  · exact ⟨output, rfl, rfl, nofun⟩
  · have hbytes : (payload.take (m.validFrames.toNat * 4)).length = m.validFrames.toNat * 4 :=
      List.length_take_of_le hin
    have hzero := @zeroRemainder_put output (payload.take (m.validFrames.toNat * 4)) (by omega)
    rw [hbytes] at hzero
    refine ⟨padTo output.length (payload.take (m.validFrames.toNat * 4)), ?_, ?_, ?_⟩
    · rw [load_eq (by omega), List.drop_zero]
      simp only [bind, Except.bind, pure, Except.pure]
      rw [store_eq (by omega)]
      simp only [hzero]
      rfl
    · exact length_padTo (by omega)
    · intro r hr
      exact congrArg Prod.snd (Except.ok.inj hr)

theorem processAsrcMem_eq (hin : m.validFrames.toNat * 4 ≤ payload.length) :
    ∃ out, processAsrcMem m payload output =
        .ok ((processAsrc m payload output.length).map Prod.fst, out) ∧
      out.length = output.length ∧
      ∀ r, processAsrc m payload output.length = .ok r → out = r.2 := by
  unfold processAsrcMem processAsrc
  -- the checks before the converter leave the output as it is
  by_cases hframes : m.validFrames.toNat ≠ payloadMaxInput
  · rw [if_pos hframes, if_pos hframes]
    exact ⟨output, rfl, rfl, nofun⟩
  rw [if_neg hframes, if_neg hframes]
  by_cases hcap : output.length < payloadCapacityBytes
  · rw [if_pos hcap, if_pos hcap]
    exact ⟨output, rfl, rfl, nofun⟩
  rw [if_neg hcap, if_neg hcap]
  cases Asrc.stateImport m.asrcState with
  | none => exact ⟨output, rfl, rfl, nofun⟩
  | some state =>
    obtain ⟨ctx, prev, prevValid⟩ := state
    have hroom : payloadCapacityFrames * 4 ≤ output.length := Nat.not_lt.1 hcap
    have hmem := @processMem_eq payload payloadMaxInput prev prevValid output
      payloadCapacityFrames (not_not.1 hframes ▸ hin) hroom ctx m.correctionPpm.toInt
    have hbound := Asrc.length_output_process_le ctx (decodeFrames payloadMaxInput payload)
      payloadCapacityFrames m.correctionPpm.toInt prev prevValid
    dsimp only
    rw [hmem]
    simp only [bind, Except.bind, pure, Except.pure]
    generalize Asrc.process ctx (decodeFrames payloadMaxInput payload) payloadCapacityFrames
      m.correctionPpm.toInt prev prevValid = result at hbound
    -- what the converter writes fits the output
    have hlen : ∀ out : List Frame, out.length ≤ payloadCapacityFrames →
        (put output 0 (encodeFrames out)).length = output.length := by
      intro out hout
      refine length_put ?_
      rw [length_encodeFrames]
      omega
    cases result with
    | einval => exact ⟨output, rfl, rfl, nofun⟩
    | full out consumed => exact ⟨put output 0 (encodeFrames out), rfl, hlen out hbound, nofun⟩
    | done ctx' out consumed next =>
      change out.length ≤ payloadCapacityFrames at hbound
      have hbytes := length_encodeFrames out
      have hload : load (put output 0 (encodeFrames out)) 0 (out.length * 4) =
          .ok (encodeFrames out) := by
        have htake := @take_drop_put _ output (encodeFrames out) 0 (Nat.zero_le _)
        rw [load_eq (by rw [hlen out hbound]; omega), ← hbytes, htake]
      -- behind the frames the rest is cleared
      have hzero := @zeroRemainder_put output (encodeFrames out) (by omega)
      rw [hbytes] at hzero
      simp only [converted, hload, hzero]
      rw [if_neg (by decide), if_neg (by decide)]
      by_cases hconsumed : consumed ≠ payloadMaxInput
      · rw [if_pos hconsumed, if_pos hconsumed]
        exact ⟨_, rfl, hlen out hbound, nofun⟩
      rw [if_neg hconsumed, if_neg hconsumed]
      by_cases hproduced : out.length = 0 ∨ out.length > payloadCapacityFrames
      · rw [if_pos hproduced, if_pos hproduced]
        exact ⟨_, rfl, hlen out hbound, nofun⟩
      rw [if_neg hproduced, if_neg hproduced]
      refine ⟨_, rfl, length_padTo (by omega), fun r hr => ?_⟩
      exact congrArg Prod.snd (Except.ok.inj hr)

theorem dispatchMem_eq (hin : m.validFrames.toNat * 4 ≤ payload.length) :
    ∃ out, dispatchMem m payload output =
        .ok ((if m.flags &&& flagAsrcLinear ≠ 0 then processAsrc m payload output.length
          else processIdentity m payload output.length).map Prod.fst, out) ∧
      out.length = output.length ∧
      ∀ r, (if m.flags &&& flagAsrcLinear ≠ 0 then processAsrc m payload output.length
        else processIdentity m payload output.length) = .ok r → out = r.2 := by
  unfold dispatchMem
  split_ifs
  · exact processAsrcMem_eq hin
  · exact processIdentityMem_eq hin

theorem validateInput_none (h : validateInput m payload = none) :
    0 < m.validFrames.toNat ∧ m.validFrames.toNat ≤ payloadCapacityFrames ∧
      m.validFrames.toNat * 4 ≤ payload.length := by
  unfold validateInput at h
  dsimp only at h
  split_ifs at h with h₁ h₂ h₃ h₄ h₅
  have hpos : m.validFrames.toNat ≠ 0 := fun h₀ => h₃ (UInt16.toNat_inj.1 h₀)
  exact ⟨Nat.pos_of_ne_zero hpos, Nat.not_lt.1 h₄, Nat.not_lt.1 h₅⟩

/-- The error path leaves zeros in the whole buffer. -/
theorem store_zeros : store output 0 (List.replicate output.length 0) =
    .ok (List.replicate output.length 0) := by
  have hlen : (List.replicate output.length (0 : UInt8)).length = output.length :=
    List.length_replicate
  rw [store_eq (by omega), put_all hlen]

/-- **No access of the processor is outside a buffer.** -/
theorem flprAudioProcessMem_eq (outputMeta : SlotMeta) :
    flprAudioProcessMem (some m) (some payload) (some outputMeta) (some output) =
      .ok ((flprAudioProcess m payload output.length).1,
        some (flprAudioProcess m payload output.length).2.1,
        some (flprAudioProcess m payload output.length).2.2) := by
  unfold flprAudioProcessMem flprAudioProcess
  simp only [bind, Except.bind, pure, Except.pure, validateInputMem_eq]
  cases hv : validateInput m payload with
  | some e =>
    simp only [store_zeros]
    rfl
  | none =>
    obtain ⟨-, -, hin⟩ := validateInput_none hv
    obtain ⟨out, hmem, hlen, hout⟩ := @dispatchMem_eq m payload output hin
    simp only [hmem]
    generalize (if m.flags &&& flagAsrcLinear ≠ 0 then processAsrc m payload output.length
      else processIdentity m payload output.length) = result at hout
    cases result with
    | error e =>
      have hzeros := @store_zeros out
      rw [hlen] at hzeros
      simp only [Except.map, Except.mapError, hlen, hzeros]
      rfl
    | ok r =>
      obtain rfl := hout r rfl
      rfl

theorem flprAudioProcessMem_null (outputMeta : SlotMeta) :
    flprAudioProcessMem (some m) none (some outputMeta) (some output) =
      .ok (errNullPtr, some (errorMeta m), some (List.replicate output.length 0)) := by
  unfold flprAudioProcessMem
  simp only [bind, Except.bind, pure, Except.pure, store_zeros]
  rfl

end Processor

end Offload

end LeAudioReceiver
