import LeAudioReceiver.Resample.Basic
import Mathlib.Data.Int.ModEq

/-!
# The stereo sample-rate converter

A model of `src/audio_asrc.c`: linear interpolation of stereo frames with a Q32.32 phase that is
carried from block to block.  Within a block the phase indexes the extended sequence whose entry
`0` is the last frame of the previous block and whose entries `1 … N` are the input.

The context holds 64-bit words (`AudioAsrc`); inside a call the phase is a natural number with
the wrap of `uint64_t` written out.  Null pointers have no counterpart here, so the argument
checks that remain are those on the ppm, on the block and on the capacity.
-/

namespace LeAudioReceiver

namespace Asrc

/-! ### Samples -/

/-- One interleaved stereo frame. -/
structure Frame where
  /-- Left sample. -/
  l : Int16
  /-- Right sample. -/
  r : Int16
  deriving DecidableEq, Repr, Inhabited

/-- `ASRC_Q32_ONE`. -/
def q32One : ℕ := 2 ^ 32

/-- `interp_s16`: rounding to nearest, ties away from zero, by truncating division and the exact
remainder. -/
def interpS16 (a b : Int16) (frac : ℕ) : Int16 :=
  let wa : ℤ := a.toInt * ((q32One : ℤ) - frac)
  let wb : ℤ := b.toInt * frac
  let sum := wa + wb
  let q32 : ℤ := q32One
  let half := q32 / 2
  let result := sum.tdiv q32
  let rem := sum - result * q32
  let result :=
    if rem > half ∨ rem < -half ∨ rem = half ∨ rem = -half then
      result + (if sum ≥ 0 then 1 else -1)
    else result
  Int16.ofInt result

/-- Both channels of a frame are interpolated with the same fraction. -/
def interpFrame (a b : Frame) (frac : ℕ) : Frame :=
  ⟨interpS16 a.l b.l frac, interpS16 a.r b.r frac⟩

theorem interpS16_zero (a b : Int16) : interpS16 a b 0 = a := by
  have h : (a.toInt * (q32One : ℤ)).tdiv q32One = a.toInt :=
    Int.mul_tdiv_cancel _ (by decide)
  have hh : ¬ (0 > (q32One : ℤ) / 2 ∨ 0 < -((q32One : ℤ) / 2) ∨ (0 : ℤ) = (q32One : ℤ) / 2 ∨
      (0 : ℤ) = -((q32One : ℤ) / 2)) := by decide
  simp only [interpS16, Nat.cast_zero, sub_zero, mul_zero, add_zero, h, sub_self, if_neg hh,
    Int16.ofInt_toInt]

@[simp] theorem interpFrame_zero (a b : Frame) : interpFrame a b 0 = a := by
  simp [interpFrame, interpS16_zero]

/-! ### The context -/

/-- `struct audio_asrc`. -/
structure AudioAsrc where
  /-- Q32.32 phase within the extended sequence. -/
  phase : UInt64
  /-- Q32.32 nominal step at 0 ppm. -/
  stepBase : UInt64
  deriving DecidableEq, Repr

/-- `ASRC_MAX_PPM`. -/
def maxPpm : ℤ := 3000

/-- `ASRC_RATE_MIN`. -/
def rateMin : ℕ := 1

/-- `ASRC_RATE_MAX`. -/
def rateMax : ℕ := 192000

/-- The value an `int64_t` holds after the conversion of `x`. -/
def toInt64 (x : ℤ) : ℤ := (x + 2 ^ 63) % 2 ^ 64 - 2 ^ 63

/-- `compute_step`: the delta is rounded to nearest; a step that is not positive is reported
as `0`. -/
def computeStep (stepBase : ℕ) (ppm : ℤ) : ℕ :=
  if ppm = 0 then stepBase
  else
    let base := toInt64 stepBase
    let product := toInt64 (base * ppm)
    let delta := (toInt64 (product + if product < 0 then -500000 else 500000)).tdiv 1000000
    let step := toInt64 (base + delta)
    if step ≤ 0 then 0 else step.toNat

/-- `audio_asrc_init`; `none` is `-EINVAL`. -/
def init (inputRateHz outputRateHz : ℕ) : Option AudioAsrc :=
  if inputRateHz < rateMin ∨ inputRateHz > rateMax then none
  else if outputRateHz < rateMin ∨ outputRateHz > rateMax then none
  else
    let step := (inputRateHz * q32One + outputRateHz / 2) / outputRateHz
    if step = 0 then none
    else some { phase := UInt64.ofNat q32One, stepBase := UInt64.ofNat step }

/-- `audio_asrc_reset`. -/
def reset (ctx : AudioAsrc) : AudioAsrc := { ctx with phase := UInt64.ofNat q32One }

/-! ### One block -/

/-- The frame that an iteration writes at position `pos` with fraction `frac`; `none` where the
loop breaks instead. -/
def emit (input : List Frame) (prev : Frame) (prevValid : Bool) (pos frac : ℕ) : Option Frame :=
  if pos > input.length then none
  else if pos = 0 then
    -- carry-over; without a previous block the code falls back to the first input frame
    if prevValid then some (interpFrame prev (input.getD 0 default) frac)
    else some (input.getD 0 default)
  else if pos < input.length then
    some (interpFrame (input.getD (pos - 1) default) (input.getD pos default) frac)
  else if frac = 0 then some (input.getD (input.length - 1) default)
  else none

/-- The `while` loop of `audio_asrc_process` with `room` output frames left: the frames written
and the phase at the exit. -/
def loop (step : ℕ) (input : List Frame) (prev : Frame) (prevValid : Bool) :
    ℕ → ℕ → List Frame × ℕ
  | 0, phase => ([], phase)
  | room + 1, phase =>
    match emit input prev prevValid (phase / 2 ^ 32) (phase % 2 ^ 32) with
    | none => ([], phase)
    | some f =>
      let phase' := (phase + step) % 2 ^ 64
      -- the wrap guard
      if phase' < step then ([f], phase')
      else
        let (out, exit) := loop step input prev prevValid room phase'
        (f :: out, exit)

/-- What a call of `audio_asrc_process` does. -/
inductive ProcessResult where
  /-- `-EINVAL`: nothing is written. -/
  | einval
  /-- `0`: the new context, the frames written, the frames consumed, and the last input frame if
  there is one. -/
  | done (ctx : AudioAsrc) (output : List Frame) (consumed : ℕ) (nextPrev : Option Frame)
  /-- `1`: capacity exhausted; a prefix of the output is written, the context is unchanged. -/
  | full (output : List Frame) (consumed : ℕ)
  deriving DecidableEq

/-- `audio_asrc_process`. -/
def process (ctx : AudioAsrc) (input : List Frame) (outputCapacity : ℕ) (correctionPpm : ℤ)
    (prev : Frame) (prevValid : Bool) : ProcessResult :=
  if correctionPpm < -maxPpm ∨ correctionPpm > maxPpm then .einval
  else if input.length = 0 then .done ctx [] 0 none
  else if outputCapacity = 0 then .full [] 0
  else
    let step := computeStep ctx.stepBase.toNat correctionPpm
    if step = 0 then .einval
    else
      let (out, phase) := loop step input prev prevValid outputCapacity ctx.phase.toNat
      let consumed := min (phase / 2 ^ 32) input.length
      if out.length = outputCapacity ∧ consumed < input.length then .full out consumed
      else
        .done { ctx with phase := UInt64.ofNat (phase - consumed * 2 ^ 32) } out consumed
          (some (input.getD (input.length - 1) default))

/-- The frames that a call writes. -/
def ProcessResult.output : ProcessResult → List Frame
  | .einval => []
  | .done _ output _ _ => output
  | .full output _ => output

theorem length_loop_le {step : ℕ} {input : List Frame} {prev : Frame} {prevValid : Bool} :
    ∀ room phase, (loop step input prev prevValid room phase).1.length ≤ room := by
  intro room
  induction room with
  | zero => intro phase; exact Nat.zero_le _
  | succ room ih =>
    intro phase
    rw [loop]
    cases emit input prev prevValid (phase / 2 ^ 32) (phase % 2 ^ 32) with
    | none => exact Nat.zero_le _
    | some f =>
      dsimp only
      split_ifs
      · exact Nat.succ_le_succ (Nat.zero_le _)
      · exact Nat.succ_le_succ (ih _)

/-- A call never writes more than its buffer holds. -/
theorem length_output_process_le (ctx : AudioAsrc) (input : List Frame) (capacity : ℕ) (ppm : ℤ)
    (prev : Frame) (prevValid : Bool) :
    (process ctx input capacity ppm prev prevValid).output.length ≤ capacity := by
  unfold process
  dsimp only
  split_ifs
  · exact Nat.zero_le _
  · exact Nat.zero_le _
  · exact Nat.zero_le _
  · exact Nat.zero_le _
  · exact length_loop_le _ _
  · exact length_loop_le _ _

theorem process_stepBase {ctx ctx' : AudioAsrc} {input output : List Frame} {capacity n : ℕ}
    {ppm : ℤ} {prev : Frame} {prevValid : Bool} {next : Option Frame}
    (h : process ctx input capacity ppm prev prevValid = .done ctx' output n next) :
    ctx'.stepBase = ctx.stepBase := by
  unfold process at h
  dsimp only at h
  split_ifs at h
  · cases h; rfl
  · cases h; rfl

/-! ### Continuity state on the wire -/

/-- `struct audio_asrc_state`. -/
structure AsrcState where
  phase : UInt64
  stepBase : UInt64
  prevL : Int16
  prevR : Int16
  prevValid : UInt8
  /-- The three reserved bytes. -/
  reserved : UInt8 × UInt8 × UInt8
  deriving DecidableEq, Repr

/-- `audio_asrc_state_export`. -/
def stateExport (ctx : AudioAsrc) (prev : Frame) (prevValid : Bool) : AsrcState :=
  { phase := ctx.phase, stepBase := ctx.stepBase, prevL := prev.l, prevR := prev.r
    prevValid := if prevValid then 1 else 0, reserved := (0, 0, 0) }

/-- `audio_asrc_state_import`; `none` is `-EINVAL`, with nothing written. -/
def stateImport (src : AsrcState) : Option (AudioAsrc × Frame × Bool) :=
  if src.stepBase = 0 then none
  else if src.prevValid > 1 then none
  else if src.reserved.1 ≠ 0 ∨ src.reserved.2.1 ≠ 0 ∨ src.reserved.2.2 ≠ 0 then none
  else some ({ phase := src.phase, stepBase := src.stepBase }, ⟨src.prevL, src.prevR⟩,
    src.prevValid != 0)

theorem stateImport_stepBase {src : AsrcState} {ctx : AudioAsrc} {prev : Frame} {prevValid : Bool}
    (h : stateImport src = some (ctx, prev, prevValid)) :
    ctx.stepBase = src.stepBase ∧ src.stepBase ≠ 0 := by
  unfold stateImport at h
  split_ifs at h with h₀
  obtain ⟨rfl, -⟩ := Prod.mk.inj (Option.some.inj h)
  exact ⟨rfl, h₀⟩

/-- Import undoes export whenever the context was initialised. -/
theorem stateImport_stateExport {ctx : AudioAsrc} (prev : Frame) (prevValid : Bool)
    (h : ctx.stepBase ≠ 0) :
    stateImport (stateExport ctx prev prevValid) = some (ctx, prev, prevValid) := by
  cases prevValid <;> simp [stateImport, stateExport, h]

end Asrc

end LeAudioReceiver
