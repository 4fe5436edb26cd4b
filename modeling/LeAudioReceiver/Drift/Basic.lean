import Mathlib.Algebra.Order.Ring.Int
import Mathlib.Tactic.Common

/-!
# The drift controller

The model of `src/audio_drift.c`: the filter of the measured clock error, and the controller of
the buffer phase, which runs once per block.  The 64-bit intermediate values and the stored ones
are integers; what the code clamps before it stores is clamped.
-/

namespace LeAudioReceiver

namespace Drift

/-- `PHASE_SETPOINT`. -/
def phaseSetpoint : ℤ := 6

/-- `PHASE_SCALE`. -/
def phaseScale : ℤ := 50

/-- `KP_MILLI`. -/
def kpMilli : ℤ := 300

/-- `KI_MILLI`. -/
def kiMilli : ℤ := 50

/-- `FREQ_FILTER_SHIFT`. -/
def freqFilterShift : ℕ := 3

/-- `INT32_MIN`. -/
def int32Min : ℤ := -2147483648

/-- `INT32_MAX`. -/
def int32Max : ℤ := 2147483647

/-- `CLAMP`. -/
def clamp (val low high : ℤ) : ℤ := if val ≤ low then low else min val high

/-- The limits that the build configures. -/
structure Config where
  outputClamp : ℤ
  phaseIntegralClamp : ℤ

/-- `enum drift_state`. -/
inductive DriftState where
  | init
  | active
  deriving DecidableEq, Repr

/-- `struct drift_controller`. -/
structure Controller where
  freqFiltered : ℤ
  freqOnceReceived : Bool
  phaseIntegral : ℤ
  outputPpm : ℤ
  state : DriftState
  deriving DecidableEq, Repr

namespace Controller

/-- `audio_drift_reset`, and the state at boot. -/
def reset : Controller := ⟨0, false, 0, 0, .init⟩

variable (c : Controller)

/-- `audio_drift_frequency_error_update`. -/
def frequencyErrorUpdate (localClockErrorPpm : ℤ) : Controller :=
  if c.freqOnceReceived then
    let delta := localClockErrorPpm - c.freqFiltered
    let ema := c.freqFiltered + delta >>> freqFilterShift
    { c with freqFiltered := clamp ema int32Min int32Max }
  else { c with freqFiltered := localClockErrorPpm, freqOnceReceived := true }

/-- The directional anti-windup: the increment would go farther into the rail. -/
def blocksIntegral (cfg : Config) (phaseInc : ℤ) : Bool :=
  (c.outputPpm ≥ cfg.outputClamp && phaseInc > 0) ||
    (c.outputPpm ≤ -cfg.outputClamp && phaseInc < 0)

/-- `audio_drift_controller_update`; the result is the new `outputPpm`. -/
def controllerUpdate (cfg : Config) (slabFreeCount : ℤ) : Controller :=
  match c.state with
  | .init => { c with state := .active, outputPpm := 0 }
  | .active =>
    let freqCorrection := if c.freqOnceReceived then -c.freqFiltered else 0
    let phaseErrPpm := (phaseSetpoint - slabFreeCount) * phaseScale
    let phasePp := (phaseErrPpm * kpMilli).tdiv 1000
    let phaseInc := (phaseErrPpm * kiMilli).tdiv 1000
    let phaseIntegral :=
      if c.blocksIntegral cfg phaseInc then c.phaseIntegral
      else clamp (c.phaseIntegral + phaseInc) (-cfg.phaseIntegralClamp) cfg.phaseIntegralClamp
    let total := freqCorrection + (phasePp + phaseIntegral)
    { c with
      phaseIntegral := phaseIntegral
      outputPpm := clamp total (-cfg.outputClamp) cfg.outputClamp }

variable {c}

theorem controllerUpdate_frame (cfg : Config) (slabFreeCount : ℤ) :
    (c.controllerUpdate cfg slabFreeCount).freqFiltered = c.freqFiltered ∧
      (c.controllerUpdate cfg slabFreeCount).freqOnceReceived = c.freqOnceReceived := by
  unfold controllerUpdate
  split <;> exact ⟨rfl, rfl⟩

end Controller

end Drift

end LeAudioReceiver
