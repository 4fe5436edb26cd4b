import LeAudioReceiver.AudioPath.SinkThreads
import LeAudioReceiver.Drift.Basic
import LeAudioReceiver.Timing.Fifo

/-!
# The clock loop

The drift controller between the timing measurement and the sink.  The work handler of
`src/audio_timing_nrf54.c` tells it the measured error, pushes run it (`do_push` in
`src/audio_i2s.c`), and the owner of a stop first resets it and then the timing, with any steps of
the interrupt and of the work queue in between.

Beside the state the system keeps the measurements that the controller has been told since its
last reset, whether a push has run it since, and whether a stop has returned with no measurement
captured since.
-/

namespace LeAudioReceiver

namespace Timing

namespace State

variable (s : State)

/-- The compare interrupt stores a measurement that can reach the drift controller. -/
def measures (ccValue : UInt64) (ret : ℤ) : Bool :=
  s.active && 0 ≤ ret && s.lastCompareUs ≠ 0 && s.diagFifo.count < diagFifoCapacity &&
    (ccValue - s.lastCompareUs).toUInt32 ≠ 0

end State

/-- The step is an interrupt that stores a measurement. -/
def Action.measures (s : State) : Action → Bool
  | .isr ccValue _ _ ret => s.measures ccValue ret
  | _ => false

end Timing

namespace Drift

open AudioPath Timing

/-- How far the owner of a stop is with its resets. -/
inductive ResetPc where
  | none
  /-- Between `drift_reset` and the bump of the generation. -/
  | timing
  /-- In `audio_timing_reset`, behind the bump. -/
  | resetting
  /-- Behind `audio_timing_reset`, until the stop is finalized. -/
  | done
  deriving DecidableEq, Repr

/-- The sink with its threads, the timing measurement, and the drift controller. -/
structure ClockLoop (ι : Type*) where
  sink : SinkSys ι
  timing : Timing.State
  drift : Controller
  resetPc : ResetPc
  /-- What the controller has been told since its last reset. -/
  received : List Capture
  /-- A push has run the controller since its last reset. -/
  updated : Bool
  /-- A stop has returned, and no measurement has been captured since. -/
  quiet : Bool

/-- A step at the sink, of its resets, of the timing, or a run of the controller in a push. -/
inductive Action (ι : Type*) where
  | sink (a : SinkAction ι)
  | driftReset (i : ι)
  | timingReset (i : ι)
  | timing (a : Timing.Action)
  | update (i : ι) (slabFreeCount : ℤ)

/-- A stop returns. -/
def stopReturns {ι : Type*} (s t : SinkSys ι) : SinkAction ι → Bool
  | .run i => (s.pc i).stopping && t.pc i = .idle
  | _ => false

namespace ClockLoop

variable {ι : Type*} [DecidableEq ι] (cfg : Config) (s : ClockLoop ι)

/-- The owner goes on from its resets only when they are done. -/
def mayRun : SinkAction ι → Bool
  | .run i => s.sink.pc i ≠ .stop .reset || s.resetPc = .done
  | _ => true

/-- `resetPc` behind a step at the sink. -/
def afterSink : SinkAction ι → ResetPc
  | .run i => if s.sink.pc i = .stop .finalize then .none else s.resetPc
  | _ => s.resetPc

/-- The drift controller is told the measurements `l`. -/
def receive (l : List Capture) : ClockLoop ι :=
  { s with
    drift := l.foldl (fun c m => c.frequencyErrorUpdate m.ppm) s.drift
    received := s.received ++ l }

/-- What a step of the timing hands to the drift controller. -/
def handed : Timing.Action → List Capture
  | .work => s.timing.workPc.unsent
  | _ => []

/-- One step. -/
def next : Action ι → Option (ClockLoop ι)
  | .sink a =>
    if s.mayRun a then
      (s.sink.next a).map fun t =>
        { s with
          sink := t
          resetPc := s.afterSink a
          quiet := s.quiet || stopReturns s.sink t a }
    else none
  | .driftReset i =>
    if s.sink.pc i = .stop .reset ∧ s.resetPc = .none then
      some { s with drift := .reset, received := [], updated := false, resetPc := .timing }
    else none
  | .timingReset i =>
    if s.sink.pc i = .stop .reset ∧ s.resetPc = .timing then
      (s.timing.next .reset).map fun t => { s with timing := t, resetPc := .resetting }
    else none
  | .timing a =>
    -- `audio_timing_reset` is called by the owner only
    if a = .reset then none
    else
      (s.timing.next a).map fun t =>
        { s.receive (s.handed a) with
          timing := t
          resetPc := if s.resetPc = .resetting ∧ t.ctlPc = .free then .done else s.resetPc
          quiet := s.quiet && !a.measures s.timing }
  | .update i slabFreeCount =>
    if s.sink.pc i = .push then
      some { s with drift := s.drift.controllerUpdate cfg slabFreeCount, updated := true }
    else none

/-- After the initialisations. -/
def start (configured : Bool) (timerNominalHz : UInt32) : ClockLoop ι :=
  ⟨SinkSys.start configured, Timing.State.init timerNominalHz, .reset, .none, [], false, false⟩

/-- All runs. -/
def machine (ι : Type*) [DecidableEq ι] (cfg : Config) : Machine (ClockLoop ι) (Action ι) :=
  ⟨fun s => ∃ configured timerNominalHz, s = start configured timerNominalHz, next cfg⟩

/-- Behind the bump of a stop, until the last caller of its cohort has left. -/
def pastBump : Bool :=
  match s.resetPc with
  | .none => s.sink.sink.stopCallers ≠ 0 && !s.sink.sink.stopFinalizing
  | .timing => false
  | .resetting | .done => true

/-- A popped measurement will be found current. -/
def passes : Bool :=
  match s.timing.workPc with
  | .popped c => c.gen = s.timing.generation && c.measured
  | _ => false

/-- The drift controller is not reset while the handler holds a measurement that it has found
current; none is found current between the two resets, or after `2 ^ 32` resets; and none is
captured between the reset of the timing and the return of the stop. -/
def separated : Action ι → Bool
  | .driftReset _ => s.timing.workPc.unsent = []
  | .timing .work =>
    !s.passes || (s.resetPc ≠ .timing &&
      s.timing.workPc.untested.all fun c => s.timing.resets < c.session + 2 ^ 32)
  | .timing a => !(s.pastBump && a.measures s.timing)
  | _ => true

end ClockLoop

end Drift

end LeAudioReceiver
