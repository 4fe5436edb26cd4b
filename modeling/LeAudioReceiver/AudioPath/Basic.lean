import Mathlib.Algebra.GroupWithZero.Nat
import Mathlib.Data.List.FinRange
import Mathlib.Logic.Function.Basic

/-!
# The gates of the audio path

The three modules that decide whether a received frame reaches the I2S hardware, each as its
sections under its own lock:

* `Gate` : `src/stream_lifecycle.c`, the lifecycle gate, which opens when every configured sink has
  started.
* `Sink` : the push admission and the stop protocol of `src/audio_i2s.c`.
* `Session` : the receive admission of `src/audio_stream_session.c`.

A wait on a condition variable is a section that can run only when the condition holds.  Left out
are the PCM data, the decoders, trackers and statistics of a slot, and the DMA.
-/

namespace LeAudioReceiver

namespace AudioPath

/-- `MAX_SINK_ASE`. -/
def maxSinkAse : ℕ := 2

instance : NeZero maxSinkAse := ⟨by decide⟩

/-- A write to an array of one flag per sink; out of range it does nothing. -/
def setAt (f : Fin maxSinkAse → Bool) (idx : ℕ) (value : Bool) : Fin maxSinkAse → Bool :=
  if h : idx < maxSinkAse then Function.update f ⟨idx, h⟩ value else f

/-! ### The lifecycle gate -/

/-- The state of `stream_lifecycle.c`. -/
structure Gate where
  /-- `sink_started`. -/
  started : Fin maxSinkAse → Bool
  /-- `sink_occupied`. -/
  occupied : Fin maxSinkAse → Bool
  /-- `audio_path_open`. -/
  isOpen : Bool
  /-- `force_closed`: a shell stop latches the gate. -/
  forceClosed : Bool

namespace Gate

variable (g : Gate)

/-- `stream_lifecycle_reset`; also the state at boot. -/
def reset : Gate := ⟨fun _ => false, fun _ => false, false, false⟩

/-- `stream_lifecycle_sink_configured`. -/
def sinkConfigured (idx : ℕ) : Gate :=
  { g with occupied := setAt g.occupied idx true, started := setAt g.started idx false }

/-- The number of configured sinks. -/
def totalAse : ℕ := (List.finRange maxSinkAse).countP g.occupied

/-- The number of configured sinks that have started. -/
def startedAse : ℕ := (List.finRange maxSinkAse).countP fun i => g.occupied i && g.started i

/-- One sink opens the gate alone, two only together. -/
def shouldOpen : Bool :=
  if g.totalAse = 1 then decide (1 ≤ g.startedAse)
  else if 2 ≤ g.totalAse then decide (2 ≤ g.startedAse)
  else false

/-- `stream_lifecycle_sink_started`; the flag is returned on the edge from closed to open. -/
def sinkStarted (idx : ℕ) : Gate × Bool :=
  if maxSinkAse ≤ idx then (g, false)
  else if g.forceClosed then (g, false)
  else
    let g := { g with started := setAt g.started idx true }
    let opened := g.shouldOpen && !g.isOpen
    (if opened then { g with isOpen := true } else g, opened)

/-- A sink is configured. -/
def anyConfigured : Bool := (List.finRange maxSinkAse).any g.occupied

/-- `stream_lifecycle_sink_release`; the last release clears the latch. -/
def sinkRelease (idx : ℕ) : Gate :=
  let g := { g with occupied := setAt g.occupied idx false, started := setAt g.started idx false }
  if g.anyConfigured then g else { g with forceClosed := false }

/-- `stream_lifecycle_audio_path_close`; it returns whether the gate was open. -/
def audioPathClose : Gate × Bool := ({ g with isOpen := false }, g.isOpen)

/-- `stream_lifecycle_force_close`. -/
def forceClose : Gate × Bool :=
  ({ g with isOpen := false, forceClosed := g.anyConfigured }, g.isOpen)

@[simp]
theorem sinkRelease_isOpen (idx : ℕ) : (g.sinkRelease idx).isOpen = g.isOpen := by
  unfold sinkRelease
  dsimp only
  split_ifs <;> rfl

/-- The gate reports exactly the edge from closed to open. -/
theorem sinkStarted_isOpen (idx : ℕ) :
    (g.sinkStarted idx).1.isOpen = (g.isOpen || (g.sinkStarted idx).2) := by
  unfold sinkStarted
  dsimp only
  split_ifs with h₁ h₂ h₃
  · simp
  · simp
  · simp [h₃]
  · simp only [Bool.eq_false_iff.2 h₃, Bool.or_false]

/-- An open gate does not open again. -/
theorem isOpen_of_sinkStarted {idx : ℕ} (h : (g.sinkStarted idx).2 = true) : g.isOpen = false := by
  unfold sinkStarted at h
  dsimp only at h
  split_ifs at h <;> simp_all

end Gate

/-! ### The sink -/

/-- The push admission of `audio_i2s.c`. -/
structure Sink where
  configured : Bool
  /-- `stream_accepting`. -/
  accepting : Bool
  activePushes : ℕ
  stopCallers : ℕ
  stopFinalizing : Bool
  deriving DecidableEq, Repr

/-- `audio_sink_stop`. -/
inductive StopPc where
  | enter
  /-- The owner waits for the admitted pushes. -/
  | drain
  /-- The owner resets drift and timing and drops the DMA, outside the mutex. -/
  | reset
  | finalize
  /-- Another caller waits for the owner. -/
  | join
  deriving DecidableEq, Repr

namespace Sink

variable (s : Sink)

/-- `audio_sink_stop`; a wait is blocked while its condition holds. -/
def stop : StopPc → Option (Sink × Option StopPc)
  | .enter =>
    let owner := s.stopCallers == 0
    some ({ s with
      accepting := false
      stopCallers := s.stopCallers + 1
      stopFinalizing := s.stopFinalizing || owner }, some (if owner then .drain else .join))
  | .drain => if s.activePushes = 0 then some (s, some .reset) else none
  | .reset => some (s, some .finalize)
  | .finalize =>
    some ({ s with stopFinalizing := false, stopCallers := s.stopCallers - 1 }, none)
  | .join =>
    if s.stopFinalizing then none else some ({ s with stopCallers := s.stopCallers - 1 }, none)

/-- `audio_sink_stream_open`: no result while a stop is in progress, else whether it succeeded. -/
def streamOpen : Option (Sink × Bool) :=
  if !s.configured then some (s, false)
  else if s.stopCallers = 0 then some ({ s with accepting := true }, true)
  else none

/-- `audio_sink_stream_close`. -/
def streamClose : Sink := { s with accepting := false }

/-- The admission of `audio_sink_push`. -/
def pushEnter : Option Sink :=
  if s.configured && s.accepting then some { s with activePushes := s.activePushes + 1 } else none

/-- The exit of an admitted `audio_sink_push`. -/
def pushExit : Sink := { s with activePushes := s.activePushes - 1 }

/-- After `audio_sink_init`, which can fail. -/
def init (configured : Bool) : Sink := ⟨configured, false, 0, 0, false⟩

/-- Only the entry of a stop changes the admission. -/
theorem stop_accepting {pc : StopPc} {t : Sink × Option StopPc} (hpc : pc ≠ .enter)
    (h : s.stop pc = some t) : t.1.accepting = s.accepting := by
  cases pc with
  | enter => exact absurd rfl hpc
  | drain =>
    simp only [stop] at h
    split_ifs at h
    obtain rfl := Option.some.inj h
    rfl
  | reset | finalize =>
    obtain rfl := Option.some.inj h
    rfl
  | join =>
    simp only [stop] at h
    split_ifs at h
    obtain rfl := Option.some.inj h
    rfl

end Sink

/-! ### The session -/

/-- The receive admission of `audio_stream_session.c`. -/
structure Session where
  configured : Fin maxSinkAse → Bool
  /-- `admission_open`. -/
  admission : Bool
  generation : UInt32
  inFlight : ℕ

namespace Session

variable (s : Session)

/-- `audio_stream_session_init`. -/
def init : Session := ⟨fun _ => false, false, 0, 0⟩

/-- `audio_stream_session_config`. -/
def config (idx : ℕ) : Session := { s with configured := setAt s.configured idx true }

/-- `audio_stream_session_release`. -/
def release (idx : ℕ) : Session := { s with configured := setAt s.configured idx false }

/-- `audio_stream_session_reset_all`. -/
def resetAll : Session := { s with configured := fun _ => false }

/-- `audio_stream_session_configured`. -/
def isConfigured (idx : ℕ) : Bool :=
  if h : idx < maxSinkAse then s.configured ⟨idx, h⟩ else false

/-- `audio_stream_session_rx_open`. -/
def rxOpen : Session := { s with admission := true }

/-- `audio_stream_session_rx_close` before its wait for the leases. -/
def rxClose : Session := { s with admission := false, generation := s.generation + 1 }

/-- The acquisition of a lease in `audio_stream_session_recv`. -/
def acquire (idx : ℕ) : Option Session :=
  if s.admission && s.isConfigured idx then some { s with inFlight := s.inFlight + 1 } else none

/-- The release of a lease. -/
def leave : Session := { s with inFlight := s.inFlight - 1 }

end Session

end AudioPath

end LeAudioReceiver
