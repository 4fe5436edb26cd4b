import LeAudioReceiver.AudioPath.Basic
import LeAudioReceiver.Machine.Basic
import LeAudioReceiver.Threads.Basic

/-!
# Threads at the sink

Any number of threads call `audio_sink_push`, `audio_sink_stop`, `audio_sink_stream_open` and
`audio_sink_stream_close` (`src/audio_i2s.c`).  A step is one section under `stream_mutex`, or
the work of the stop owner between two sections.  A thread whose wait condition holds goes to
sleep on `stream_condvar`, and only a broadcast wakes it; it then tests its condition again.

Beside the state the system counts the admitted pushes: how many there had been when each stop
caller entered, when the reset of the current owner began, and when the last reset that was
finalized had begun.
-/

namespace LeAudioReceiver

namespace AudioPath

/-- Where a thread is. -/
inductive ThreadPc where
  | idle
  /-- An admitted push, before its exit. -/
  | push
  /-- Before a section of `audio_sink_stop`. -/
  | stop (pc : StopPc)
  /-- Before the test of `audio_sink_stream_open`. -/
  | opening
  deriving DecidableEq, Repr

namespace ThreadPc

/-- Counted by `active_pushes`. -/
def pushing : ThreadPc → Bool
  | push => true
  | _ => false

/-- Counted by `stop_callers`. -/
def stopping : ThreadPc → Bool
  | stop .enter => false
  | stop _ => true
  | _ => false

/-- The owner of a stop, until it has finalized. -/
def owning : ThreadPc → Bool
  | stop .drain => true
  | stop .reset => true
  | stop .finalize => true
  | _ => false

/-- The owner has found no active push. -/
def drained : ThreadPc → Bool
  | stop .reset => true
  | stop .finalize => true
  | _ => false

end ThreadPc

/-- The sink, its threads, and the counts of admissions. -/
structure SinkSys (ι : Type*) where
  sink : Sink
  pc : ι → ThreadPc
  /-- Asleep on `stream_condvar`. -/
  asleep : ι → Bool
  /-- The pushes admitted so far. -/
  admitted : ℕ
  /-- How many had been admitted when a stop caller entered. -/
  enteredAt : ι → ℕ
  /-- How many had been admitted when the last reset began. -/
  resetAt : ℕ
  /-- How many had been admitted when the last finalized reset began. -/
  finalizedAt : Option ℕ

/-- A thread enters a function, or takes the next step of the one it is in. -/
inductive SinkAction (ι : Type*) where
  | callPush (i : ι)
  | callStop (i : ι)
  | callOpen (i : ι)
  | callClose (i : ι)
  | run (i : ι)

namespace SinkSys

variable {ι : Type*} [DecidableEq ι] (s : SinkSys ι)

/-- Thread `i` continues at `pc`. -/
def goto (i : ι) (pc : ThreadPc) : SinkSys ι := { s with pc := Function.update s.pc i pc }

/-- `k_condvar_broadcast`. -/
def broadcast : SinkSys ι := { s with asleep := fun _ => false }

/-- `k_condvar_wait`. -/
def sleep (i : ι) : SinkSys ι := { s with asleep := Function.update s.asleep i true }

/-- The condition a thread waits on. -/
def waits : ThreadPc → Bool
  | .stop .drain => s.sink.activePushes ≠ 0
  | .stop .join => s.sink.stopFinalizing
  | .opening => s.sink.configured && s.sink.stopCallers ≠ 0
  | _ => false

/-- What `audio_sink_stop` leaves in the counts of admissions. -/
def note (i : ι) : StopPc → SinkSys ι
  | .enter => { s with enteredAt := Function.update s.enteredAt i s.admitted }
  | .drain => { s with resetAt := s.admitted }
  | .finalize => { s with finalizedAt := some s.resetAt }
  | _ => s

/-- The owner broadcasts when it finalizes, and the last caller of a cohort when it leaves. -/
def stopBroadcasts (pc : StopPc) (sink : Sink) : Bool :=
  match pc with
  | .finalize => true
  | .join => sink.stopCallers = 0
  | _ => false

/-- The next step of thread `i`, which is awake. -/
def step (i : ι) : ThreadPc → Option (SinkSys ι)
  | .idle => none
  | .push =>
    let s' := { s with sink := s.sink.pushExit }.goto i .idle
    some (if s'.sink.activePushes = 0 then s'.broadcast else s')
  | .stop pc =>
    match s.sink.stop pc with
    | none => some (s.sleep i)
    | some (sink, pc') =>
      let s' := { s.note i pc with sink := sink }.goto i
        (match pc' with | some pc' => .stop pc' | none => .idle)
      some (if stopBroadcasts pc sink then s'.broadcast else s')
  | .opening =>
    match s.sink.streamOpen with
    | none => some (s.sleep i)
    | some (sink, _) => some ({ s with sink := sink }.goto i .idle)

/-- One step of the system. -/
def next : SinkAction ι → Option (SinkSys ι)
  | .callPush i =>
    if s.pc i = .idle then
      match s.sink.pushEnter with
      -- refused with an error
      | none => some s
      | some sink => some ({ s with sink := sink, admitted := s.admitted + 1 }.goto i .push)
    else none
  | .callStop i => if s.pc i = .idle then some (s.goto i (.stop .enter)) else none
  | .callOpen i => if s.pc i = .idle then some (s.goto i .opening) else none
  | .callClose i =>
    if s.pc i = .idle then some { s with sink := s.sink.streamClose } else none
  | .run i => if s.asleep i then none else s.step i (s.pc i)

/-- After `audio_sink_init`, with all threads elsewhere. -/
def start (configured : Bool) : SinkSys ι :=
  ⟨Sink.init configured, fun _ => .idle, fun _ => false, 0, fun _ => 0, 0, none⟩

/-- All runs. -/
def machine (ι : Type*) [DecidableEq ι] : Machine (SinkSys ι) (SinkAction ι) :=
  ⟨fun s => ∃ configured, s = start configured, next⟩

end SinkSys

end AudioPath

end LeAudioReceiver
