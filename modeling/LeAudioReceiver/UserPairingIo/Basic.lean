import LeAudioReceiver.Machine.Basic
import Mathlib.Data.Int.Notation
import Mathlib.Data.Nat.Notation

/-!
# The button of the pairing control

A model of the button events and of the two hold thresholds in `src/user_pairing_io.c`.  The input
thread handles one debounced event after the other; a critical section under `g_lock`, a call of
the kernel and a request to the pairing mode are one step each.  The handlers of the thresholds
run on the one thread of the work queue, and between any two steps the other thread and the
timeouts can come.

`g_initialized` is set throughout.  A timeout knows the hold in which it was armed, and so does
what follows from it; the code does not.  Beside the state the system keeps when the presses were
processed and which requests were made.
-/

namespace LeAudioReceiver

namespace UserPairingIo

/-- The two thresholds. -/
inductive Kind where
  | bond
  | reset
  deriving DecidableEq, Repr

/-- The configured hold times. -/
structure Config where
  bondHoldMs : ℕ
  resetHoldMs : ℕ
  bond_pos : 0 < bondHoldMs
  bond_lt : bondHoldMs < resetHoldMs

/-- `CONFIG_USER_PAIRING_BOND_HOLD_MS` or `CONFIG_USER_PAIRING_RESET_HOLD_MS`. -/
def Config.holdMs (cfg : Config) : Kind → ℕ
  | .bond => cfg.bondHoldMs
  | .reset => cfg.resetHoldMs

/-- A timeout that runs. -/
structure Timeout where
  deadline : ℕ
  /-- The hold in which it was armed. -/
  hold : ℕ
  deriving DecidableEq, Repr

/-- `struct threshold_work`, with its delayable work item. -/
structure ThresholdWork where
  generation : UInt32
  timeout : Option Timeout
  /-- On the queue, because of a timeout of this hold. -/
  queued : Option ℕ
  /-- The running handler is being cancelled; until it returns nothing is queued. -/
  canceling : Bool
  deriving DecidableEq, Repr

/-- Where the input thread is. -/
inductive InputPc where
  | idle
  /-- `handle_press`, before it schedules a threshold. -/
  | schedule (k : Kind)
  /-- `cancel_and_clear`, before it cancels a threshold. -/
  | cancelFailed (k : Kind) (err : ℤ)
  /-- `cancel_and_clear`, before its critical section. -/
  | clear (err : ℤ)
  /-- `handle_release`, before it cancels a threshold. -/
  | cancelReleased (k : Kind)
  deriving DecidableEq, Repr

/-- Where the thread of the work queue is; `cause` is the hold whose timeout it serves. -/
inductive WorkPc where
  | idle
  /-- The handler is called, and has not taken the lock. -/
  | started (k : Kind) (cause : ℕ)
  /-- The reset threshold fires in `hold`, and a still armed bonding work is to be cancelled. -/
  | cancelBonding (cause hold : ℕ)
  /-- The threshold fires in `hold`, before the request. -/
  | request (k : Kind) (cause hold : ℕ)
  /-- The request failed. -/
  | failed (k : Kind) (ret : ℤ)
  deriving DecidableEq, Repr

/-- The threshold whose handler runs. -/
def WorkPc.running : WorkPc → Option Kind
  | .idle => none
  | .started k _ | .request k _ _ | .failed k _ => some k
  | .cancelBonding _ _ => some .reset

/-- A call of `pairing_mode_request_bonding` or `pairing_mode_request_reset`. -/
structure Request where
  kind : Kind
  /-- The hold for which it was made. -/
  hold : ℕ
  /-- The hold whose timeout made it. -/
  cause : ℕ
  time : ℕ
  /-- A release had been processed since the press. -/
  released : Bool
  deriving DecidableEq, Repr

/-- The module, its threads and its history. -/
structure State where
  /-- In milliseconds. -/
  now : ℕ
  pressed : Bool
  holdGeneration : UInt32
  /-- `bonding_threshold_armed` and `reset_threshold_armed`. -/
  armed : Kind → Bool
  lastError : ℤ
  /-- `g_bond_work` and `g_reset_work`. -/
  work : Kind → ThresholdWork
  inputPc : InputPc
  workPc : WorkPc
  /-- When the presses were processed; hold `n` begins with the `n`-th of them. -/
  presses : List ℕ
  /-- The last hold that a release has been processed in. -/
  released : ℕ
  requests : List Request

namespace State

variable (cfg : Config) (s : State)

/-- The current hold, or the last one. -/
def hold : ℕ := s.presses.length

/-- When a hold began; hold `0` is the boot. -/
def pressTime (h : ℕ) : ℕ := (0 :: s.presses).getD h 0

/-- An update of one of the threshold works. -/
def setWork (k : Kind) (f : ThresholdWork → ThresholdWork) : State :=
  { s with work := fun k' => if k' = k then f (s.work k') else s.work k' }

/-- `k_work_cancel_delayable`. -/
def cancel (k : Kind) : State :=
  s.setWork k fun w =>
    { w with timeout := none, queued := none, canceling := s.workPc.running = some k }

/-- The next generation of a press, which wraps from zero to one. -/
def nextGeneration : UInt32 := if s.holdGeneration + 1 = 0 then 1 else s.holdGeneration + 1

/-- The critical section of `handle_press`. -/
def press : State :=
  if s.pressed then s
  else
    { s with
      holdGeneration := s.nextGeneration
      pressed := true
      armed := fun _ => true
      lastError := 0
      work := fun k => { s.work k with generation := s.nextGeneration }
      inputPc := .schedule .bond
      presses := s.presses ++ [s.now] }

/-- The critical section of `handle_release`. -/
def release : State :=
  let s : State := { s with released := s.hold }
  if !s.pressed then s
  else
    { s with
      pressed := false
      holdGeneration := s.holdGeneration + 1
      armed := fun _ => false
      inputPc := .cancelReleased .bond }

/-- `schedule_threshold`, which returns `ret`; behind it `handle_press` goes on. -/
def schedule (k : Kind) (ret : ℤ) : State :=
  let timeout := if ret < 0 then none else some ⟨s.now + cfg.holdMs k, s.hold⟩
  let s := s.setWork k fun w => { w with timeout := timeout }
  { s with
    inputPc :=
      if ret < 0 then .cancelFailed .bond ret
      else match k with
        | .bond => .schedule .reset
        | .reset => .idle }

/-- The critical section of `cancel_and_clear`. -/
def clear (err : ℤ) : State :=
  { s with pressed := false, armed := fun _ => false, lastError := err, inputPc := .idle }

/-- The input thread goes on. -/
def inputRun (ret : ℤ) : Option State :=
  match s.inputPc with
  | .idle => none
  | .schedule k => some (s.schedule cfg k ret)
  | .cancelFailed .bond err => some { s.cancel .bond with inputPc := .cancelFailed .reset err }
  | .cancelFailed .reset err => some { s.cancel .reset with inputPc := .clear err }
  | .clear err => some (s.clear err)
  | .cancelReleased .bond => some { s.cancel .bond with inputPc := .cancelReleased .reset }
  | .cancelReleased .reset => some { s.cancel .reset with inputPc := .idle }

/-- A timeout expires: its work is queued, unless it is on the queue or being cancelled. -/
def expire (k : Kind) : Option State :=
  match (s.work k).timeout with
  | none => none
  | some t =>
    if t.deadline ≤ s.now then
      some (s.setWork k fun w =>
        { w with
          timeout := none
          queued := if w.canceling then w.queued else some (w.queued.getD t.hold) })
    else none

/-- The work queue calls the handler of a queued work. -/
def start (k : Kind) : Option State :=
  match s.workPc, (s.work k).queued with
  | .idle, some cause =>
    some { s.setWork k (fun w => { w with queued := none }) with workPc := .started k cause }
  | _, _ => none

/-- The handler of a threshold returns. -/
def finish (k : Kind) : State :=
  { s.setWork k (fun w => { w with canceling := false }) with workPc := .idle }

/-- The test of a handler under the lock. -/
def fires (k : Kind) : Bool :=
  s.pressed && s.armed k && (s.work k).generation = s.holdGeneration

/-- The critical section of `bond_threshold_handler` or of `reset_threshold_handler`. -/
def take (k : Kind) (cause : ℕ) : State :=
  if !s.fires k then s.finish k
  else match k with
    | .bond =>
      { s with
        armed := fun k => if k = .bond then false else s.armed k
        workPc := .request .bond cause s.hold }
    | .reset =>
      { s with
        armed := fun _ => false
        workPc := if s.armed .bond then .cancelBonding cause s.hold
          else .request .reset cause s.hold }

/-- The request of a handler, which returns `ret`. -/
def makeRequest (k : Kind) (cause hold : ℕ) (ret : ℤ) : State :=
  let s : State := { s with
    requests := s.requests ++ [⟨k, hold, cause, s.now, hold ≤ s.released⟩] }
  if ret < 0 then { s with workPc := .failed k ret } else s.finish k

/-- The handler goes on. -/
def workRun (ret : ℤ) : Option State :=
  match s.workPc with
  | .idle => none
  | .started k cause => some (s.take k cause)
  | .cancelBonding cause hold =>
    some { s.cancel .bond with workPc := .request .reset cause hold }
  | .request k cause hold => some (s.makeRequest k cause hold ret)
  | .failed k err => some (finish { s with lastError := err } k)

/-- After `user_pairing_io_init`. -/
def boot : State :=
  { now := 0
    pressed := false
    holdGeneration := 0
    armed := fun _ => false
    lastError := 0
    work := fun _ => ⟨0, none, none, false⟩
    inputPc := .idle
    workPc := .idle
    presses := []
    released := 0
    requests := [] }

end State

/-- A debounced event, a step of a thread, or time. -/
inductive Action where
  | tick (ms : ℕ)
  | press
  | release
  /-- The input thread goes on; scheduling returns `ret`. -/
  | input (ret : ℤ)
  | expire (k : Kind)
  | start (k : Kind)
  /-- The handler goes on; a request returns `ret`. -/
  | work (ret : ℤ)
  deriving DecidableEq, Repr

namespace State

variable (cfg : Config) (s : State)

/-- One step. -/
def next : Action → Option State
  | .tick ms => some { s with now := s.now + ms }
  | .press => if s.inputPc = .idle then some s.press else none
  | .release => if s.inputPc = .idle then some s.release else none
  | .input ret => s.inputRun cfg ret
  | .expire k => s.expire k
  | .start k => s.start k
  | .work ret => s.workRun ret

/-- All runs. -/
def machine : Machine State Action := ⟨fun s => s = boot, next cfg⟩

end State

end UserPairingIo

end LeAudioReceiver
