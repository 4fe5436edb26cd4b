import LeAudioReceiver.Pairing.Run
import Mathlib.Logic.Function.Basic

/-!
# The synchronous reset

`pairing_mode_request_reset_sync` publishes an event object on the stack of its caller in the one
waiter slot, enqueues a reset, waits for the event or a timeout, and clears the slot again.  The
feedback handler ends a reset with `post_sync_done`, which reads the slot under the lock and posts
the event after it has released the lock.

The machine of this file runs the controller beside any number of calls, each with its own event.
The steps of a call, and the two halves of `post_sync_done` on the work thread, interleave freely.
A call keeps the log of the moment it registered, for the statements about it; nothing reads it.
-/

namespace LeAudioReceiver

namespace Pairing

/-- What a call of `pairing_mode_request_reset_sync` returns. -/
inductive SyncRet where
  | ok
  | timedOut
  | busy
  | canceled
  deriving DecidableEq, Repr

/-- Where a call is. -/
inductive CallPc where
  | called
  | registered
  | waiting
  /-- `k_event_wait` has returned, with the bit or without. -/
  | woken (got : Bool)
  | deregistered (got : Bool)
  | returned (ret : SyncRet)
  deriving DecidableEq, Repr

/-- A call of `pairing_mode_request_reset_sync`. -/
structure Call where
  pc : CallPc
  /-- `SYNC_DONE_BIT` of its event. -/
  done : Bool
  /-- The log when it registered. -/
  since : List Entry

/-- Where the work thread is in `post_sync_done`. -/
inductive PostPc where
  | idle
  /-- Before the waiter is read. -/
  | read
  /-- The waiter was read, its event is not posted yet. -/
  | post (waiter : Option ℕ)
  deriving DecidableEq, Repr

/-- The controller, the waiter slot and the calls. -/
structure SyncSys (W : Type*) where
  sys : Sys W
  /-- `g_sync_waiter`, while `g_sync_active`. -/
  slot : Option ℕ
  post : PostPc
  calls : ℕ → Call

/-- What can happen next. -/
inductive SyncAction where
  | ctl (a : Action)
  | register (n : ℕ)
  | enqueue (n : ℕ)
  | wake (n : ℕ)
  | timeout (n : ℕ)
  | deregister (n : ℕ)
  | ret (n : ℕ)
  | readWaiter
  | postWaiter
  deriving DecidableEq, Repr

/-- The steps of the work thread. -/
def Action.onWorkThread : Action → Bool
  | .input _ => false
  | _ => true

section SyncReset

variable {W : Type*} (exec : Exec W) (arrive : Input → W → W)

/-- The feedback handler goes on to `post_sync_done`. -/
def Ctl.signals (c : Ctl W) : Bool :=
  !c.fatal && c.feedback.gen == c.status.generation && c.status.phase == .resetFeedback &&
    !(({ c with blink.pending := false }.note .expiry).finishBondingEntry exec).fatal

namespace SyncSys

/-- An update of one call. -/
def setCall (s : SyncSys W) (n : ℕ) (c : Call) : SyncSys W :=
  { s with calls := Function.update s.calls n c }

/-- One step of the machine. -/
def next (s : SyncSys W) : SyncAction → Option (SyncSys W)
  | .ctl a =>
    if a.onWorkThread ∧ s.post ≠ .idle then none
    else
      (s.sys.next exec arrive a).map fun sys => { s with
        sys := sys
        post := if a = .feedback ∧ { s.sys.ctl with feedback.pending := false }.signals exec
          then .read else s.post }
  | .register n =>
    let c := s.calls n
    if c.pc ≠ .called then none
    else if s.slot.isSome then some (s.setCall n { c with pc := .returned .busy })
    else if s.sys.ctl.fatal then some (s.setCall n { c with pc := .returned .canceled })
    else some { s.setCall n ⟨.registered, false, s.sys.ctl.log⟩ with slot := some n }
  | .enqueue n =>
    if (s.calls n).pc = .registered then
      some { s.setCall n { s.calls n with pc := .waiting } with
        sys := { s.sys with pending := insert .resetSync s.sys.pending } }
    else none
  | .wake n =>
    if (s.calls n).pc = .waiting ∧ (s.calls n).done then
      some (s.setCall n { s.calls n with pc := .woken true })
    else none
  | .timeout n =>
    if (s.calls n).pc = .waiting ∧ ¬ (s.calls n).done then
      some (s.setCall n { s.calls n with pc := .woken false })
    else none
  | .deregister n =>
    match (s.calls n).pc with
    | .woken got =>
      some { s.setCall n { s.calls n with pc := .deregistered got } with slot := none }
    | _ => none
  | .ret n =>
    match (s.calls n).pc with
    | .deregistered got =>
      some (s.setCall n { s.calls n with pc := .returned (if got then .ok else .timedOut) })
    | _ => none
  | .readWaiter => if s.post = .read then some { s with post := .post s.slot } else none
  | .postWaiter =>
    match s.post with
    | .post none => some { s with post := .idle }
    | .post (some n) =>
      some { s.setCall n { s.calls n with done := true } with post := .idle }
    | _ => none

/-- The machine; no call has been made yet. -/
def machine (start : W → Prop) : Machine (SyncSys W) SyncAction where
  init s := ∃ w, start w ∧
    s = ⟨⟨Ctl.init w, ∅, [], ∅⟩, none, .idle, fun _ => ⟨.called, false, []⟩⟩
  next := next exec arrive

end SyncSys

end SyncReset

/-! ### Resets in the log -/

/-- A reset was initiated, and its end is not in the log yet. -/
def inProgress : List Entry → Bool
  | [] => false
  | .initiated :: _ => true
  | .syncDone :: _ => false
  | _ :: log => inProgress log

end Pairing

end LeAudioReceiver
