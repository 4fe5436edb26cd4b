import LeAudioReceiver.Machine.Basic
import Mathlib.Data.Finset.Insert

/-!
# The pairing controller

A model of `src/pairing_mode.c`, the owner of the modes NORMAL, BONDING and RESETTING.  Requests
and notifications set bits of a pending mask; one work-queue thread takes the whole mask and works
through its bits in a fixed order (`step`), and two delayed works blink the LED and end the reset
feedback.  Every side effect is an injected operation: a function of an arbitrary world that
returns an errno, so that any sequence of results can occur.

A function of the source that leaves early on a failed operation is written with `attempt`, which
hands the rest of the function to the operation.  Pending events form a set of known events, so
the check for unknown bits has no counterpart; the operation code that a fatal logs is left out.

The controller also keeps a log (newest entry first) of the operations and of the few internal
events that later statements speak about.
-/

namespace LeAudioReceiver

namespace Pairing

/-- `enum pairing_mode`. -/
inductive Mode where
  | normal
  | bonding
  | resetting
  deriving DecidableEq, Repr

/-- `enum pairing_mode_phase`. -/
inductive Phase where
  | uninitialized
  | idle
  | waitDisconnectForBonding
  | waitDisconnectForReset
  | resetFeedback
  | fatal
  deriving DecidableEq, Repr

/-- `enum pairing_access_mode`. -/
inductive AccessMode where
  | normal
  | bonding
  | suspended
  deriving DecidableEq, Repr

/-- The bits of the pending mask. -/
inductive Event where
  | start
  | bonding
  | reset
  | resetSync
  | connected
  | disconnected
  | pairingComplete
  | pairingFailed
  | securityChanged
  deriving DecidableEq, Repr

/-- The two delayed works. -/
inductive Work where
  | blink
  | feedback
  deriving DecidableEq, Repr

/-- `struct pairing_mode_ops`, and the scheduling of a delayed work. -/
inductive Op where
  | setAccessMode (mode : AccessMode)
  | advertisingSuspend
  | advertisingStart
  | disconnectPeer
  | deleteAllBonds
  | requestSecurity
  | ledSet (active : Bool)
  | coldReboot
  | schedule (w : Work)
  deriving DecidableEq, Repr

/-- What an operation returns; only `disconnect_peer` reports a pending disconnect. -/
structure Reply where
  ret : ℤ
  pending : Bool
  deriving DecidableEq, Repr

/-- The injected operations on a world. -/
abbrev Exec (W : Type*) := Op → W → Reply × W

/-- Entries of the log. -/
inductive Entry where
  /-- An operation was called. -/
  | op (o : Op) (r : Reply)
  /-- A reset was initiated. -/
  | initiated
  /-- A bonding request was taken up. -/
  | bonding
  /-- A disconnect was consumed. -/
  | disconnected
  /-- The reset feedback ended. -/
  | expiry
  /-- The synchronous waiters were signalled. -/
  | syncDone
  deriving DecidableEq, Repr

/-- `struct pairing_mode_status`. -/
structure Status where
  mode : Mode
  phase : Phase
  accessMode : AccessMode
  generation : UInt32
  connected : Bool
  ledActive : Bool
  fatal : Bool
  deriving DecidableEq, Repr

/-- The blink work with the generation it was scheduled for. -/
structure BlinkWork where
  pending : Bool
  gen : UInt32
  rapid : Bool
  toggles : ℕ
  deriving DecidableEq, Repr

/-- The reset-feedback work. -/
structure FeedbackWork where
  pending : Bool
  gen : UInt32
  deriving DecidableEq, Repr

/-- The controller. -/
structure Ctl (W : Type*) where
  status : Status
  started : Bool
  resetTransition : Bool
  /-- `g_fatal`. -/
  fatal : Bool
  pairingCompleteBonded : Bool
  securitySuccess : Bool
  securityBonded : Bool
  blink : BlinkWork
  feedback : FeedbackWork
  /-- Everything behind the operations. -/
  world : W
  /-- What happened, newest first. -/
  log : List Entry

/-- `RESET_RAPID_TOGGLES` at the default timing. -/
def resetRapidToggles : ℕ := 9

section Controller

variable {W : Type*} (exec : Exec W)

namespace Ctl

/-- A log entry. -/
def note (c : Ctl W) (e : Entry) : Ctl W := { c with log := e :: c.log }

/-- Calling an operation. -/
def call (c : Ctl W) (o : Op) : Reply × Ctl W :=
  let r := exec o c.world
  (r.1, { c with world := r.2, log := .op o r.1 :: c.log })

/-- `fatal_finalize`: once, then never again. -/
def fatalFinalize (c : Ctl W) : Ctl W :=
  if c.fatal then c
  else
    let c := { c with fatal := true, status.fatal := true, status.phase := .fatal }
    let c := (c.call exec (.ledSet false)).2
    (c.call exec .coldReboot).2

/-- An operation whose failure is fatal, with the code behind it. -/
def attempt (o : Op) (k : Reply → Ctl W → Ctl W) (c : Ctl W) : Ctl W :=
  let r := c.call exec o
  if r.1.ret < 0 then r.2.fatalFinalize exec else k r.1 r.2

/-- `led_set_active`, with the code behind it. -/
def ledSetActive (active : Bool) (k : Ctl W → Ctl W) (c : Ctl W) : Ctl W :=
  c.attempt exec (.ledSet active) fun _ c => k { c with status.ledActive := active }

/-- Cancelling the blink work and scheduling it anew, with the code behind it. -/
def restartBlink (rapid : Bool) (k : Ctl W → Ctl W) (c : Ctl W) : Ctl W :=
  let c := { c with
    blink := { pending := false, gen := c.status.generation, rapid := rapid, toggles := 0 } }
  c.attempt exec (.schedule .blink) fun _ c => k { c with blink.pending := true }

/-- `status_bump_generation`. -/
def bumpGeneration (c : Ctl W) : Ctl W :=
  { c with status.generation := c.status.generation + 1 }

/-! ### Transitions -/

/-- `finish_bonding_entry`. -/
def finishBondingEntry (c : Ctl W) : Ctl W :=
  c.attempt exec (.setAccessMode .bonding) fun _ c =>
    let c := { c with status.mode := .bonding, status.accessMode := .bonding }
    c.ledSetActive exec true fun c =>
      c.restartBlink exec false fun c =>
        c.attempt exec .advertisingStart fun _ c => { c with status.phase := .idle }

/-- `start_reset_feedback`. -/
def startResetFeedback (c : Ctl W) : Ctl W :=
  c.attempt exec .deleteAllBonds fun _ c =>
    let c := { c with status.mode := .resetting, status.phase := .resetFeedback }
    c.ledSetActive exec true fun c =>
      c.restartBlink exec true fun c =>
        let c := { c with feedback.gen := c.status.generation }
        c.attempt exec (.schedule .feedback) fun _ c => { c with feedback.pending := true }

/-- `do_start`. -/
def doStart (c : Ctl W) : Ctl W :=
  c.attempt exec (.setAccessMode .normal) fun _ c =>
    let c := { c with status.mode := .normal, status.accessMode := .normal }
    c.ledSetActive exec false fun c =>
      c.attempt exec .advertisingStart fun _ c => { c with status.phase := .idle, started := true }

/-- `do_bonding`. -/
def doBonding (c : Ctl W) : Ctl W :=
  c.attempt exec .advertisingSuspend fun _ c =>
    c.attempt exec (.setAccessMode .suspended) fun _ c =>
      c.attempt exec .disconnectPeer fun r c =>
        let c := { c with status.mode := .bonding, resetTransition := false }
        if r.pending then { c with status.phase := .waitDisconnectForBonding }
        else c.finishBondingEntry exec

/-- A reset is in progress. -/
def resetInProgress (c : Ctl W) : Bool :=
  c.status.phase == .waitDisconnectForReset || c.status.phase == .resetFeedback

/-- `do_reset`: a reset that is already in progress is joined. -/
def doReset (c : Ctl W) : Ctl W :=
  if c.resetInProgress then c
  else
    (c.bumpGeneration.note .initiated).attempt exec .advertisingSuspend fun _ c =>
      c.attempt exec (.setAccessMode .suspended) fun _ c =>
        c.attempt exec .disconnectPeer fun r c =>
          let c := { c with
            status.mode := .resetting, status.accessMode := .suspended, resetTransition := true }
          if r.pending then { c with status.phase := .waitDisconnectForReset }
          else c.startResetFeedback exec

/-- `do_complete_to_normal`: the connection stays, advertising is not touched. -/
def doCompleteToNormal (c : Ctl W) : Ctl W :=
  let c := { c with blink.pending := false }
  c.attempt exec (.setAccessMode .normal) fun _ c =>
    let c := { c with status.mode := .normal, status.accessMode := .normal }
    c.ledSetActive exec false id

end Ctl

/-! ### One pass over a mask -/

/-- The parts of `step`, in the order of the source. -/
inductive Stage where
  | entry
  | reset
  | bonding
  | connected
  | disconnected
  | pairingComplete
  | securityChanged
  | start
  deriving DecidableEq, Repr

/-- All parts. -/
def Stage.all : List Stage :=
  [.entry, .reset, .bonding, .connected, .disconnected, .pairingComplete, .securityChanged, .start]

namespace Ctl

/-- Mode BONDING, phase IDLE. -/
def bondingIdle (c : Ctl W) : Bool := c.status.mode == .bonding && c.status.phase == .idle

/-- Mode NORMAL, phase IDLE. -/
def normalIdle (c : Ctl W) : Bool := c.status.mode == .normal && c.status.phase == .idle

/-- Before a start every event but START is discarded. -/
def stageEntry (c : Ctl W) (ev : Finset Event) : Ctl W × Bool :=
  if ¬ c.started then (if .start ∈ ev then c.doStart exec else c, false) else (c, true)

/-- RESET supersedes everything else in the mask. -/
def stageReset (c : Ctl W) (ev : Finset Event) : Ctl W × Bool :=
  if .reset ∈ ev ∨ .resetSync ∈ ev then (c.doReset exec, false) else (c, true)

/-- BONDING; dropped during a reset and when it is already reached. -/
def stageBonding (c : Ctl W) (ev : Finset Event) : Ctl W × Bool :=
  if .bonding ∈ ev then
    if c.resetInProgress then (c, true)
    else if c.bondingIdle ∧ ¬ c.status.connected then (c, true)
    else
      let c := (c.bumpGeneration.note .bonding).doBonding exec
      (c, !c.fatal)
  else (c, true)

/-- CONNECTED; in a phase that waits, the connection is stale. -/
def stageConnected (c : Ctl W) (ev : Finset Event) : Ctl W × Bool :=
  if .connected ∈ ev then
    let c := { c with status.connected := true }
    let c :=
      if c.bondingIdle then c.attempt exec .requestSecurity fun _ c => c
      else if c.normalIdle then c
      else
        c.attempt exec .advertisingSuspend fun _ c =>
          c.attempt exec .disconnectPeer fun _ c => c
    (c, !c.fatal)
  else (c, true)

/-- DISCONNECTED: ends a wait, or restarts advertising after a real connection. -/
def stageDisconnected (c : Ctl W) (ev : Finset Event) : Ctl W × Bool :=
  if .disconnected ∈ ev then
    let wasConnected := c.status.connected
    let c := { c with status.connected := false }.note .disconnected
    let c :=
      if c.status.phase = .waitDisconnectForBonding then c.finishBondingEntry exec
      else if c.status.phase = .waitDisconnectForReset then c.startResetFeedback exec
      else if ¬ wasConnected then c
      else if c.normalIdle ∨ c.bondingIdle then
        c.attempt exec .advertisingStart fun _ c => c
      else c
    (c, !c.fatal)
  else (c, true)

/-- PAIRING_COMPLETE: a bonded completion in BONDING/IDLE ends in NORMAL. -/
def stagePairingComplete (c : Ctl W) (ev : Finset Event) : Ctl W × Bool :=
  if .pairingComplete ∈ ev ∧ c.pairingCompleteBonded ∧ c.bondingIdle then
    let c := c.doCompleteToNormal exec
    (c, !c.fatal)
  else (c, true)

/-- SECURITY_CHANGED: so does success with a bonded peer. -/
def stageSecurityChanged (c : Ctl W) (ev : Finset Event) : Ctl W × Bool :=
  if .securityChanged ∈ ev ∧ c.securitySuccess ∧ c.securityBonded ∧ c.bondingIdle then
    let c := c.doCompleteToNormal exec
    (c, !c.fatal)
  else (c, true)

/-- START after everything else. -/
def stageStart (c : Ctl W) (ev : Finset Event) : Ctl W × Bool :=
  if .start ∈ ev ∧ ¬ c.started then
    let c := c.doStart exec
    (c, !c.fatal)
  else (c, true)

/-- One part of `step`; the flag tells whether the next one follows. -/
def stage (c : Ctl W) (ev : Finset Event) : Stage → Ctl W × Bool
  | .entry => c.stageEntry exec ev
  | .reset => c.stageReset exec ev
  | .bonding => c.stageBonding exec ev
  | .connected => c.stageConnected exec ev
  | .disconnected => c.stageDisconnected exec ev
  | .pairingComplete => c.stagePairingComplete exec ev
  | .securityChanged => c.stageSecurityChanged exec ev
  | .start => c.stageStart exec ev

/-- The given parts of `step`. -/
def stages (c : Ctl W) (ev : Finset Event) : List Stage → Ctl W
  | [] => c
  | st :: sts =>
    let r := c.stage exec ev st
    if r.2 then stages r.1 ev sts else r.1

/-- `step`: one pass over a mask. -/
def step (c : Ctl W) (ev : Finset Event) : Ctl W := c.stages exec ev Stage.all

/-! ### Delayed works -/

/-- `blink_handler`. -/
def blinkHandler (c : Ctl W) : Ctl W :=
  if c.fatal then c
  else if c.blink.gen ≠ c.status.generation then c
  else if c.blink.rapid then
    if c.status.phase ≠ .resetFeedback then c
    else
      c.ledSetActive exec (!c.status.ledActive) fun c =>
        let c := { c with blink.toggles := c.blink.toggles + 1 }
        if c.blink.toggles < resetRapidToggles then
          c.attempt exec (.schedule .blink) fun _ c => { c with blink.pending := true }
        else c
  else if ¬ c.bondingIdle then c
  else
    c.ledSetActive exec (!c.status.ledActive) fun c =>
      c.attempt exec (.schedule .blink) fun _ c => { c with blink.pending := true }

/-- `feedback_handler`. -/
def feedbackHandler (c : Ctl W) : Ctl W :=
  if c.fatal then c
  else if c.feedback.gen ≠ c.status.generation then c
  else if c.status.phase ≠ .resetFeedback then c
  else
    let c := ({ c with blink.pending := false }.note .expiry).finishBondingEntry exec
    if c.fatal then c else c.note .syncDone

end Ctl

end Controller

end Pairing

end LeAudioReceiver
