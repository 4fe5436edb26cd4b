import LeAudioReceiver.Machine.Basic
import Mathlib.Algebra.Ring.Nat

/-!
# The raw HCI connect helper

A model of `ConnectSession`, `force_cancel` and the loops of `main` in `scripts/hci_raw_connect.py`,
beside the controller that answers.

The times are milliseconds of the monotonic clock.  A packet that does not parse, and a wait without
a packet, are the same here: `Input.nothing`.  The lines that are printed are left out.

The controller answers as HCI permits (`Controller.Permits`): one status for each attempt, one
connection-complete for each attempt whose status is `0`, one command-complete for each cancel; in
any order, with any other events between them.
-/

namespace LeAudioReceiver

namespace HciConnect

/-- `OP_LE_EXT_CREATE_CONN`. -/
def opLeExtCreateConn : ℕ := 0x2043

/-- `OP_LE_CREATE_CONN_CANCEL`. -/
def opLeCreateConnCancel : ℕ := 0x200E

/-- `FATAL_CMD_STATUS_CODES`. -/
def fatalCmdStatusCodes : List ℕ := [0x01, 0x03, 0x11, 0x12, 0x1E]

/-- An address with its type. -/
structure Peer where
  addr : List UInt8
  addrType : ℕ
  deriving DecidableEq

/-- What `parse_event` returns. -/
inductive Event where
  | cmdStatus (opcode status : ℕ)
  | cmdComplete (opcode : ℕ)
  | leConnComplete (status handle : ℕ) (peer : Peer)
  | disconnComplete (handle reason : ℕ)
  | unknown
  deriving DecidableEq

/-- The states of a session. -/
inductive State where
  | idle
  | pendingStatus
  | inProgress
  | cancelSent
  | connected
  deriving DecidableEq

/-- The result of a session. -/
inductive Result where
  | success (handle : ℕ)
  | fatalStatus (status : ℕ)
  | linkDown (handle reason : ℕ)
  deriving DecidableEq

/-- `result[1]`. -/
def Result.second : Result → ℕ
  | .success handle => handle
  | .fatalStatus status => status
  | .linkDown handle _ => handle

/-- The actions that a session returns. -/
inductive Action where
  | sendCmd (opcode : ℕ)
  | failedAttempt (status : ℕ)
  | fatalStatus (status : ℕ)
  | cancelled
  | cancelTimeout
  | success (handle : ℕ)
  | linkDown (handle reason : ℕ)
  deriving DecidableEq

/-- `ConnectSession`. -/
structure ConnectSession where
  peer : Peer
  attemptTimeout : ℕ
  state : State
  attempt : ℕ
  lastStatus : Option ℕ
  result : Option Result
  attemptStarted : ℕ
  cancelStarted : ℕ

namespace ConnectSession

/-- `ConnectSession.__init__`. -/
def init (peer : Peer) (attemptTimeout : ℕ) : ConnectSession :=
  ⟨peer, attemptTimeout, .idle, 0, none, none, 0, 0⟩

/-- `is_done`. -/
def isDone (s : ConnectSession) : Bool := s.result.isSome

/-- `begin_attempt`. -/
def beginAttempt (s : ConnectSession) (now : ℕ) : Action × ConnectSession :=
  (.sendCmd opLeExtCreateConn,
    { s with attempt := s.attempt + 1, state := .pendingStatus, attemptStarted := now })

/-- `handle_event` in state `pending_status`. -/
def onPendingStatus (s : ConnectSession) : Event → List Action × ConnectSession
  | .cmdStatus opcode status =>
    if opcode = opLeExtCreateConn then
      if status = 0 then ([], { s with state := .inProgress })
      else
        let s := { s with lastStatus := some status, state := .idle }
        if status ∈ fatalCmdStatusCodes then
          ([.fatalStatus status], { s with result := some (.fatalStatus status) })
        else ([.failedAttempt status], s)
    else ([], s)
  | _ => ([], s)

/-- `handle_event` in state `in_progress`. -/
def onInProgress (s : ConnectSession) : Event → List Action × ConnectSession
  | .leConnComplete status handle peer =>
    if peer = s.peer then
      if status = 0 then
        ([.success handle], { s with state := .connected, result := some (.success handle) })
      else ([.failedAttempt status], { s with lastStatus := some status, state := .idle })
    else ([], s)
  | _ => ([], s)

/-- `handle_event` in state `cancel_sent`. -/
def onCancelSent (s : ConnectSession) : Event → List Action × ConnectSession
  | .cmdStatus opcode _ | .cmdComplete opcode =>
    if opcode = opLeCreateConnCancel then ([.cancelled], { s with state := .idle }) else ([], s)
  | _ => ([], s)

/-- `handle_event` in state `connected`. -/
def onConnected (s : ConnectSession) : Event → List Action × ConnectSession
  | .disconnComplete handle reason =>
    if s.result.map Result.second = some handle then
      ([.linkDown handle reason], { s with result := some (.linkDown handle reason) })
    else ([], s)
  | _ => ([], s)

/-- `handle_event`. -/
def handleEvent (s : ConnectSession) (evt : Event) : List Action × ConnectSession :=
  match s.state with
  | .idle => ([], s)
  | .pendingStatus => s.onPendingStatus evt
  | .inProgress => s.onInProgress evt
  | .cancelSent => s.onCancelSent evt
  | .connected => s.onConnected evt

/-- The time since `started`. -/
def elapsed (now started : ℕ) : ℕ := if now ≥ started then now - started else now

/-- `handle_timeout`. -/
def handleTimeout (s : ConnectSession) (now : ℕ) : List Action × ConnectSession :=
  if s.state = .pendingStatus ∨ s.state = .inProgress then
    if elapsed now s.attemptStarted ≥ s.attemptTimeout then
      ([.sendCmd opLeCreateConnCancel], { s with state := .cancelSent, cancelStarted := now })
    else ([], s)
  else if s.state = .cancelSent then
    if elapsed now s.cancelStarted ≥ 2000 then ([.cancelTimeout], { s with state := .idle })
    else ([], s)
  else ([], s)

/-- `force_cancel`. -/
def forceCancel (s : ConnectSession) (now : ℕ) : List Action × ConnectSession :=
  if s.state = .pendingStatus ∨ s.state = .inProgress then
    ([.sendCmd opLeCreateConnCancel], { s with cancelStarted := now, state := .cancelSent })
  else ([], s)

end ConnectSession

/-! ### The controller -/

/-- What the controller has answered to an attempt. -/
structure Attempt where
  status : Option ℕ
  completed : Bool
  deriving DecidableEq

/-- The attempts that were started, and the cancels without an answer. -/
structure Controller where
  attempts : List Attempt
  cancels : ℕ

/-- An event of the controller, with the attempt that it is about (counted from `0`). -/
inductive Packet where
  | status (i status : ℕ)
  | completed (i status handle : ℕ)
  | cancelled
  | other (evt : Event)
  deriving DecidableEq

/-- The event of a packet: it does not name the attempt. -/
def Packet.event (peer : Peer) : Packet → Event
  | .status _ st => .cmdStatus opLeExtCreateConn st
  | .completed _ st handle => .leConnComplete st handle peer
  | .cancelled => .cmdComplete opLeCreateConnCancel
  | .other evt => evt

/-- Events that answer neither an attempt nor a cancel. -/
def Event.Unrelated (peer : Peer) : Event → Prop
  | .cmdStatus opcode _ => opcode ≠ opLeExtCreateConn ∧ opcode ≠ opLeCreateConnCancel
  | .cmdComplete opcode => opcode ≠ opLeCreateConnCancel
  | .leConnComplete _ _ p => p ≠ peer
  | _ => True

instance Event.decidableUnrelated (peer : Peer) :
    ∀ evt : Event, Decidable (evt.Unrelated peer)
  | .cmdStatus _ _ => inferInstanceAs (Decidable (_ ∧ _))
  | .cmdComplete _ => inferInstanceAs (Decidable (_ ≠ _))
  | .leConnComplete _ _ _ => inferInstanceAs (Decidable (_ ≠ _))
  | .disconnComplete _ _ => .isTrue trivial
  | .unknown => .isTrue trivial

namespace Controller

/-- What the controller may send. -/
def Permits (c : Controller) (peer : Peer) : Packet → Prop
  | .status i _ => c.attempts[i]? = some ⟨none, false⟩
  | .completed i _ _ => c.attempts[i]? = some ⟨some 0, false⟩
  | .cancelled => 0 < c.cancels
  | .other evt => evt.Unrelated peer

instance decidablePermits (c : Controller) (peer : Peer) : ∀ p, Decidable (c.Permits peer p)
  | .status i _ => inferInstanceAs (Decidable (c.attempts[i]? = _))
  | .completed i _ _ => inferInstanceAs (Decidable (c.attempts[i]? = _))
  | .cancelled => inferInstanceAs (Decidable (0 < c.cancels))
  | .other evt => inferInstanceAs (Decidable (evt.Unrelated peer))

/-- A packet has been sent. -/
def send (c : Controller) : Packet → Controller
  | .status i status => { c with attempts := c.attempts.set i ⟨some status, false⟩ }
  | .completed i _ _ => { c with attempts := c.attempts.set i ⟨some 0, true⟩ }
  | .cancelled => { c with cancels := c.cancels - 1 }
  | .other _ => c

/-- The commands among some actions. -/
def dispatch (c : Controller) (actions : List Action) : Controller :=
  actions.foldl (fun c action =>
    if action = .sendCmd opLeExtCreateConn then { c with attempts := c.attempts ++ [⟨none, false⟩] }
    else if action = .sendCmd opLeCreateConnCancel then { c with cancels := c.cancels + 1 }
    else c) c

end Controller

/-! ### The loops of `main` -/

/-- Where `main` is: at the head of its loop, waiting for a packet, waiting for the answer of the
last cancel, holding the link, or done. -/
inductive Phase where
  | head
  | select
  | cancelWait
  | hold
  | returned (code : ℕ)
  deriving DecidableEq

/-- What `main` sees next. -/
inductive Input where
  /-- The head of the loop; the clock is read up to three times. -/
  | head (t now begun : ℕ)
  | nothing
  | packet (p : Packet)
  | socketError
  | timeUp
  deriving DecidableEq

/-- What happened; `charged` is the attempt that a completion has ended in the session. -/
inductive Entry where
  | began (i : ℕ)
  | status (i status : ℕ)
  | completed (i status handle : ℕ) (charged : Option ℕ)
  deriving DecidableEq

/-- `main` with its session, the controller, and a record of what happened. -/
structure Main where
  session : ConnectSession
  deadline : ℕ
  phase : Phase
  controller : Controller
  log : List Entry

namespace Main

/-- `backoff_until`. -/
def backoffUntil : ℕ := 0

/-- `main` when its loop starts. -/
def init (peer : Peer) (attemptTimeout deadline : ℕ) : Main :=
  ⟨.init peer attemptTimeout, deadline, .head, ⟨[], 0⟩, []⟩

/-- The attempt that a session charges with a failure. -/
def charged (s : ConnectSession) (actions : List Action) : Option ℕ :=
  if actions.any (fun | .failedAttempt _ => true | _ => false) then some (s.attempt - 1) else none

/-- A packet is handled. -/
def receive (m : Main) (p : Packet) : List Action × Main :=
  let r := m.session.handleEvent (p.event m.session.peer)
  (r.1, { m with
    session := r.2
    controller := m.controller.send p
    log := m.log ++ match p with
      | .status i status => [.status i status]
      | .completed i status handle => [.completed i status handle (charged m.session r.1)]
      | _ => [] })

/-- The head of the loop while the session runs: the timeout, and the next attempt. -/
def iterate (m : Main) (now begun : ℕ) : Main :=
  let r := m.session.handleTimeout now
  let m := { m with session := r.2, controller := m.controller.dispatch r.1, phase := .select }
  if m.session.state = .idle ∧ m.session.isDone = false ∧ now ≥ backoffUntil then
    let r := m.session.beginAttempt begun
    { m with
        session := r.2
        controller := m.controller.dispatch [r.1]
        log := m.log ++ [.began m.controller.attempts.length] }
  else m

/-- Behind the loop: the link is held, or the attempt in flight is cancelled. -/
def leave (m : Main) (now : ℕ) : Main :=
  match m.session.result with
  | some (.success _) => { m with phase := .hold }
  | _ =>
    if m.session.state = .pendingStatus ∨ m.session.state = .inProgress then
      let r := m.session.forceCancel now
      { m with session := r.2, controller := m.controller.dispatch r.1, phase := .cancelWait }
    else { m with phase := .returned 1 }

/-- One step of `main`. -/
def next (m : Main) : Input → Option Main
  | .head t now begun =>
    if m.phase ≠ .head then none
    else if t < m.deadline ∧ m.session.isDone = false then some (m.iterate now begun)
    else some (m.leave now)
  | .nothing =>
    match m.phase with
    | .select => some { m with phase := .head }
    | .cancelWait | .hold => some m
    | _ => none
  | .packet p =>
    if m.controller.Permits m.session.peer p then
      let r := m.receive p
      match m.phase with
      | .select => some { r.2 with phase := .head }
      | .cancelWait =>
        some { r.2 with
          phase := if r.2.session.state = .cancelSent then .cancelWait else .returned 1 }
      | .hold =>
        some { r.2 with
          phase := if r.1.any (fun | .linkDown _ _ => true | _ => false) then .returned 0
            else .hold }
      | _ => none
    else none
  | .socketError =>
    match m.phase with
    | .select | .cancelWait => some { m with phase := .returned 1 }
    | .hold => some { m with phase := .returned 0 }
    | _ => none
  | .timeUp =>
    match m.phase with
    | .cancelWait => some { m with phase := .returned 1 }
    | .hold => some { m with phase := .returned 0 }
    | _ => none

/-- The runs of `main`, for one peer. -/
def machine (peer : Peer) : Machine Main Input where
  init m := ∃ attemptTimeout deadline, m = init peer attemptTimeout deadline
  next := next

end Main

end HciConnect

end LeAudioReceiver
