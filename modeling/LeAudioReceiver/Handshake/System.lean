import LeAudioReceiver.Handshake.Peer
import LeAudioReceiver.Machine.Basic

/-!
# The handshake with the remote core

`src/flpr_handshake.c` with everything that shares its peer: the receive callback of the endpoint
(`ep_received`), which handles one message at a time, the periodic heartbeat work (`hb_work_fn`),
the loss of the endpoint (`ep_unbound`), and the thread that holds the restart mutex and closes,
reopens and awaits sessions.  Each section under `flpr_lock`, each send, each use of the semaphore
and each sample of the clock is one step, and the steps of the contexts interleave freely.

Left out are the texts of the log, the contents of the messages sent, and `bound_sem`, which no
function here reads.  A loop that takes a semaphore until it is empty is one step, that of its
last attempt.

`Sys.Step` has one constructor for each way in which a step can go (`step_of_next`).
-/

namespace LeAudioReceiver

namespace Handshake

/-! ### Contexts -/

/-- The receive callback.  A time is in milliseconds since boot; the code keeps its low 32 bits. -/
inductive RxPc where
  | idle
  /-- The clock is sampled. -/
  | entered (m : Msg) (len : ℕ) (nowMs : ℕ)
  | validated (m : Msg) (nowMs : ℕ)
  /-- READY is handled and READY_ACK is being sent. -/
  | acking (epoch : UInt32) (giveNewReady startHb : Bool)
  /-- READY_ACK was sent. -/
  | acked (epoch : UInt32) (giveNewReady startHb : Bool)
  | ackFailed (startHb : Bool)
  /-- What is left to do after READY_ACK. -/
  | finishing (giveNewReady startHb : Bool)
  /-- HEARTBEAT_ACK is being sent. -/
  | echoing
  | echoFailed
  deriving DecidableEq

/-- The heartbeat work. -/
inductive WorkPc where
  | idle
  /-- The peer is acknowledged, and its health was read. -/
  | begun (wasHealthy : Bool)
  /-- The clock is sampled and HEARTBEAT is being sent. -/
  | sending (wasHealthy : Bool) (nowMs : ℕ)
  | sent (wasHealthy : Bool) (nowMs : ℕ)
  | sendFailed
  /-- The health callback is about to be called, outside the lock. -/
  | calling
  /-- Before the reschedule. -/
  | ending
  deriving DecidableEq

/-- The thread that restarts the remote core. -/
inductive CtlPc where
  | idle
  /-- `flpr_handshake_disconnect`: the session is closed. -/
  | closing
  /-- The heartbeat work is cancelled. -/
  | closed
  /-- `flpr_handshake_reconnect`: the semaphores are drained. -/
  | admitting
  /-- The session is admitted and the endpoint is being registered. -/
  | registering
  /-- The registration failed. -/
  | failing
  /-- The session is closed again. -/
  | rolledBack
  | draining
  /-- `flpr_handshake_wait_new_ready` waits for the semaphore. -/
  | waiting (previousEpoch : UInt32)
  /-- `flpr_handshake_wait_new_ready` will return `0`. -/
  | succeeding (previousEpoch : UInt32)
  deriving DecidableEq

/-- The state of the module and of the contexts that run in it. -/
structure Sys where
  peer : Peer
  /-- False between disconnect and reconnect. -/
  sessionAvailable : Bool
  hbStarted : Bool
  /-- The count of `new_ready_sem`, at most one. -/
  newReadySem : Bool
  /-- The heartbeat work is pending. -/
  hbScheduled : Bool
  /-- The endpoint is registered. -/
  registered : Bool
  /-- A health callback is registered. -/
  healthCb : Bool
  rx : RxPc
  work : WorkPc
  ctl : CtlPc
  /-- Milliseconds since boot. -/
  clock : ℕ

/-- The atomic steps. -/
inductive Action where
  | rxEnter (m : Msg) (len : ℕ)
  | rxValidate
  | rxHandle
  | rxSend (sent : Bool)
  | rxRecord
  | rxFinish
  | workBegin
  | workSample
  | workSend (sent : Bool)
  | workRecord
  | workCheck
  | workCall
  | workReschedule
  | disconnect
  /-- `k_work_cancel_delayable_sync`, which waits for the work to end. -/
  | cancel
  | deregister (done : Bool)
  | reconnect
  | makeAvailable
  /-- The endpoint is installed, while `ipc_service_register_endpoint` still runs. -/
  | install
  | register (done : Bool)
  | rollback
  | drain
  | wait (previousEpoch : UInt32)
  | take
  | timeout
  | epBound
  | epUnbound
  | elapse (ms : ℕ)
  deriving DecidableEq

namespace Sys

/-! ### The receive callback -/

/-- The section of `ep_received` for READY. -/
def handleReady (s : Sys) (epoch : UInt32) : Sys :=
  let isNewEpoch := (peerHandleReady s.peer epoch).2
  let startHbNow := s.sessionAvailable && !s.hbStarted
  { s with
    peer := (peerHandleReady s.peer epoch).1
    hbStarted := s.hbStarted || startHbNow
    rx := .acking epoch (isNewEpoch && s.sessionAvailable) startHbNow }

/-- What a heartbeat does to the peer. -/
def heartbeatPeer (p : Peer) (seq : UInt16) (nowMs : ℕ) : Peer :=
  (peerCheckHealth (peerRxSeq p seq (UInt32.ofNat nowMs)) (UInt32.ofNat nowMs)).1

/-- The section of `ep_received` for HEARTBEAT. -/
def handleHeartbeat (s : Sys) (seq : UInt16) (nowMs : ℕ) : Sys :=
  let peer := heartbeatPeer s.peer seq nowMs
  { s with peer := peer, rx := if peer.acked then .echoing else .idle }

/-- The `switch` of `ep_received`. -/
def handle (s : Sys) (m : Msg) (nowMs : ℕ) : Sys :=
  if m.type = msgReady then s.handleReady m.data
  else if m.type = msgHeartbeat then s.handleHeartbeat m.seq nowMs
  else if m.type = msgHeartbeatAck then
    { s with peer := peerHandleHeartbeatAck s.peer m.seq, rx := .idle }
  else if m.type = msgStressPing ∨ m.type = msgReadyAck ∨ m.type ∈ handlerMessages then
    { s with rx := .idle }
  else { s with peer := { s.peer with errUnknown := s.peer.errUnknown + 1 }, rx := .idle }

/-- A failed send. -/
def noteSendFailure (s : Sys) : Sys :=
  { s with peer := { s.peer with errSend := s.peer.errSend + 1 } }

/-- The steps of `ep_received`. -/
def rxNext (s : Sys) : Action → Option Sys
  | .rxEnter m len =>
    if s.rx = .idle ∧ s.registered then some { s with rx := .entered m len s.clock } else none
  | .rxValidate =>
    match s.rx with
    | .entered m len nowMs =>
      match msgValidate m len s.peer with
      | (peer, true) => some { s with peer := peer, rx := .validated m nowMs }
      | (peer, false) => some { s with peer := peer, rx := .idle }
    | _ => none
  | .rxHandle =>
    match s.rx with
    | .validated m nowMs => some (s.handle m nowMs)
    | _ => none
  | .rxSend sent =>
    match s.rx with
    | .acking epoch giveNewReady startHb =>
      some { s with rx := if sent then .acked epoch giveNewReady startHb else .ackFailed startHb }
    | .echoing => some { s with rx := if sent then .idle else .echoFailed }
    | _ => none
  | .rxRecord =>
    match s.rx with
    | .acked _ giveNewReady startHb =>
      some { s with peer := { s.peer with acked := true }, rx := .finishing giveNewReady startHb }
    | .ackFailed startHb => some { s.noteSendFailure with rx := .finishing false startHb }
    | .echoFailed => some { s.noteSendFailure with rx := .idle }
    | _ => none
  | .rxFinish =>
    match s.rx with
    -- the semaphore only after READY_ACK, the work at the very end
    | .finishing true startHb => some { s with newReadySem := true, rx := .finishing false startHb }
    | .finishing false startHb =>
      some { s with hbScheduled := s.hbScheduled || startHb, rx := .idle }
    | _ => none
  | _ => none

/-! ### The heartbeat work -/

/-- The section of `hb_work_fn` behind the send. -/
def check (s : Sys) (wasHealthy : Bool) (nowMs : ℕ) : Sys :=
  let peer := (peerCheckHealth { s.peer with txSeq := s.peer.txSeq + 1 } (UInt32.ofNat nowMs)).1
  { s with
    peer := peer
    work := if wasHealthy && !peer.healthy && s.healthCb then .calling else .ending }

/-- The steps of `hb_work_fn`. -/
def workNext (s : Sys) : Action → Option Sys
  | .workBegin =>
    if s.work = .idle ∧ s.hbScheduled then
      some { s with
        hbScheduled := false
        work := if s.peer.acked && s.sessionAvailable then .begun s.peer.healthy else .ending }
    else none
  | .workSample =>
    match s.work with
    | .begun wasHealthy => some { s with work := .sending wasHealthy s.clock }
    | _ => none
  | .workSend sent =>
    match s.work with
    | .sending wasHealthy nowMs =>
      some { s with work := if sent then .sent wasHealthy nowMs else .sendFailed }
    | _ => none
  | .workRecord =>
    match s.work with
    | .sendFailed => some { s.noteSendFailure with work := .ending }
    | _ => none
  | .workCheck =>
    match s.work with
    | .sent wasHealthy nowMs => some (s.check wasHealthy nowMs)
    | _ => none
  | .workCall =>
    match s.work with
    | .calling => some { s with work := .ending }
    | _ => none
  | .workReschedule =>
    match s.work with
    | .ending => some { s with hbScheduled := true, work := .idle }
    | _ => none
  | _ => none

/-! ### Sessions -/

/-- The steps of `flpr_handshake_disconnect`, `flpr_handshake_reconnect` and
`flpr_handshake_wait_new_ready`. -/
def ctlNext (s : Sys) : Action → Option Sys
  | .disconnect =>
    match s.ctl with
    | .idle =>
      some { s with sessionAvailable := false, hbStarted := false, newReadySem := false
                    ctl := .closing }
    | _ => none
  | .cancel =>
    if s.work = .idle then
      match s.ctl with
      | .closing => some { s with hbScheduled := false, ctl := .closed }
      | .rolledBack => some { s with hbScheduled := false, ctl := .draining }
      | _ => none
    else none
  | .deregister done =>
    match s.ctl with
    | .closed => some { s with registered := s.registered && !done, ctl := .idle }
    | _ => none
  | .reconnect =>
    match s.ctl with
    | .idle => some { s with newReadySem := false, ctl := .admitting }
    | _ => none
  | .makeAvailable =>
    match s.ctl with
    | .admitting => some { s with sessionAvailable := true, ctl := .registering }
    | _ => none
  | .install =>
    match s.ctl with
    | .registering => some { s with registered := true }
    | _ => none
  | .register done =>
    match s.ctl with
    | .registering =>
      if done then if s.registered then some { s with ctl := .idle } else none
      else some { s with registered := false, ctl := .failing }
    | _ => none
  | .rollback =>
    match s.ctl with
    | .failing => some { s with sessionAvailable := false, hbStarted := false, ctl := .rolledBack }
    | _ => none
  | .drain =>
    match s.ctl with
    | .draining => some { s with newReadySem := false, ctl := .idle }
    | .succeeding _ => some { s with newReadySem := false, ctl := .idle }
    | _ => none
  | .wait previousEpoch =>
    match s.ctl with
    | .idle =>
      -- the call is cancelled
      if !s.sessionAvailable then some s
      else if s.peer.ready && s.peer.acked && s.peer.epoch != previousEpoch then
        some { s with ctl := .succeeding previousEpoch }
      else some { s with ctl := .waiting previousEpoch }
    | _ => none
  | .take =>
    match s.ctl with
    | .waiting previousEpoch =>
      if s.newReadySem then some { s with newReadySem := false, ctl := .succeeding previousEpoch }
      else none
    | _ => none
  | .timeout =>
    match s.ctl with
    | .waiting _ => some { s with ctl := .idle }
    | _ => none
  | _ => none

/-! ### The endpoint and the clock -/

/-- `ep_unbound`: the counters of the lifetime and the last epoch stay. -/
def unbound (s : Sys) : Sys :=
  { s with
    peer := { peerReset with
      readyCount := s.peer.readyCount, rebootCount := s.peer.rebootCount, errLen := s.peer.errLen
      errVersion := s.peer.errVersion, errUnknown := s.peer.errUnknown, errSend := s.peer.errSend
      rxMissedTotal := s.peer.rxMissedTotal, epoch := s.peer.epoch }
    hbStarted := false, sessionAvailable := false, newReadySem := false }

/-- A step. -/
def next (s : Sys) : Action → Option Sys
  | .epBound => some { s with peer := { s.peer with bound := true } }
  | .epUnbound => some s.unbound
  | .elapse ms => some { s with clock := s.clock + ms }
  | a => (s.rxNext a).or ((s.workNext a).or (s.ctlNext a))

/-- After `flpr_handshake_init` and the registration of a health callback. -/
structure Start (s : Sys) : Prop where
  peer : s.peer = peerReset
  sessionAvailable : s.sessionAvailable = true
  hbStarted : s.hbStarted = false
  newReadySem : s.newReadySem = false
  hbScheduled : s.hbScheduled = false
  registered : s.registered = true
  healthCb : s.healthCb = true
  rx : s.rx = .idle
  work : s.work = .idle
  ctl : s.ctl = .idle

/-- The system. -/
def machine : Machine Sys Action := ⟨Start, next⟩

/-- The module after its initialisation. -/
def boot : Sys :=
  { peer := peerReset, sessionAvailable := true, hbStarted := false, newReadySem := false
    hbScheduled := false, registered := true, healthCb := true, rx := .idle, work := .idle
    ctl := .idle, clock := 0 }

theorem start_boot : Start boot := ⟨rfl, rfl, rfl, rfl, rfl, rfl, rfl, rfl, rfl, rfl⟩

/-- A READY that arrives and is acknowledged. -/
def readyAcked (epoch : UInt32) : List Action :=
  [.rxEnter ⟨msgReady, protocolVersion, 0, epoch⟩ msgSize, .rxValidate, .rxHandle, .rxSend true,
    .rxRecord, .rxFinish, .rxFinish]

/-- A heartbeat that arrives from an acknowledged core. -/
def beat (seq : UInt16) : List Action :=
  [.rxEnter ⟨msgHeartbeat, protocolVersion, seq, 0⟩ msgSize, .rxValidate, .rxHandle, .rxSend true]

/-! ### The ways in which a step can go -/

/-- What a step can be, with the guard under which it is taken. -/
inductive Step (s : Sys) : Action → Sys → Prop
  | enter (m : Msg) (len : ℕ) : s.rx = .idle → s.registered = true →
      Step s (.rxEnter m len) { s with rx := .entered m len s.clock }
  | accept {m : Msg} {len nowMs : ℕ} {p : Peer} : s.rx = .entered m len nowMs →
      msgValidate m len s.peer = (p, true) →
      Step s .rxValidate { s with peer := p, rx := .validated m nowMs }
  | reject {m : Msg} {len nowMs : ℕ} {p : Peer} : s.rx = .entered m len nowMs →
      msgValidate m len s.peer = (p, false) →
      Step s .rxValidate { s with peer := p, rx := .idle }
  | handle {m : Msg} {nowMs : ℕ} : s.rx = .validated m nowMs →
      Step s .rxHandle (s.handle m nowMs)
  | ackSent {epoch : UInt32} {give start : Bool} : s.rx = .acking epoch give start →
      Step s (.rxSend true) { s with rx := .acked epoch give start }
  | ackLost {epoch : UInt32} {give start : Bool} : s.rx = .acking epoch give start →
      Step s (.rxSend false) { s with rx := .ackFailed start }
  | echoSent : s.rx = .echoing → Step s (.rxSend true) { s with rx := .idle }
  | echoLost : s.rx = .echoing → Step s (.rxSend false) { s with rx := .echoFailed }
  | recordAck {epoch : UInt32} {give start : Bool} : s.rx = .acked epoch give start →
      Step s .rxRecord
        { s with peer := { s.peer with acked := true }, rx := .finishing give start }
  | recordAckLost {start : Bool} : s.rx = .ackFailed start →
      Step s .rxRecord { s.noteSendFailure with rx := .finishing false start }
  | recordEchoLost : s.rx = .echoFailed →
      Step s .rxRecord { s.noteSendFailure with rx := .idle }
  | give {start : Bool} : s.rx = .finishing true start →
      Step s .rxFinish { s with newReadySem := true, rx := .finishing false start }
  | finish {start : Bool} : s.rx = .finishing false start →
      Step s .rxFinish { s with hbScheduled := s.hbScheduled || start, rx := .idle }
  | begin : s.work = .idle → s.hbScheduled = true → s.peer.acked = true →
      s.sessionAvailable = true →
      Step s .workBegin { s with hbScheduled := false, work := .begun s.peer.healthy }
  | beginIdle : s.work = .idle → s.hbScheduled = true →
      Step s .workBegin { s with hbScheduled := false, work := .ending }
  | sample {wasHealthy : Bool} : s.work = .begun wasHealthy →
      Step s .workSample { s with work := .sending wasHealthy s.clock }
  | send {wasHealthy : Bool} {nowMs : ℕ} (sent : Bool) : s.work = .sending wasHealthy nowMs →
      Step s (.workSend sent)
        { s with work := if sent then .sent wasHealthy nowMs else .sendFailed }
  | recordSendLost : s.work = .sendFailed →
      Step s .workRecord { s.noteSendFailure with work := .ending }
  | check {wasHealthy : Bool} {nowMs : ℕ} : s.work = .sent wasHealthy nowMs →
      Step s .workCheck (s.check wasHealthy nowMs)
  | call : s.work = .calling → Step s .workCall { s with work := .ending }
  | reschedule : s.work = .ending →
      Step s .workReschedule { s with hbScheduled := true, work := .idle }
  | disconnect : s.ctl = .idle →
      Step s .disconnect
        { s with sessionAvailable := false, hbStarted := false, newReadySem := false
                 ctl := .closing }
  | cancel : s.ctl = .closing → s.work = .idle →
      Step s .cancel { s with hbScheduled := false, ctl := .closed }
  | cancelAgain : s.ctl = .rolledBack → s.work = .idle →
      Step s .cancel { s with hbScheduled := false, ctl := .draining }
  | deregister (done : Bool) : s.ctl = .closed →
      Step s (.deregister done) { s with registered := s.registered && !done, ctl := .idle }
  | reconnect : s.ctl = .idle →
      Step s .reconnect { s with newReadySem := false, ctl := .admitting }
  | makeAvailable : s.ctl = .admitting →
      Step s .makeAvailable { s with sessionAvailable := true, ctl := .registering }
  | install : s.ctl = .registering →
      Step s .install { s with registered := true, ctl := .registering }
  | register : s.ctl = .registering → s.registered = true →
      Step s (.register true) { s with ctl := .idle }
  | registerFailed : s.ctl = .registering →
      Step s (.register false) { s with registered := false, ctl := .failing }
  | rollback : s.ctl = .failing →
      Step s .rollback
        { s with sessionAvailable := false, hbStarted := false, ctl := .rolledBack }
  | drain : s.ctl = .draining → Step s .drain { s with newReadySem := false, ctl := .idle }
  | succeed {previous : UInt32} : s.ctl = .succeeding previous →
      Step s .drain { s with newReadySem := false, ctl := .idle }
  | waitCancelled (previous : UInt32) : s.ctl = .idle → s.sessionAvailable = false →
      Step s (.wait previous) s
  | waitFast {previous : UInt32} : s.ctl = .idle → s.sessionAvailable = true →
      s.peer.ready = true → s.peer.acked = true → s.peer.epoch ≠ previous →
      Step s (.wait previous) { s with ctl := .succeeding previous }
  | waitSlow (previous : UInt32) : s.ctl = .idle → s.sessionAvailable = true →
      Step s (.wait previous) { s with ctl := .waiting previous }
  | take {previous : UInt32} : s.ctl = .waiting previous → s.newReadySem = true →
      Step s .take { s with newReadySem := false, ctl := .succeeding previous }
  | timeout {previous : UInt32} : s.ctl = .waiting previous →
      Step s .timeout { s with ctl := .idle }
  | epBound : Step s .epBound { s with peer := { s.peer with bound := true } }
  | epUnbound : Step s .epUnbound s.unbound
  | elapse (ms : ℕ) : Step s (.elapse ms) { s with clock := s.clock + ms }

section Steps

variable {s s' : Sys} {a : Action}

theorem step_of_rxNext (hs : s.rxNext a = some s') : Step s a s' := by
  cases a with
  | rxEnter m len =>
    simp only [rxNext] at hs
    split_ifs at hs with h
    exact Option.some.inj hs ▸ .enter m len h.1 h.2
  | rxValidate =>
    cases hrx : s.rx <;> simp only [rxNext, hrx, reduceCtorEq] at hs
    split at hs <;> rename_i heq <;> obtain rfl := Option.some.inj hs
    · exact .accept hrx heq
    · exact .reject hrx heq
  | rxHandle =>
    cases hrx : s.rx <;> simp only [rxNext, hrx, reduceCtorEq] at hs
    exact Option.some.inj hs ▸ .handle hrx
  | rxSend sent =>
    cases hrx : s.rx <;> simp only [rxNext, hrx, reduceCtorEq] at hs <;>
      obtain rfl := Option.some.inj hs <;> cases sent
    · exact .ackLost hrx
    · exact .ackSent hrx
    · exact .echoLost hrx
    · exact .echoSent hrx
  | rxRecord =>
    cases hrx : s.rx <;> simp only [rxNext, hrx, reduceCtorEq] at hs <;>
      obtain rfl := Option.some.inj hs
    · exact .recordAck hrx
    · exact .recordAckLost hrx
    · exact .recordEchoLost hrx
  | rxFinish =>
    cases hrx : s.rx with
    | finishing give start =>
      simp only [rxNext, hrx] at hs
      cases give <;> obtain rfl := Option.some.inj hs
      · exact .finish hrx
      · exact .give hrx
    | _ =>
      simp only [rxNext, hrx] at hs
      cases hs
  | _ => cases hs

theorem step_of_workNext (hs : s.workNext a = some s') : Step s a s' := by
  cases a with
  | workBegin =>
    simp only [workNext] at hs
    split_ifs at hs with h hsend <;> obtain rfl := Option.some.inj hs
    · simp only [Bool.and_eq_true] at hsend
      exact .begin h.1 h.2 hsend.1 hsend.2
    · exact .beginIdle h.1 h.2
  | workSample =>
    cases hw : s.work <;> simp only [workNext, hw, reduceCtorEq] at hs
    exact Option.some.inj hs ▸ .sample hw
  | workSend sent =>
    cases hw : s.work <;> simp only [workNext, hw, reduceCtorEq] at hs
    exact Option.some.inj hs ▸ .send sent hw
  | workRecord =>
    cases hw : s.work <;> simp only [workNext, hw, reduceCtorEq] at hs
    exact Option.some.inj hs ▸ .recordSendLost hw
  | workCheck =>
    cases hw : s.work <;> simp only [workNext, hw, reduceCtorEq] at hs
    exact Option.some.inj hs ▸ .check hw
  | workCall =>
    cases hw : s.work <;> simp only [workNext, hw, reduceCtorEq] at hs
    exact Option.some.inj hs ▸ .call hw
  | workReschedule =>
    cases hw : s.work <;> simp only [workNext, hw, reduceCtorEq] at hs
    exact Option.some.inj hs ▸ .reschedule hw
  | _ => cases hs

theorem step_of_ctlNext (hs : s.ctlNext a = some s') : Step s a s' := by
  unfold ctlNext at hs
  cases a with
  | disconnect =>
    cases hc : s.ctl <;> simp only [hc, reduceCtorEq] at hs
    obtain rfl := Option.some.inj hs
    exact .disconnect hc
  | cancel =>
    dsimp only at hs
    split_ifs at hs with hw
    cases hc : s.ctl <;> simp only [hc, reduceCtorEq] at hs <;> obtain rfl := Option.some.inj hs
    · exact .cancel hc hw
    · exact .cancelAgain hc hw
  | deregister done =>
    cases hc : s.ctl <;> simp only [hc, reduceCtorEq] at hs
    obtain rfl := Option.some.inj hs
    exact .deregister done hc
  | reconnect =>
    cases hc : s.ctl <;> simp only [hc, reduceCtorEq] at hs
    obtain rfl := Option.some.inj hs
    exact .reconnect hc
  | makeAvailable =>
    cases hc : s.ctl <;> simp only [hc, reduceCtorEq] at hs
    obtain rfl := Option.some.inj hs
    exact .makeAvailable hc
  | install =>
    cases hc : s.ctl <;> simp only [hc, reduceCtorEq] at hs
    obtain rfl := Option.some.inj hs
    exact .install hc
  | register done =>
    cases hc : s.ctl <;> simp only [hc, reduceCtorEq] at hs
    cases done
    · obtain rfl := Option.some.inj hs
      exact .registerFailed hc
    · simp only [if_true] at hs
      split_ifs at hs with hr
      obtain rfl := Option.some.inj hs
      exact .register hc hr
  | rollback =>
    cases hc : s.ctl <;> simp only [hc, reduceCtorEq] at hs
    obtain rfl := Option.some.inj hs
    exact .rollback hc
  | drain =>
    cases hc : s.ctl <;> simp only [hc, reduceCtorEq] at hs <;>
      obtain rfl := Option.some.inj hs
    · exact .drain hc
    · exact .succeed hc
  | wait previous =>
    cases hc : s.ctl <;> simp only [hc, reduceCtorEq] at hs
    -- a closed session, a READY that is there already, or a wait
    split_ifs at hs with h₁ h₂ <;> obtain rfl := Option.some.inj hs
    · exact .waitCancelled previous hc (by simpa using h₁)
    · simp only [Bool.and_eq_true, bne_iff_ne] at h₂
      exact .waitFast hc (by simpa using h₁) h₂.1.1 h₂.1.2 h₂.2
    · exact .waitSlow previous hc (by simpa using h₁)
  | take =>
    cases hc : s.ctl <;> simp only [hc, reduceCtorEq] at hs
    split_ifs at hs with hsem
    obtain rfl := Option.some.inj hs
    exact .take hc hsem
  | timeout =>
    cases hc : s.ctl <;> simp only [hc, reduceCtorEq] at hs
    obtain rfl := Option.some.inj hs
    exact .timeout hc
  | _ => cases hs

theorem step_of_next (hs : s.next a = some s') : Step s a s' := by
  unfold next at hs
  split at hs
  · exact Option.some.inj hs ▸ .epBound
  · exact Option.some.inj hs ▸ .epUnbound
  · exact Option.some.inj hs ▸ .elapse _
  · rcases Option.or_eq_some_iff.1 hs with hs | ⟨-, hs⟩
    · exact step_of_rxNext hs
    · rcases Option.or_eq_some_iff.1 hs with hs | ⟨-, hs⟩
      · exact step_of_workNext hs
      · exact step_of_ctlNext hs

end Steps

end Sys

end Handshake

end LeAudioReceiver
