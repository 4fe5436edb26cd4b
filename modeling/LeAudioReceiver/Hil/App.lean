import LeAudioReceiver.Hil.Tracker
import LeAudioReceiver.Machine.Basic

/-!
# The coordinator of the HIL source

`src/hil/source/app/src/hil_source_app.c`: the worker in `hil_app_run`, the shell thread that
dispatches commands, and the sent callback.  A step is what a thread does between two releases of
`app_mutex`, or one answer of the Bluetooth backend, of the output queue or of a semaphore.

* `App.work` : the worker;
* `App.txWork` : the critical sections of the transmit stage, which follow one another in any order;
* `App.dispatch` : the commands START, STATUS, STOP, HELLO and IDLE;
* `App.sent` : the sent callback.

The backend answers anything.  Left out are the encoders, the pins and the wake semaphore of the
transmit stage, the ownership of the connection, and the data of a status record.
-/

namespace LeAudioReceiver

namespace Hil

/-- `HIL_SOURCE_FIRMWARE_ID`. -/
def firmwareId : String := "le-audio-hil-source-rh1"

/-- `EIO`. -/
def eio : ℤ := 5

/-- `EINVAL`. -/
def einval : ℤ := 22

/-- `ETIMEDOUT`. -/
def etimedout : ℤ := 110

/-- `ECANCELED`. -/
def ecanceled : ℤ := 125

/-- The values of the error codes. -/
def Errno.value : Errno → ℤ
  | .einval => Hil.einval
  | .ebusy => 16
  | .eoverflow => 75

/-! ### Places -/

/-- The operations of the backend that a segment consists of. -/
inductive BackendOp where
  | connect
  | security
  | discover
  | configure
  | qos
  | enable
  | streamConnect
  | start
  deriving DecidableEq, Repr

/-- Where the worker stands. -/
inductive Pc where
  /-- In `k_sem_take(&sem_worker)`. -/
  | waiting
  | entry
  /-- Before the advance to a state. -/
  | advance (k : RunState)
  /-- Before the record of a state. -/
  | emit (k : RunState)
  /-- At the top of the loop over the segments. -/
  | top
  /-- Before `set_run_shape`. -/
  | shape
  /-- Before the kick of an operation. -/
  | kick (o : BackendOp)
  /-- In `hil_app_retry_state`, before a kick is made again. -/
  | retry (o : BackendOp)
  /-- In `hil_app_wait_event`, before the stop and error flags are read. -/
  | sample (o : BackendOp)
  /-- In `hil_app_wait_event`, before the event is taken. -/
  | wait (o : BackendOp)
  | txStart
  /-- At the reset of the transmit stage. -/
  | txReset
  /-- In `hil_app_tx_run_controller_clock`. -/
  | tx
  /-- Behind the drain of the transmit stage. -/
  | drained
  /-- In `hil_app_cleanup`, on the way to an abort or not. -/
  | cleanup (aborting : Bool)
  | cleanupRest (aborting : Bool)
  /-- Before the decision about another segment. -/
  | decide
  /-- Before the terminal publication. -/
  | publish
  /-- At `abort`, before the stop flag is read. -/
  | abortRead (err : ℤ)
  | abortEdge (err : ℤ) (stop : Bool)
  | abortEmit (cause : AbortCause) (attempts : ℕ)
  | abortReport (err : ℤ)
  | abortTerminal
  | abortEmitTerminal
  /-- Before `k_sem_give(&sem_run_done)`. -/
  | done
  deriving DecidableEq, Repr

/-- A command, as far as the handlers read it. -/
structure Command where
  id : String
  runId : String
  deriving DecidableEq, Repr

/-- Where the shell thread stands. -/
inductive Shell where
  | free
  /-- IDLE in `k_sem_take(&sem_run_done)`; `run` is the run it asked to stop. -/
  | idleWait (c : Command) (run : ℕ)
  /-- IDLE in `hil_app_cleanup`. -/
  | idleCleanup (c : Command)
  | idleCleanupRest (c : Command)
  /-- IDLE before its answer to a failed cleanup. -/
  | idleFailed (c : Command)
  /-- IDLE before the reset of the run state. -/
  | idleReset (c : Command)
  deriving DecidableEq, Repr

/-- The coordinator. -/
structure App where
  /-- `run_state`. -/
  run : State
  asyncCommandId : String
  configRunId : String
  haveConfigIds : Bool
  runtimeError : Bool
  semWorker : Bool
  semRunDone : Bool
  txActive : Bool
  txAnchorPending : Bool
  txOutstanding : Fin 2 → ℕ
  /-- `reconnect_done` of `hil_app_run`. -/
  reconnectDone : Bool
  /-- `seg` of `hil_app_run`. -/
  seg : UInt32
  worker : Pc
  shell : Shell
  /-- `k_uptime_get_32`, which does not wrap. -/
  now : ℕ
  /-- The error flag has been raised while the run was active, since the last accepted START. -/
  errored : Bool
  /-- The records enqueued since the last accepted START. -/
  out : List Record
  /-- The acknowledgements and terminal records among all records enqueued. -/
  log : List Record
  /-- The number of accepted STARTs. -/
  runNo : ℕ
  /-- The run that the worker executes. -/
  workerRun : ℕ
  /-- The run whose end gave the last token of `sem_run_done`. -/
  tokenRun : ℕ

/-! ### Answers -/

/-- What becomes of a record: it is enqueued, cannot be formatted, or the queue refuses it. -/
inductive Emission where
  | queued
  | unformatted
  | refused
  deriving DecidableEq, Repr

/-- A critical section of the transmit stage. -/
inductive TxStep where
  /-- The bootstrap SDU is accounted for before it is sent. -/
  | bootstrap
  | bootstrapFailed (err : ℤ)
  /-- The anchor has been read back. -/
  | anchored
  /-- An SDU is sent and counted. -/
  | send (i : Fin 2) (scored : Bool)
  | sendFailed (i : Fin 2) (err : ℤ)
  /-- The boundary between scored and tail SDUs. -/
  | scoredComplete (e : Emission)
  /-- The stop and error flags are read. -/
  | check
  /-- An error of the clock, of an encoder or of a deadline. -/
  | fail (err : ℤ)
  /-- A turn of the drain loop. -/
  | drain
  deriving DecidableEq, Repr

/-- What the surroundings answer to the worker. -/
inductive Answer where
  /-- Nothing is asked. -/
  | go
  | emitted (e : Emission)
  /-- The answers to the PASS record and to the FAIL record behind it. -/
  | published (pass fail : Emission)
  /-- A return value. -/
  | returned (ret : ℤ)
  /-- A slice of a wait is over, or the next stream is waited for. -/
  | again
  /-- The next stream is kicked. -/
  | next
  /-- The kick is made again. -/
  | retry
  | tx (t : TxStep)
  deriving DecidableEq, Repr

namespace App

/-! ### Records -/

/-- `hil_app_set_runtime_error_locked`. -/
def raise (s : App) : App :=
  { s with runtimeError := true, errored := s.run.active || s.errored }

/-- A record enters the output queue. -/
def enqueue (s : App) (r : Record) : App :=
  { s with
      out := s.out ++ [r]
      log := match r.data with
        | .ack | .terminal _ => s.log ++ [r]
        | _ => s.log }

/-- A record of the run. -/
def record (s : App) (data : RecordData) : Record :=
  { data := data, firmwareId := firmwareId, monotonicMs := s.now, commandId := s.asyncCommandId
    runId := s.configRunId, segment := s.run.segment.toNat }

/-- `hil_app_emit_state_record`, `hil_app_emit_abort` and `hil_app_emit_terminal`. -/
def emit (s : App) (data : RecordData) : Emission → App
  | .queued => s.enqueue (s.record data)
  | _ => s.raise

/-- `hil_app_emit_status_data` and `hil_app_emit_hello_data`. -/
def emitStatus (s : App) (c : Command) (segment : ℕ) : Emission → App
  | .queued =>
    s.enqueue { data := .status, firmwareId := firmwareId, monotonicMs := s.now, commandId := c.id
                runId := c.runId, segment := segment }
  | .refused => s.raise
  | .unformatted => if s.run.active then s.raise else s

/-! ### The worker -/

/-- The worker moves on. -/
def goto (s : App) (pc : Pc) : App := { s with worker := pc }

/-- Behind the record of a state. -/
def afterEmit : RunState → Pc
  | .idle => .advance .configured
  | .configured => .top
  | .connecting => .shape
  | .secured => .kick .discover
  | .discovered => .kick .configure
  | .qos => .kick .enable
  | .streaming => .txReset
  | .scoredComplete => .tx
  | .teardown => .cleanup false

/-- Behind an operation of the backend. -/
def afterOp : BackendOp → Pc
  | .connect => .kick .security
  | .security => .advance .secured
  | .discover => .advance .discovered
  | .configure => .kick .qos
  | .qos => .advance .qos
  | .enable => .kick .streamConnect
  | .streamConnect => .kick .start
  | .start => .txStart

/-- `hil_app_advance_state` and what follows it. -/
def advance (s : App) (k : RunState) : App :=
  match s.run.advance (some k) with
  | (run, none) => { s with run := run, worker := .emit k }
  | (_, some e) => s.raise.goto (.abortRead (-e.value))

/-- The stop and error flags are read: `pc` follows if neither is set. -/
def checkStop (s : App) (pc : Pc) : App :=
  if s.run.stopRequested then s.goto (.abortRead (-ecanceled))
  else if s.runtimeError then s.goto (.abortRead (-eio))
  else s.goto pc

/-- A return value: `pc` follows `0`. -/
def returned (s : App) (ret : ℤ) (pc : Pc) : App :=
  if ret = 0 then s.goto pc else s.goto (.abortRead ret)

/-- A counter operation on the run state. -/
def count (s : App) (op : Op) : App := { s with run := (s.run.call op).1 }

/-- A critical section of the transmit stage. -/
def txWork (s : App) : TxStep → Option App
  | .bootstrap =>
    some { s with
      txAnchorPending := true
      txOutstanding := Function.update s.txOutstanding 0 (s.txOutstanding 0 + 1) }
  | .bootstrapFailed err =>
    if err = 0 then none
    else
      some (({ s with
        txAnchorPending := false
        txOutstanding := Function.update s.txOutstanding 0 (s.txOutstanding 0 - 1) }.count
          (.counterSendFailure 0)).goto (.abortRead err))
  | .anchored => some { s with txAnchorPending := false }
  | .send i scored =>
    let op : Op := if scored then .counterSubmitScored i else .counterSubmit i
    let s := { s with txOutstanding := Function.update s.txOutstanding i (s.txOutstanding i + 1) }
    match s.run.call op with
    | (run, none) => some { s with run := run }
    | (_, some e) => some (s.goto (.abortRead (-e.value)))
  | .sendFailed i err =>
    if err = 0 then none else some ((s.count (.counterSendFailure i)).goto (.abortRead err))
  | .scoredComplete e =>
    match s.run.advance (some .scoredComplete) with
    | (_, some _) => some (s.raise.goto (.abortRead (-eio)))
    | (run, none) =>
      let s := { s with run := run }
      some ((s.emit (.state run.currentState) e).goto
        (if e = .queued then .tx else .abortRead (-eio)))
  | .check => some (s.checkStop .tx)
  | .fail err => if err = 0 then none else some (s.goto (.abortRead err))
  | .drain =>
    some (s.checkStop
      (if s.run.config.mode.allStreams fun i => s.txOutstanding i = 0 then .drained else .tx))

/-- `hil_app_cleanup` as far as the mutex is held: generation stops, nothing is outstanding. -/
def stopTx (s : App) : App := { s with txActive := false, txOutstanding := fun _ => 0 }

/-- `reconnect_now`. -/
def reconnectNow (s : App) : Bool :=
  s.run.config.reconnectPolicy = .once && !s.run.aborted && !s.reconnectDone && s.seg = 0

/-- The terminal publication: PASS on a copy of the run state first. -/
def publish (s : App) (pass fail : Emission) : App :=
  let failed (err : ℤ) (s : App) : App :=
    let s := (s.count (.errorReport err)).count (.terminal (some .fail))
    (s.emit (.terminal .fail) fail).goto .done
  match s.run.acceptTerminal (some .pass) with
  | (_, some e) => failed (-e.value) s
  | (terminal, none) =>
    let s := s.emit (.terminal .pass) pass
    if pass = .queued then { s with run := terminal, worker := .done } else failed (-eio) s

/-- The cause of an abort. -/
def abortCause (err : ℤ) (stop : Bool) : AbortCause :=
  if err = -etimedout then .timeout else if err = -ecanceled ∧ stop then .stop else .error

/-- A step of the worker; `none` where it waits, or where the answer is to another question. -/
def work (s : App) (a : Answer) : Option App :=
  match s.worker, a with
  | .waiting, .go =>
    if s.semWorker then
      some { s with semWorker := false, workerRun := s.runNo, worker := .entry }
    else none
  | .entry, .go =>
    some { s with runtimeError := false, reconnectDone := false, worker := .emit .idle }
  | .emit k, .emitted e =>
    some ((s.emit (.state s.run.currentState) e).goto
      (if e = .queued then afterEmit k else .abortRead (-eio)))
  | .advance k, .go => some (s.advance k)
  | .top, .go =>
    let s := { s with seg := s.run.segment }
    some (if s.run.currentState ≠ .connecting then s.advance .connecting
      else s.goto (.emit .connecting))
  | .shape, .go => some (s.goto (.kick .connect))
  | .kick o, .returned ret => some (s.returned ret (.sample o))
  | .kick o, .retry => some (s.goto (.retry o))
  | .retry o, .go => some (s.checkStop (.kick o))
  | .sample o, .go => some (s.checkStop (.wait o))
  | .wait o, .again => some (s.goto (.sample o))
  | .wait o, .next => some (s.goto (.kick o))
  | .wait o, .retry => some (s.goto (.retry o))
  | .wait o, .returned ret => some (s.returned ret (afterOp o))
  | .txStart, .returned ret => some (s.returned ret (.advance .streaming))
  | .txReset, .go =>
    some { s with txActive := true, txAnchorPending := false, txOutstanding := fun _ => 0
                  worker := .tx }
  | .tx, .tx t => s.txWork t
  | .drained, .go => some (s.goto (.advance .teardown))
  | .cleanup aborting, .go => some (s.stopTx.goto (.cleanupRest aborting))
  | .cleanupRest false, .returned ret => some (s.returned ret .decide)
  | .cleanupRest true, .returned ret =>
    some (s.goto (if ret = 0 then .abortTerminal else .abortReport ret))
  | .decide, .go =>
    if s.reconnectNow then
      match s.run.nextSegment with
      | (run, none) => some { s with run := run, reconnectDone := true, worker := .top }
      | (_, some e) => some ({ s with reconnectDone := true }.goto (.abortRead (-e.value)))
    else some (s.goto .publish)
  | .publish, .published pass fail => some (s.publish pass fail)
  | .abortRead err, .go => some (s.goto (.abortEdge err s.run.stopRequested))
  | .abortEdge err stop, .go =>
    let s := if err ≠ 0 ∧ err ≠ -ecanceled then s.count (.errorReport err) else s
    match s.run.abortToTeardown (some (abortCause err stop)) with
    | (run, none) => some { s with run := run, worker := .abortEmit (abortCause err stop) 0 }
    | (_, some _) => some (s.goto (.cleanup true))
  | .abortEmit cause attempts, .emitted e =>
    some ((s.emit (.abort cause) e).goto
      (if e = .queued then .cleanup true
        else if attempts < 5 then .abortEmit cause (attempts + 1) else .cleanup true))
  | .abortReport err, .go => some ((s.count (.errorReport err)).goto .abortTerminal)
  | .abortTerminal, .go => some ((s.count (.terminal (some .fail))).goto .abortEmitTerminal)
  | .abortEmitTerminal, .emitted e => some ((s.emit (.terminal .fail) e).goto .done)
  | .done, .go => some { s with semRunDone := true, tokenRun := s.workerRun, worker := .waiting }
  | _, _ => none

/-! ### The sent callback -/

/-- A callback that does not belong to the stage that is being transmitted. -/
def stale (s : App) : Bool :=
  !s.run.active || s.run.currentState = .teardown || !s.txActive

/-- `hil_source_app_tx_sent`. -/
def sent (s : App) (i : Fin 2) : App :=
  let anchor := !s.stale && i = 0 && s.txAnchorPending
  let t := if s.run.active && !anchor then s.count (.counterSentCallback i) else s
  if s.stale then t
  else if s.txOutstanding i = 0 then t.raise
  else
    { t with
        txOutstanding := Function.update t.txOutstanding i (t.txOutstanding i - 1)
        txAnchorPending := t.txAnchorPending && !anchor }

/-! ### Commands -/

/-- The command names the configured run. -/
def names (s : App) (c : Command) : Bool := s.haveConfigIds && c.runId = s.configRunId

/-- An accepted START whose acknowledgement is enqueued. -/
def started (s : App) (c : Command) (run : State) : App :=
  let ack : Record :=
    { data := .ack, firmwareId := firmwareId, monotonicMs := s.now, commandId := c.id
      runId := s.configRunId, segment := 0 }
  { s with run := run, asyncCommandId := c.id, semRunDone := false, semWorker := true
           errored := false, out := [ack], log := s.log ++ [ack], runNo := s.runNo + 1 }

/-- An accepted START whose acknowledgement is not: the run fails. -/
def rolledBack (s : App) (c : Command) (run : State) (ack abort terminal : Emission) : App :=
  let s := { s with run := run, asyncCommandId := c.id, errored := false }
  let s := if ack = .refused then s.raise else s
  let s := ((s.count (.errorReport (-eio))).count (.abortToTeardown (some .error))).count
    (.terminal (some .fail))
  (s.emit (.abort .error) abort).emit (.terminal .fail) terminal

/-- `hil_app_handle_start`. -/
def handleStart (s : App) (c : Command) (e abort terminal : Emission) : App :=
  if !s.names c then s.emitStatus c 0 e
  else
    match s.run.start with
    | (_, some _) => s.emitStatus c 0 e
    | (run, none) =>
      if e = .queued then s.started c run else s.rolledBack c run e abort terminal

/-- `hil_app_handle_status`. -/
def handleStatus (s : App) (c : Command) (e : Emission) : App :=
  s.emitStatus c (if s.names c then s.run.segment.toNat else 0) e

/-- `hil_app_handle_stop`. -/
def handleStop (s : App) (c : Command) (e : Emission) : App :=
  if !s.names c then s.emitStatus c 0 e
  else
    let s := s.count .stopRequest
    s.emitStatus c s.run.segment.toNat e

/-- The first critical section of `hil_app_handle_idle`. -/
def handleIdle (s : App) (c : Command) (e : Emission) : App :=
  if s.haveConfigIds && c.runId ≠ s.configRunId then s.emitStatus c 0 e
  else if s.run.active then { s.count .stopRequest with shell := .idleWait c s.runNo }
  else { s with shell := .idleCleanup c }

/-- The steps of the shell thread. -/
inductive ShellStep where
  | start (c : Command) (ack abort terminal : Emission)
  | status (c : Command) (e : Emission)
  | stop (c : Command) (e : Emission)
  | hello (c : Command) (e : Emission)
  | idle (c : Command) (e : Emission)
  /-- IDLE takes the token. -/
  | take
  /-- IDLE gives up waiting. -/
  | timeout (e : Emission)
  /-- `hil_app_cleanup` of IDLE. -/
  | cleanup
  | cleanupReturns (ret : ℤ)
  /-- The last answer of IDLE. -/
  | answer (e : Emission)
  deriving DecidableEq, Repr

/-- A step of the shell thread. -/
def dispatch (s : App) (a : ShellStep) : Option App :=
  match s.shell, a with
  | .free, .start c e abort terminal => some (s.handleStart c e abort terminal)
  | .free, .status c e => some (s.handleStatus c e)
  | .free, .stop c e => some (s.handleStop c e)
  | .free, .hello c e => some (s.emitStatus c 0 e)
  | .free, .idle c e => some (s.handleIdle c e)
  | .idleWait c _, .take =>
    if s.semRunDone then some { s with semRunDone := false, shell := .idleCleanup c } else none
  | .idleWait c _, .timeout e =>
    if s.semRunDone then none else some { s.emitStatus c 0 e with shell := .free }
  | .idleCleanup c, .cleanup => some { s.stopTx with shell := .idleCleanupRest c }
  | .idleCleanupRest c, .cleanupReturns ret =>
    some { s with shell := if ret ≠ 0 ∧ ret ≠ -ecanceled then .idleFailed c else .idleReset c }
  | .idleFailed c, .answer e => some { s.emitStatus c 0 e with shell := .free }
  | .idleReset c, .answer e =>
    let s := { s with run := .zero, haveConfigIds := false, asyncCommandId := "" }
    some { s.emitStatus c 0 e with shell := .free }
  | _, _ => none

/-! ### Runs -/

/-- What happens next. -/
inductive Action where
  | work (a : Answer)
  | shell (a : ShellStep)
  | sent (i : Fin 2)
  /-- Time passes. -/
  | tick (ms : ℕ)
  deriving DecidableEq, Repr

/-- One step of the coordinator. -/
def next (s : App) : Action → Option App
  | .work a => s.work a
  | .shell a => s.dispatch a
  | .sent i => some (s.sent i)
  | .tick ms => some { s with now := s.now + ms }

/-- The coordinator with a configured run that has not been started. -/
structure Configured (s : App) : Prop where
  run : ∃ cfg : ConfigArg, ∃ config, cfg.check = some config ∧
    s.run = { State.zero with config := config, hasConfig := true }
  haveConfigIds : s.haveConfigIds = true
  worker : s.worker = .waiting
  shell : s.shell = .free
  semWorker : s.semWorker = false
  semRunDone : s.semRunDone = false
  out : s.out = []
  log : s.log = []
  runNo : s.runNo = 0

/-- The coordinator from a configured run on. -/
def machine : Machine App Action where
  init := Configured
  next := next

/-! ### A segment -/

/-- A configuration of one stream with one scored SDU. -/
def monoConfig (policy : ReconnectPolicy) : Config :=
  { mode := .mono, profile := .p48_4_1, peerAddress := fun _ => 0, peerAddressType := .pub
    scoredSduCount := 1, signalSeed := 1, reconnectPolicy := policy }

/-- The coordinator with a configuration, run `run-1`. -/
def configured (config : Config) : App :=
  { run := { State.zero with config := config, hasConfig := true }
    asyncCommandId := "", configRunId := "run-1", haveConfigIds := true, runtimeError := false
    semWorker := false, semRunDone := false, txActive := false, txAnchorPending := false
    txOutstanding := fun _ => 0, reconnectDone := false, seg := 0, worker := .waiting
    shell := .free, now := 0, errored := false, out := [], log := [], runNo := 0, workerRun := 0
    tokenRun := 0 }

/-- The worker goes on. -/
def go : Action := .work .go

/-- The worker's record is enqueued. -/
def emits : Action := .work (.emitted .queued)

/-- A return value `0`. -/
def returns : Action := .work (.returned 0)

/-- The record of `idle` and what leads to the first segment. -/
def opening : List Action := [go, go, emits, go, emits]

/-- An operation of the backend on one stream that succeeds. -/
def operation : List Action := [returns, go, returns]

/-- One SDU of one stream, which is sent. -/
def sdu (scored : Bool) : List Action := [.work (.tx (.send 0 scored)), .sent 0]

/-- A segment of one stream with one scored SDU that succeeds up to its last SDU, with the
preamble and the tail of the profile `48_4_1`. -/
def transmission : List Action :=
  [go, emits, go] ++ operation ++ operation ++ [go, emits] ++ operation ++ [go, emits] ++
    operation ++ operation ++ [go, emits] ++ operation ++ operation ++ operation ++
    [returns, go, emits, go, .work (.tx .check), .work (.tx .bootstrap), .sent 0,
      .work (.tx .check), .work (.tx .anchored)] ++
    (List.replicate 144 (sdu false)).flatten ++ sdu true ++
    [.work (.tx (.scoredComplete .queued))] ++ (List.replicate 500 (sdu false)).flatten

/-- The end of a segment, up to the decision about another one. -/
def closing : List Action := [.work (.tx .drain), go, go, emits, go, returns]

end App

end Hil

end LeAudioReceiver
