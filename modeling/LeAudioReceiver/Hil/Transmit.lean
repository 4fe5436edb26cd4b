import LeAudioReceiver.Hil.App
import LeAudioReceiver.Hil.Signal

/-!
# The transmit stage of the HIL source

`hil_app_tx_run_controller_clock` of `src/hil/source/app/src/hil_source_app.c` with what it calls,
beside the sent callback and the commands STATUS and STOP.  A step of the worker is what it does
between two releases of `app_mutex`, or one answer of the backend, of an encoder or of a semaphore.

* `Tx.work` : the worker, from its call to its return;
* `Tx.sent` : `hil_source_app_tx_sent`;
* `Tx.status`, `Tx.stop` : the commands;
* `machine` : one call of the stage.

The backend and the encoders answer anything, and the controller clock reads anything.
`HIL_SOURCE_TX_OUTSTANDING_TARGET`, which is configured between 1 and 6, is the parameter `target`.
Left out are the SDUs themselves, and the checks against a configuration without frames or streams,
which no valid configuration fails.
-/

namespace LeAudioReceiver

namespace Hil

namespace Transmit

open Signal (Stage preambleTotalSamples profileFrameSamples)

/-! ### Constants -/

/-- `HIL_SOURCE_TX_TS_LEAD_TARGET_US`. -/
def leadTargetUs : ℤ := 3000

/-- `HIL_SOURCE_TX_TS_MIN_AHEAD_US`. -/
def minAheadUs : ℤ := 2000

/-- `HIL_SOURCE_TX_PROGRESS_TIMEOUT_MS`. -/
def progressTimeoutMs : ℕ := 2000

/-- `HIL_SOURCE_TX_DRAIN_TIMEOUT_MS`. -/
def drainTimeoutMs : ℕ := 5000

/-- `HIL_SOURCE_TAIL_MIN_US`. -/
def tailMinUs : ℕ := 5000000

/-- `INT32_MAX`. -/
def int32Max : ℤ := 2147483647

/-- `INT32_MIN`. -/
def int32Min : ℤ := -2147483648

/-- `ETIME`. -/
def etime : ℤ := 62

/-- `hil_source_profile_frame_duration_us`. -/
def frameDurationUs : Profile → ℕ
  | .p48_3_1 => 7500
  | .p48_4_1 => 10000

/-- `hil_app_preamble_frames`. -/
def preambleFrames (p : Profile) : ℕ := preambleTotalSamples / profileFrameSamples p

/-- `hil_app_tail_frames`. -/
def tailFrames (p : Profile) : ℕ := (tailMinUs + frameDurationUs p - 1) / frameDurationUs p

/-- `hil_app_frame_stage`. -/
def frameStage (submitted preamble scored : ℕ) : Stage :=
  if submitted < preamble then .preamble
  else if submitted < preamble + scored then .scored
  else .tail

/-! ### Pins -/

/-- `hil_app_tx_pin_ahead`: the distance of a pin modulo `2 ^ 32`, signed. -/
def pinAhead (pin now : UInt32) : ℤ := (pin - now).toInt32.toInt

/-- The events by which `hil_app_tx_catch_up_pin` moves a pin that is `ahead` of the clock. -/
def shortfall (ahead : ℤ) (interval : ℕ) : ℕ :=
  if ahead < minAheadUs then ((minAheadUs - ahead + interval - 1) / interval).toNat else 0

/-- A pin that is moved by a number of events. -/
def movePin (pin : UInt32) (count interval : ℕ) : UInt32 :=
  pin + UInt32.ofNat count * UInt32.ofNat interval

/-- `hil_app_tx_catch_up_pin`: the pin and the number of skipped events. -/
def catchUpPin (pin now : UInt32) (interval : ℕ) : UInt32 × ℕ :=
  let count := shortfall (pinAhead pin now) interval
  (movePin pin count interval, count)

/-! ### Streams -/

/-- The transmit bookkeeping of a stream. -/
@[ext]
structure Stream where
  outstanding : ℕ
  seq : UInt16
  submitted : ℕ
  lastActivity : ℕ
  /-- `tx_ts_next`. -/
  next : UInt32
  pinAdvances : UInt32
  /-- `tx_rb_last`. -/
  readback : UInt32
  pinLast : UInt32
  leadMin : ℤ
  leadMax : ℤ
  leadCnt : UInt32
  leadUnder : UInt32
  syncLast : UInt32
  syncCnt : UInt32

/-- The bookkeeping at the start of a segment. -/
def Stream.reset (uptime : ℕ) : Stream :=
  { outstanding := 0, seq := 0, submitted := 0, lastActivity := uptime, next := 0
    pinAdvances := 0, readback := 0, pinLast := 0, leadMin := int32Max, leadMax := int32Min
    leadCnt := 0, leadUnder := 0, syncLast := 0, syncCnt := 0 }

/-- `hil_app_tx_record_lead`. -/
def Stream.recordLead (t : Stream) (lead : ℤ) : Stream :=
  { t with
      leadMin := if t.leadCnt = 0 then lead else min t.leadMin lead
      leadMax := if t.leadCnt = 0 then lead else max t.leadMax lead
      leadCnt := t.leadCnt + 1 }

/-- An SDU that the backend accepted. -/
def Stream.accepted (t : Stream) (uptime : ℕ) (pin : UInt32) (lead : ℤ) : Stream :=
  { t.recordLead lead with
      outstanding := t.outstanding + 1
      seq := t.seq + 1
      submitted := t.submitted + 1
      lastActivity := uptime
      pinLast := pin }

/-- `hil_app_tx_apply_pin_advance` for a stream. -/
def Stream.advancePin (t : Stream) (pin : UInt32) (skipped : ℕ) : Stream :=
  { t with next := pin, pinAdvances := t.pinAdvances + UInt32.ofNat skipped }

/-- A stream has one SDU less outstanding, if it had one. -/
def Stream.drop (t : Stream) : Stream := { t with outstanding := t.outstanding - 1 }

/-! ### The state -/

/-- Where the worker stands.  A place within `hil_app_tx_submit_batch` carries the pin. -/
inductive Pc where
  | entry
  /-- Before `hil_app_tx_init_encoders`, behind the bootstrap SDU or not. -/
  | encoders (again : Bool)
  | anchorEncode
  | anchorCheck
  | anchorAccount
  /-- Before `tx_send`. -/
  | anchorSend
  | anchorSent
  /-- Before the stop and error flags are read, in the wait for the bootstrap SDU. -/
  | anchorPoll (deadline : ℕ)
  | anchorDue (deadline : ℕ)
  /-- In `k_sem_take`. -/
  | anchorWait (deadline : ℕ)
  /-- Before `tx_read_tx_ts`. -/
  | readback
  /-- At the top of the loop over the batches. -/
  | top
  /-- In `k_sem_take`; without a deadline at `INT64_MAX`. -/
  | spaceWait (deadline : Option ℕ)
  | encode (i : Fin 2) (pin : UInt32)
  /-- Before `tx_batch_mutex` is taken. -/
  | batch (pin : UInt32)
  /-- At the top of the loop of `hil_app_tx_wait_for_pin`. -/
  | pinCheck (pin : UInt32) (deadline : ℕ)
  /-- Before `tx_time_get` of `hil_app_tx_wait_for_pin`. -/
  | pinRead (pin : UInt32) (deadline : ℕ)
  | pinAdvance (pin : UInt32) (skipped deadline : ℕ)
  /-- In `k_sem_take`. -/
  | pinWait (pin : UInt32) (deadline : ℕ)
  /-- Before the last `tx_time_get` ahead of the first stream. -/
  | gate (pin : UInt32)
  | gateAdvance (pin : UInt32) (skipped : ℕ)
  /-- Before `tx_send_ts`, behind the clock reading `now`. -/
  | send (i : Fin 2) (pin now : UInt32)
  /-- Before `tx_time_get` ahead of the second stream. -/
  | peer (pin : UInt32)
  /-- At the top of the drain loop. -/
  | drain (deadline : ℕ)
  /-- In `k_sem_take`. -/
  | drainWait (deadline : ℕ)
  /-- Before `tx_read_sync`. -/
  | sync (i : Fin 2)
  | returned (ret : ℤ)
  deriving DecidableEq, Repr

/-- The worker holds `app_mutex` across calls of the backend. -/
def Pc.holdsApp : Pc → Bool
  | .send _ _ _ | .peer _ => true
  | _ => false

/-- The worker holds `tx_batch_mutex`. -/
def Pc.holdsBatch : Pc → Bool
  | .pinCheck _ _ | .pinRead _ _ | .pinAdvance _ _ _ | .pinWait _ _ | .gate _ | .gateAdvance _ _
  | .send _ _ _ | .peer _ => true
  | _ => false

/-- The transmit stage. -/
structure Tx where
  /-- `run_state`. -/
  run : State
  stream : Fin 2 → Stream
  /-- `tx_active`. -/
  active : Bool
  /-- `tx_ts_anchor_pending`. -/
  anchorPending : Bool
  /-- `tx_ts_readback_due[0]`. -/
  readbackDue : Bool
  /-- `tx_enc_stage[0]`. -/
  encStage : Stage
  scoredCompleteEmitted : Bool
  runtimeError : Bool
  /-- The token of `sem_tx_wake`. -/
  wake : Bool
  /-- `k_uptime_get`. -/
  uptime : ℕ
  worker : Pc

/-- What the surroundings answer to the worker. -/
inductive Answer where
  /-- Nothing is asked. -/
  | go
  /-- A return value. -/
  | returned (ret : ℤ)
  /-- A reading of the controller clock. -/
  | clock (now : UInt32)
  /-- A timestamp that is read back. -/
  | stamp (ts : UInt32)
  /-- What becomes of a record, and whether the encoders take the next stage. -/
  | emitted (e : Emission) (staged : Bool)
  /-- A wait is over without a token. -/
  | timeout
  deriving DecidableEq, Repr

namespace Tx

/-- `interval_us`. -/
def interval (s : Tx) : ℕ := frameDurationUs s.run.config.profile

/-- `preamble`. -/
def preamble (s : Tx) : ℕ := preambleFrames s.run.config.profile

/-- `scored`. -/
def scored (s : Tx) : ℕ := s.run.config.scoredSduCount.toNat

/-- `per_stream_total`. -/
def perStreamTotal (s : Tx) : ℕ := s.preamble + s.scored + tailFrames s.run.config.profile

/-- `hil_source_mode_stream_count` of the configured mode. -/
def streams (s : Tx) : ℕ := s.run.config.mode.streamCount

/-- The stage of the next SDU of a stream. -/
def stageOf (s : Tx) (i : Fin 2) : Stage := frameStage (s.stream i).submitted s.preamble s.scored

/-- The worker moves on. -/
def goto (s : Tx) (pc : Pc) : Tx := { s with worker := pc }

/-- A stream changes. -/
def modify (s : Tx) (i : Fin 2) (f : Stream → Stream) : Tx :=
  { s with stream := fun j => if j = i then f (s.stream j) else s.stream j }

/-- The configured streams change. -/
def modifyAll (s : Tx) (f : Stream → Stream) : Tx :=
  { s with stream := fun j => if j.val < s.streams then f (s.stream j) else s.stream j }

/-- `hil_app_set_runtime_error_locked`. -/
def raise (s : Tx) : Tx := { s with runtimeError := true, wake := true }

/-- A counter operation on the run state. -/
def count (s : Tx) (op : Op) : Tx := { s with run := (s.run.call op).1 }

/-- `hil_app_stop_pending_locked`. -/
def stopPending (s : Tx) : Bool := s.run.stopRequested || s.runtimeError

/-- What a pending stop makes the worker return. -/
def cancelled (s : Tx) : Tx :=
  s.goto (.returned (if s.run.stopRequested then -ecanceled else -eio))

/-- `hil_app_tx_check_stop`: `pc` follows if neither flag is set. -/
def checkStop (s : Tx) (pc : Pc) : Tx := if s.stopPending then s.cancelled else s.goto pc

/-- The token is taken. -/
def woken (s : Tx) (pc : Pc) : Option Tx :=
  if s.wake then some { s with wake := false, worker := pc } else none

/-! ### The anchor -/

/-- The reset at the start of a segment. -/
def reset (s : Tx) : Tx :=
  { s with
      stream := fun _ => .reset s.uptime
      active := true, anchorPending := false, readbackDue := false
      scoredCompleteEmitted := false, wake := false, worker := .encoders false }

/-- `hil_app_tx_init_encoders`. -/
def initEncoders (s : Tx) (again : Bool) (ret : ℤ) : Tx :=
  { s with encStage := .preamble }.goto
    (if ret ≠ 0 then .returned ret else if again then .top else .anchorEncode)

/-- The bootstrap SDU is accounted for. -/
def accountAnchor (s : Tx) : Tx :=
  { s with anchorPending := true }.modify 0 fun t =>
    { t with outstanding := t.outstanding + 1, lastActivity := s.uptime }

/-- The backend refuses the bootstrap SDU. -/
def refuseAnchor (s : Tx) : Tx :=
  ({ s with anchorPending := false }.modify 0 Stream.drop).count (.counterSendFailure 0)

/-- The wait for the bootstrap SDU reads whether its timestamp is due. -/
def pollAnchor (s : Tx) (deadline : ℕ) : Tx :=
  if s.readbackDue then { s with readbackDue := false, worker := .readback }
  else if deadline ≤ s.uptime then s.goto (.returned (-etimedout))
  else s.goto (.anchorWait deadline)

/-- The timestamp of the bootstrap SDU starts the grid of the pins. -/
def anchored (s : Tx) (assigned : UInt32) : Tx :=
  { (s.modify 0 fun t => { t with readback := assigned }).modifyAll
      fun t => { t with next := movePin assigned 1 s.interval } with
    anchorPending := false, worker := .encoders true }

/-! ### The loop over the batches -/

/-- Every stream has sent all of its SDUs. -/
def finished (s : Tx) : Bool :=
  s.run.config.mode.allStreams fun i => s.perStreamTotal ≤ (s.stream i).submitted

/-- `can_send`. -/
def canSend (s : Tx) (target : ℕ) : Bool :=
  s.run.config.mode.allStreams fun i => (s.stream i).outstanding < target

/-- A stream has SDUs to send, but no space. -/
def full (s : Tx) (target : ℕ) (i : Fin 2) : Bool :=
  (s.stream i).submitted < s.perStreamTotal && target ≤ (s.stream i).outstanding

/-- A stream made no progress for too long. -/
def stuck (s : Tx) (target : ℕ) (i : Fin 2) : Bool :=
  s.full target i && (s.stream i).lastActivity + progressTimeoutMs ≤ s.uptime

/-- `deadline` of the wait for space. -/
def spaceDeadline (s : Tx) (target : ℕ) : Option ℕ :=
  (((List.finRange 2).filter fun i => i.val < s.streams && s.full target i).map
    fun i => (s.stream i).lastActivity + progressTimeoutMs).min?

/-- `hil_app_tx_ensure_stage` behind the record of the boundary. -/
def setStage (s : Tx) (staged : Bool) : Tx :=
  if staged then { s with encStage := s.stageOf 0 }.goto (.encode 0 (s.stream 0).next)
  else s.goto (.returned (-eio))

/-- `hil_app_tx_ensure_stage` and what follows it. -/
def ensureStage (s : Tx) (e : Emission) (staged : Bool) : Tx :=
  if s.stageOf 0 = s.encStage then s.goto (.encode 0 (s.stream 0).next)
  else if s.stageOf 0 = .tail && !s.scoredCompleteEmitted then
    let s := { s with scoredCompleteEmitted := true }
    match s.run.advance (some .scoredComplete) with
    | (_, some _) => s.raise.goto (.returned (-eio))
    | (run, none) =>
      let s := { s with run := run }
      if e = .queued then s.setStage staged else s.raise.goto (.returned (-eio))
  else s.setStage staged

/-- A turn of the loop over the batches. -/
def turn (s : Tx) (target : ℕ) (e : Emission) (staged : Bool) : Tx :=
  if s.stopPending then s.cancelled
  else if s.finished then s.goto (.drain (s.uptime + drainTimeoutMs))
  else if !s.canSend target then
    if s.run.config.mode.allStreams fun i => !s.stuck target i then
      s.goto (.spaceWait (s.spaceDeadline target))
    else s.goto (.returned (-etimedout))
  else if s.run.config.mode.allStreams fun i => s.stageOf i = s.stageOf 0 then
    s.ensureStage e staged
  else s.goto (.returned (-eio))

/-- The last stream of the loops over the configured streams. -/
def isLast (s : Tx) (i : Fin 2) : Bool := s.streams ≤ i.val + 1

/-- A stream's SDU is encoded, or not. -/
def encoded (s : Tx) (i : Fin 2) (pin : UInt32) (ret : ℤ) : Tx :=
  if ret < 0 then s.goto (.returned ret)
  else s.goto (if s.isLast i then .batch pin else .encode 1 pin)

/-! ### A batch -/

/-- `hil_app_tx_wait_for_pin` behind its clock reading. -/
def timePin (s : Tx) (pin : UInt32) (deadline : ℕ) (now : UInt32) : Tx :=
  if deadline ≤ s.uptime then s.goto (.returned (-etimedout))
  else
    let (pin, skipped) := catchUpPin pin now s.interval
    if skipped ≠ 0 then s.goto (.pinAdvance pin skipped deadline)
    else if pinAhead pin now ≤ leadTargetUs then s.goto (.gate pin)
    else s.goto (.pinWait pin deadline)

/-- The last clock reading ahead of the first stream. -/
def passGate (s : Tx) (pin now : UInt32) : Tx :=
  let (pin, skipped) := catchUpPin pin now s.interval
  s.goto (if skipped = 0 then .send 0 pin now else .gateAdvance pin skipped)

/-- `hil_app_tx_apply_pin_advance`, and `hil_app_tx_wait_for_pin` goes on. -/
def advancePin (s : Tx) (pin : UInt32) (skipped deadline : ℕ) : Tx :=
  (s.modifyAll fun t => t.advancePin pin skipped).goto (.pinCheck pin deadline)

/-- The counter of an SDU in its stage. -/
def submitOp (s : Tx) (i : Fin 2) : Op :=
  if s.stageOf i = .scored then .counterSubmitScored i else .counterSubmit i

/-- The backend refuses an SDU. -/
def refused (s : Tx) (i : Fin 2) (ret : ℤ) : Tx :=
  ((s.modify i fun t => { t with lastActivity := s.uptime }).count (.counterSendFailure i)).goto
    (.returned ret)

/-- The backend accepts an SDU; behind the last stream the pin moves on. -/
def accepted (s : Tx) (i : Fin 2) (pin now : UInt32) : Tx :=
  let t := s.modify i fun t => t.accepted s.uptime pin (pinAhead pin now)
  match s.run.call (s.submitOp i) with
  | (_, some e) => t.goto (.returned (-e.value))
  | (run, none) =>
    let t := { t with run := run }
    if s.isLast i then
      (t.modifyAll fun t => { t with next := movePin pin 1 s.interval }).goto .top
    else t.goto (.peer pin)

/-- A stream is too late for a pin. -/
def late (s : Tx) (i : Fin 2) : Tx :=
  (s.modify i fun t => { t with leadUnder := t.leadUnder + 1 }).goto (.returned (-etime))

/-! ### The end -/

/-- A turn of the drain loop. -/
def drained (s : Tx) (deadline : ℕ) : Tx :=
  if s.stopPending then s.cancelled
  else if s.run.config.mode.allStreams fun i => (s.stream i).outstanding = 0 then s.goto (.sync 0)
  else if deadline ≤ s.uptime then s.goto (.returned (-etimedout))
  else s.goto (.drainWait deadline)

/-- Behind `tx_read_sync` of a stream. -/
def afterSync (s : Tx) (i : Fin 2) : Tx :=
  s.goto (if s.isLast i then .returned 0 else .sync 1)

/-- `hil_app_tx_capture_sync` for a stream. -/
def synced (s : Tx) (i : Fin 2) (ts : UInt32) : Tx :=
  (s.modify i fun t => { t with syncLast := ts, syncCnt := t.syncCnt + 1 }).afterSync i

/-- A step of the worker; `none` where it waits, or where the answer is to another question. -/
def work (s : Tx) (target : ℕ) (a : Answer) : Option Tx :=
  match s.worker, a with
  | .entry, .go => some s.reset
  | .encoders again, .returned ret => some (s.initEncoders again ret)
  | .anchorEncode, .returned ret =>
    some (s.goto (if ret < 0 then .returned ret else .anchorCheck))
  | .anchorCheck, .go => some (s.checkStop .anchorAccount)
  | .anchorAccount, .go => some (s.accountAnchor.goto .anchorSend)
  | .anchorSend, .returned ret =>
    some (if ret = 0 then s.goto .anchorSent else s.refuseAnchor.goto (.returned ret))
  | .anchorSent, .go =>
    some ((s.modify 0 fun t => { t with seq := 1 }).goto
      (.anchorPoll (s.uptime + progressTimeoutMs)))
  | .anchorPoll deadline, .go => some (s.checkStop (.anchorDue deadline))
  | .anchorDue deadline, .go => some (s.pollAnchor deadline)
  | .anchorWait deadline, .go => s.woken (.anchorPoll deadline)
  | .anchorWait deadline, .timeout =>
    if deadline ≤ s.uptime then some (s.goto (.anchorPoll deadline)) else none
  | .readback, .returned ret => if ret = 0 then none else some (s.goto (.returned ret))
  | .readback, .stamp ts => some (s.anchored ts)
  | .top, .emitted e staged => some (s.turn target e staged)
  | .spaceWait _, .go => s.woken .top
  | .spaceWait deadline, .timeout =>
    if deadline.all fun d => d ≤ s.uptime then some (s.goto .top) else none
  | .encode i pin, .returned ret => some (s.encoded i pin ret)
  | .batch pin, .go => some (s.goto (.pinCheck pin (s.uptime + progressTimeoutMs)))
  | .pinCheck pin deadline, .go =>
    some (if deadline ≤ s.uptime then s.goto (.returned (-etimedout))
      else s.checkStop (.pinRead pin deadline))
  | .pinRead _ _, .returned ret => if ret = 0 then none else some (s.goto (.returned ret))
  | .pinRead pin deadline, .clock now => some (s.timePin pin deadline now)
  | .pinAdvance pin skipped deadline, .go => some (s.advancePin pin skipped deadline)
  | .pinWait pin deadline, .go => s.woken (.pinCheck pin deadline)
  | .pinWait pin deadline, .timeout => some (s.goto (.pinCheck pin deadline))
  | .gate _, .returned ret => if ret = 0 then none else some (s.goto (.returned ret))
  | .gate pin, .clock now => some (s.passGate pin now)
  | .gateAdvance pin skipped, .go =>
    some (s.advancePin pin skipped (s.uptime + progressTimeoutMs))
  | .send i pin now, .go => if pinAhead pin now < minAheadUs then some (s.late i) else none
  | .send i pin now, .returned ret =>
    if pinAhead pin now < minAheadUs then none
    else some (if ret = 0 then s.accepted i pin now else s.refused i ret)
  | .peer _, .returned ret => if ret = 0 then none else some (s.goto (.returned ret))
  | .peer pin, .clock now => some (s.goto (.send 1 pin now))
  | .drain deadline, .go => some (s.drained deadline)
  | .drainWait deadline, .go => s.woken (.drain deadline)
  | .drainWait deadline, .timeout =>
    if deadline ≤ s.uptime then some (s.goto (.drain deadline)) else none
  | .sync i, .stamp ts => some (s.synced i ts)
  | .sync i, .returned ret => if ret = 0 then none else some (s.afterSync i)
  | _, _ => none

/-! ### The other threads -/

/-- A callback that does not belong to the segment that is being transmitted. -/
def stale (s : Tx) : Bool :=
  !s.run.active || s.run.currentState = .teardown || !s.active

/-- `hil_source_app_tx_sent`. -/
def sent (s : Tx) (i : Fin 2) : Tx :=
  let anchor := !s.stale && i = 0 && s.anchorPending
  let t := if s.run.active && !anchor then s.count (.counterSentCallback i) else s
  if s.stale then t
  else if (s.stream i).outstanding = 0 then t.raise
  else
    { t.modify i fun r => { r.drop with lastActivity := s.uptime } with
      anchorPending := s.anchorPending && !anchor, readbackDue := s.readbackDue || anchor
      wake := true }

/-- `hil_app_emit_status_data`. -/
def emitStatus (s : Tx) : Emission → Tx
  | .queued => s
  | .refused => s.raise
  | .unformatted => if s.run.active then s.raise else s

/-- STOP of the configured run. -/
def stop (s : Tx) (e : Emission) : Tx :=
  let t := if s.run.active then { s with run := (s.run.call .stopRequest).1, wake := true } else s
  t.emitStatus e

/-- What happens next. -/
inductive Action where
  | work (a : Answer)
  | sent (i : Fin 2)
  | status (e : Emission)
  | stop (e : Emission)
  /-- Time passes. -/
  | tick (ms : ℕ)
  deriving DecidableEq, Repr

/-- One step of the stage; a thread that finds a mutex taken waits. -/
def next (target : ℕ) (s : Tx) : Action → Option Tx
  | .work a => s.work target a
  | .sent i => if s.worker.holdsApp then none else some (s.sent i)
  | .status e => if s.worker.holdsBatch then none else some (s.emitStatus e)
  | .stop e => if s.worker.holdsApp then none else some (s.stop e)
  | .tick ms => some { s with uptime := s.uptime + ms }

/-- The call of the stage in a run. -/
structure Called (s : Tx) : Prop where
  active : s.run.active = true
  streaming : s.run.currentState = .streaming
  scored : s.run.config.scoredSduCount ≤ maxScoredSdus
  worker : s.worker = .entry

end Tx

/-- One call of `hil_app_tx_run_controller_clock`. -/
def machine (target : ℕ) : Machine Tx Tx.Action where
  init := Tx.Called
  next := Tx.next target

end Transmit

end Hil

end LeAudioReceiver
