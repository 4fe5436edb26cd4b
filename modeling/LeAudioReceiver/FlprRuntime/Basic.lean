import LeAudioReceiver.FlprRing.Slot
import LeAudioReceiver.Handshake.System

/-!
# Restarting the remote core

The model of `src/flpr_runtime.c` over the handshake: `flpr_runtime_restart` step by step, with the
run bit, the reset bit and the interrupt enables of the remote core and its execution memory.  The
callbacks of the endpoint, the heartbeat work and the clock go on between any two steps.  What the
hardware and the IPC service answer is in the actions.

Asserting reset clears the interrupt enables; enabling interrupts sets some of the bits asked for.
A second caller is refused while the first one holds the mutex.

Beside the state the system keeps the registers at the beginning of the call, and whether the
endpoint has been bound and a READY with a fresh epoch has been acknowledged since it was last
registered.

`Runtime.Step` has one constructor for each way in which a step can go (`Runtime.step_of_next`).
-/

namespace LeAudioReceiver

namespace FlprRuntime

open FlprRing (crc32)
open Handshake (Sys)

/-- `EIO`. -/
def eio : ℤ := 5

/-- `EAGAIN`. -/
def eagain : ℤ := 11

/-- `EBUSY`. -/
def ebusy : ℤ := 16

/-- `ECANCELED`. -/
def ecanceled : ℤ := 140

/-- `EXEC_BASE`. -/
def execBase : UInt32 := 0x20030000

/-- `enum flpr_runtime_state`. -/
inductive RuntimeState where
  | idle
  | busy
  | unavailable
  deriving DecidableEq, Repr

/-- `enum flpr_runtime_stage`. -/
inductive Stage where
  | disconnect
  | stop
  | assertReset
  | copy
  | flushBarrier
  | crcVerify
  | initpc
  | reconnect
  | startCpurun
  | releaseReset
  | waitBound
  | waitReady
  | success
  deriving DecidableEq, Repr

/-- `struct flpr_runtime_status` without the readbacks. -/
structure Status where
  state : RuntimeState
  failedStage : Stage
  requests : UInt32
  successCount : UInt32
  failCount : UInt32
  busyReject : UInt32
  previousEpoch : UInt32
  newEpoch : UInt32
  reloadBytes : UInt32
  sourceCrc : UInt32
  executionCrc : UInt32
  lastErrno : ℤ
  totalDurationMs : UInt32
  maxDurationMs : UInt32
  deriving DecidableEq, Repr

/-- The registers of the remote core. -/
structure Vpr where
  cpurun : Bool
  /-- `NDMRESET`. -/
  reset : Bool
  /-- The enabled interrupts. -/
  inten : UInt32
  initpc : UInt32
  deriving DecidableEq, Repr

namespace Vpr

/-- `nrf_vpr_debugif_dmcontrol_mask_set` with `DMCONTROL_RESET_ASSERT`. -/
def assertReset (v : Vpr) : Vpr := { v with reset := true, inten := 0 }

/-- `nrf_vpr_debugif_dmcontrol_mask_set` with `DMCONTROL_RESET_RELEASE`. -/
def releaseReset (v : Vpr) : Vpr := { v with reset := false }

end Vpr

/-- Where the restarting thread is; in brackets what the call will return. -/
inductive Pc where
  | idle
  | snapshot
  | sourceCrc
  | disconnect
  | drainBound
  | cancel
  | deregister
  | stop
  | retention
  | assertReset
  | copy
  | verify
  | initpc
  | cpurun
  | release
  | intEnable
  | intCheck
  | reconnect
  | reconnectDrain
  | admitSession
  | register
  | rollback (ret : ℤ)
  | rollbackCancel (ret : ℤ)
  | rollbackBound (ret : ℤ)
  | rollbackDrain (ret : ℤ)
  | waitBound
  | repost
  | waitReady
  | readyWaiting
  | readyDrain
  | success
  | failStop (ret : ℤ)
  | failReset (ret : ℤ)
  | fail (ret : ℤ)
  deriving DecidableEq, Repr

/-- Where the thread is when `flpr_handshake_wait_new_ready` waits or knows its result. -/
def Pc.waiting : Handshake.CtlPc → Pc
  | .succeeding _ => .readyDrain
  | .waiting _ => .readyWaiting
  | _ => .failStop (-ecanceled)

/-- The manager, the handshake and the remote core. -/
structure Runtime where
  hs : Sys
  /-- The count of `bound_sem`, at most one. -/
  boundSem : Bool
  vpr : Vpr
  /-- The execution memory. -/
  exec : List UInt8
  /-- As many bytes of the source memory. -/
  source : List UInt8
  savedMask : UInt32
  status : Status
  pc : Pc
  /-- The variables of the call. -/
  timeoutMs : UInt32
  startMs : UInt32
  epochBefore : UInt32
  expectedCrc : UInt32
  /-- What the last call has returned. -/
  result : ℤ
  /-- The registers when the call began. -/
  entry : Vpr
  /-- The interrupts that were enabled at initialisation. -/
  configured : UInt32
  /-- The endpoint has been bound since `flpr_handshake_reconnect` emptied its semaphore. -/
  bound : Bool
  /-- The READY handled last has another epoch than those before, and came in this session. -/
  fresh : Bool
  /-- READY_ACK has been sent to such a READY. -/
  readied : Bool

/-- The steps; an action of the handshake is one of its other contexts. -/
inductive Action where
  | env (a : Handshake.Action)
  | call (timeoutMs : UInt32)
  /-- A second caller gives up on the mutex. -/
  | busy
  /-- The restarting thread goes on where nothing is open. -/
  | run
  | deregister (ret : ℤ)
  /-- The readback says that the context is not retained. -/
  | retention (cleared : Bool)
  /-- What the copy leaves in the execution memory. -/
  | copy (image : List UInt8)
  /-- The bits that are taken over. -/
  | intEnable (taken : UInt32)
  | install
  | register (ret : ℤ)
  | boundTimeout
  | readyTimeout
  deriving DecidableEq

/-- An action of the callbacks, of the heartbeat work or of the clock. -/
def isEnv : Handshake.Action → Bool
  | .disconnect | .cancel | .deregister _ | .reconnect | .makeAvailable | .install | .register _
  | .rollback | .drain | .wait _ | .take | .timeout => false
  | _ => true

namespace Runtime

variable (s : Runtime)

/-- `k_uptime_get_32`. -/
def uptime : UInt32 := UInt32.ofNat s.hs.clock

/-- The status at another stage. -/
def stage (failedStage : Stage) : Status := { s.status with failedStage := failedStage }

/-- A step of the handshake in the restarting thread. -/
def ctl (a : Handshake.Action) (pc : Pc) : Option Runtime :=
  (s.hs.ctlNext a).map fun hs => { s with hs := hs, pc := pc }

/-- Whether the READY handled last announces another epoch, after a step of the callback. -/
def freshAfter (a : Handshake.Action) : Bool :=
  match a, s.hs.rx with
  | .rxHandle, .validated m _ => m.type = Handshake.msgReady ∧ m.data ≠ s.hs.peer.epoch
  | _, _ => s.fresh

/-- Whether READY_ACK has been sent to such a READY, after a step of the callback. -/
def readiedAfter (a : Handshake.Action) : Bool :=
  match a, s.hs.rx with
  | .rxSend true, .acking _ _ _ => s.readied || s.fresh
  | _, _ => s.readied

/-- What a step of another context leaves; it gives a semaphore when the endpoint is bound. -/
def after (a : Handshake.Action) (hs : Sys) : Runtime :=
  { s with
    hs := hs
    boundSem := s.boundSem || a = .epBound
    bound := s.bound || a = .epBound
    fresh := s.freshAfter a
    readied := s.readiedAfter a }

/-- A step of another context. -/
def env (a : Handshake.Action) : Option Runtime :=
  if isEnv a then (s.hs.next a).map (s.after a) else none

/-- The beginning of `flpr_runtime_restart`. -/
def begin (timeoutMs : UInt32) : Runtime :=
  { s with
    status := { s.status with state := .busy, requests := s.status.requests + 1 }
    savedMask := if s.vpr.inten ≠ 0 then s.vpr.inten else s.savedMask
    timeoutMs := timeoutMs
    startMs := s.uptime
    entry := s.vpr
    pc := .snapshot }

/-- The duration of the call counts. -/
def account : Status :=
  let duration := s.uptime - s.startMs
  { s.status with
    totalDurationMs := s.status.totalDurationMs + duration
    maxDurationMs :=
      if duration > s.status.maxDurationMs then duration else s.status.maxDurationMs }

/-- Stage 13. -/
def succeed : Runtime :=
  { s with
    status := { s.account with
      failedStage := .success, newEpoch := s.hs.peer.epoch
      successCount := s.status.successCount + 1, lastErrno := 0, state := .idle }
    result := 0
    pc := .idle }

/-- What stands behind the label `fail`. -/
def giveUp (ret : ℤ) : Runtime :=
  { s with
    status := { s.account with
      lastErrno := ret, failCount := s.status.failCount + 1, state := .unavailable }
    result := ret
    pc := .idle }

/-- What `k_sem_take` returns at the end of half the timeout. -/
def timedOut : ℤ := if s.timeoutMs / 2 = 0 then -ebusy else -eagain

/-- `flpr_handshake_wait_new_ready`, until it waits or knows its result. -/
def waitReady : Option Runtime :=
  (s.hs.ctlNext (.wait s.epochBefore)).map fun hs =>
    { s with hs := hs, status := s.stage .waitReady, pc := .waiting hs.ctl }

/-- The restarting thread goes on where nothing is open. -/
def run : Option Runtime :=
  match s.pc with
  | .idle | .deregister | .retention | .copy | .intEnable | .register => none
  | .snapshot =>
    some { s with
      epochBefore := s.hs.peer.epoch
      status := { s.status with previousEpoch := s.hs.peer.epoch }
      pc := .sourceCrc }
  | .sourceCrc =>
    some { s with
      expectedCrc := crc32 s.source
      status := { s.stage .disconnect with sourceCrc := crc32 s.source }
      pc := .disconnect }
  | .disconnect => s.ctl .disconnect .drainBound
  | .drainBound => some { s with boundSem := false, pc := .cancel }
  | .cancel => s.ctl .cancel .deregister
  | .stop =>
    some { s with vpr := { s.vpr with cpurun := false }, status := s.stage .stop, pc := .retention }
  | .assertReset => some { s with vpr := s.vpr.assertReset, pc := .copy }
  | .verify =>
    -- the caches are flushed before
    some { s with
      status := { s.stage .crcVerify with executionCrc := crc32 s.exec }
      pc := if s.expectedCrc = crc32 s.exec then .initpc else .fail (-eio) }
  | .initpc =>
    some { s with
      vpr := { s.vpr with initpc := execBase }, status := s.stage .initpc, pc := .cpurun }
  | .cpurun =>
    some { s with
      vpr := { s.vpr with cpurun := true }, status := s.stage .startCpurun, pc := .release }
  | .release =>
    some { s with vpr := s.vpr.releaseReset, status := s.stage .releaseReset, pc := .intEnable }
  | .intCheck =>
    some { s with
      pc := if s.vpr.inten &&& s.savedMask = s.savedMask then .reconnect else .failStop (-eio) }
  | .reconnect => some { s with boundSem := false, bound := false, pc := .reconnectDrain }
  | .reconnectDrain => s.ctl .reconnect .admitSession
  | .admitSession => { s with fresh := false, readied := false }.ctl .makeAvailable .register
  | .rollback ret => s.ctl .rollback (.rollbackCancel ret)
  | .rollbackCancel ret => s.ctl .cancel (.rollbackBound ret)
  | .rollbackBound ret => some { s with boundSem := false, pc := .rollbackDrain ret }
  | .rollbackDrain ret => s.ctl .drain (.failStop ret)
  | .waitBound => if s.boundSem then some { s with boundSem := false, pc := .repost } else none
  | .repost => some { s with boundSem := true, pc := .waitReady }
  | .waitReady => s.waitReady
  | .readyWaiting => s.ctl .take .readyDrain
  | .readyDrain => s.ctl .drain .success
  | .success => some s.succeed
  | .failStop ret => some { s with vpr := { s.vpr with cpurun := false }, pc := .failReset ret }
  | .failReset ret => some { s with vpr := s.vpr.assertReset, pc := .fail ret }
  | .fail ret => some (s.giveUp ret)

/-- One step. -/
def next : Action → Option Runtime
  | .env a => s.env a
  | .call timeoutMs => if s.pc = .idle then some (s.begin timeoutMs) else none
  | .busy =>
    if s.pc = .idle then none
    else some { s with status := { s.status with busyReject := s.status.busyReject + 1 } }
  | .run => s.run
  | .deregister ret =>
    if s.pc = .deregister then
      s.ctl (.deregister (0 ≤ ret)) (if ret < 0 then .fail ret else .stop)
    else none
  | .retention cleared =>
    if s.pc = .retention then
      some { s with
        status := s.stage .assertReset
        pc := if cleared then .assertReset else .failStop (-eio) }
    else none
  | .copy image =>
    if s.pc = .copy then
      some { s with
        exec := image
        status := { s.stage .copy with reloadBytes := UInt32.ofNat s.source.length }
        pc := .verify }
    else none
  | .intEnable taken =>
    if s.pc = .intEnable then
      some { s with
        vpr := { s.vpr with inten := s.vpr.inten ||| (s.savedMask &&& taken) }
        status := s.stage .reconnect
        pc := .intCheck }
    else none
  | .install => if s.pc = .register then s.ctl .install .register else none
  | .register ret =>
    if s.pc = .register then
      if ret < 0 then s.ctl (.register false) (.rollback ret)
      else { s with status := s.stage .waitBound }.ctl (.register true) .waitBound
    else none
  | .boundTimeout =>
    if s.pc = .waitBound then some { s with pc := .failStop s.timedOut } else none
  | .readyTimeout =>
    if s.pc = .readyWaiting then s.ctl .timeout (.failStop s.timedOut) else none

/-- After `flpr_handshake_init` and `flpr_runtime_init`. -/
structure Start (s : Runtime) : Prop where
  hs : Handshake.Sys.Start s.hs
  saved : s.savedMask = s.vpr.inten
  configured : s.configured = s.vpr.inten
  requests : s.status.requests = 0
  successCount : s.status.successCount = 0
  failCount : s.status.failCount = 0
  pc : s.pc = .idle

/-- All runs. -/
def machine : Machine Runtime Action := ⟨Start, next⟩

/-! ### The ways in which a step can go -/

/-- The steps of the handshake with which the restarting thread goes on to another place. -/
inductive CtlMove : Pc → Action → Handshake.Action → Pc → Prop
  | disconnect : CtlMove .disconnect .run .disconnect .drainBound
  | cancel : CtlMove .cancel .run .cancel .deregister
  | deregister {ret : ℤ} : 0 ≤ ret →
      CtlMove .deregister (.deregister ret) (.deregister true) .stop
  | deregisterFailed {ret : ℤ} : ret < 0 →
      CtlMove .deregister (.deregister ret) (.deregister false) (.fail ret)
  | reconnect : CtlMove .reconnectDrain .run .reconnect .admitSession
  | install : CtlMove .register .install .install .register
  | registerFailed {ret : ℤ} : ret < 0 →
      CtlMove .register (.register ret) (.register false) (.rollback ret)
  | rollback (ret : ℤ) : CtlMove (.rollback ret) .run .rollback (.rollbackCancel ret)
  | rollbackCancel (ret : ℤ) : CtlMove (.rollbackCancel ret) .run .cancel (.rollbackBound ret)
  | rollbackDrain (ret : ℤ) : CtlMove (.rollbackDrain ret) .run .drain (.failStop ret)
  | take : CtlMove .readyWaiting .run .take .readyDrain
  | readyDrain : CtlMove .readyDrain .run .drain .success

/-- What a step can be, with the guard under which it is taken. -/
inductive Step (s : Runtime) : Action → Runtime → Prop
  | env {b : Handshake.Action} {hs : Sys} : isEnv b = true → s.hs.next b = some hs →
      Step s (.env b) (s.after b hs)
  | call (timeoutMs : UInt32) : s.pc = .idle → Step s (.call timeoutMs) (s.begin timeoutMs)
  | busy : s.pc ≠ .idle →
      Step s .busy { s with status := { s.status with busyReject := s.status.busyReject + 1 } }
  | ctl {pc pc' : Pc} {a : Action} {b : Handshake.Action} {hs : Sys} : s.pc = pc →
      CtlMove pc a b pc' → s.hs.ctlNext b = some hs → Step s a { s with hs := hs, pc := pc' }
  | snapshot : s.pc = .snapshot →
      Step s .run { s with
        epochBefore := s.hs.peer.epoch
        status := { s.status with previousEpoch := s.hs.peer.epoch }
        pc := .sourceCrc }
  | sourceCrc : s.pc = .sourceCrc →
      Step s .run { s with
        expectedCrc := crc32 s.source
        status := { s.stage .disconnect with sourceCrc := crc32 s.source }
        pc := .disconnect }
  | drainBound : s.pc = .drainBound → Step s .run { s with boundSem := false, pc := .cancel }
  | stop : s.pc = .stop →
      Step s .run
        { s with vpr := { s.vpr with cpurun := false }, status := s.stage .stop, pc := .retention }
  | cleared : s.pc = .retention →
      Step s (.retention true) { s with status := s.stage .assertReset, pc := .assertReset }
  | retained : s.pc = .retention →
      Step s (.retention false) { s with status := s.stage .assertReset, pc := .failStop (-eio) }
  | assertReset : s.pc = .assertReset →
      Step s .run { s with vpr := s.vpr.assertReset, pc := .copy }
  | copy (image : List UInt8) : s.pc = .copy →
      Step s (.copy image) { s with
        exec := image
        status := { s.stage .copy with reloadBytes := UInt32.ofNat s.source.length }
        pc := .verify }
  | verified : s.pc = .verify → s.expectedCrc = crc32 s.exec →
      Step s .run { s with
        status := { s.stage .crcVerify with executionCrc := crc32 s.exec }, pc := .initpc }
  | corrupted : s.pc = .verify → s.expectedCrc ≠ crc32 s.exec →
      Step s .run { s with
        status := { s.stage .crcVerify with executionCrc := crc32 s.exec }, pc := .fail (-eio) }
  | initpc : s.pc = .initpc →
      Step s .run { s with
        vpr := { s.vpr with initpc := execBase }, status := s.stage .initpc, pc := .cpurun }
  | cpurun : s.pc = .cpurun →
      Step s .run { s with
        vpr := { s.vpr with cpurun := true }, status := s.stage .startCpurun, pc := .release }
  | release : s.pc = .release →
      Step s .run
        { s with vpr := s.vpr.releaseReset, status := s.stage .releaseReset, pc := .intEnable }
  | intEnable (taken : UInt32) : s.pc = .intEnable →
      Step s (.intEnable taken) { s with
        vpr := { s.vpr with inten := s.vpr.inten ||| (s.savedMask &&& taken) }
        status := s.stage .reconnect
        pc := .intCheck }
  | intKept : s.pc = .intCheck → s.vpr.inten &&& s.savedMask = s.savedMask →
      Step s .run { s with pc := .reconnect }
  | intLost : s.pc = .intCheck → s.vpr.inten &&& s.savedMask ≠ s.savedMask →
      Step s .run { s with pc := .failStop (-eio) }
  | reconnect : s.pc = .reconnect →
      Step s .run { s with boundSem := false, bound := false, pc := .reconnectDrain }
  | admitSession {hs : Sys} : s.pc = .admitSession → s.hs.ctlNext .makeAvailable = some hs →
      Step s .run { s with hs := hs, fresh := false, readied := false, pc := .register }
  | register {ret : ℤ} {hs : Sys} : s.pc = .register → 0 ≤ ret →
      s.hs.ctlNext (.register true) = some hs →
      Step s (.register ret) { s with hs := hs, status := s.stage .waitBound, pc := .waitBound }
  | rollbackBound {ret : ℤ} : s.pc = .rollbackBound ret →
      Step s .run { s with boundSem := false, pc := .rollbackDrain ret }
  | bound : s.pc = .waitBound → s.boundSem = true →
      Step s .run { s with boundSem := false, pc := .repost }
  | boundTimeout : s.pc = .waitBound → Step s .boundTimeout { s with pc := .failStop s.timedOut }
  | repost : s.pc = .repost → Step s .run { s with boundSem := true, pc := .waitReady }
  | waitReady {hs : Sys} : s.pc = .waitReady →
      s.hs.ctlNext (.wait s.epochBefore) = some hs →
      Step s .run { s with hs := hs, status := s.stage .waitReady, pc := Pc.waiting hs.ctl }
  | readyTimeout {hs : Sys} : s.pc = .readyWaiting → s.hs.ctlNext .timeout = some hs →
      Step s .readyTimeout { s with hs := hs, pc := .failStop s.timedOut }
  | success : s.pc = .success → Step s .run s.succeed
  | failStop {ret : ℤ} : s.pc = .failStop ret →
      Step s .run { s with vpr := { s.vpr with cpurun := false }, pc := .failReset ret }
  | failReset {ret : ℤ} : s.pc = .failReset ret →
      Step s .run { s with vpr := s.vpr.assertReset, pc := .fail ret }
  | fail {ret : ℤ} : s.pc = .fail ret → Step s .run (s.giveUp ret)

section Steps

variable {s : Runtime} {s' : Runtime} {a : Action}

theorem step_of_ctl {pc pc' : Pc} {b : Handshake.Action} (hpc : s.pc = pc)
    (hmove : CtlMove pc a b pc') (hs : s.ctl b pc' = some s') : Step s a s' := by
  obtain ⟨hs', hnext, rfl⟩ := Option.map_eq_some_iff.1 hs
  exact .ctl hpc hmove hnext

theorem step_of_run (hs : s.run = some s') : Step s .run s' := by
  cases hpc : s.pc <;> simp only [run, hpc, reduceCtorEq] at hs
  case disconnect => exact step_of_ctl hpc .disconnect hs
  case cancel => exact step_of_ctl hpc .cancel hs
  case reconnectDrain => exact step_of_ctl hpc .reconnect hs
  case rollback ret => exact step_of_ctl hpc (.rollback ret) hs
  case rollbackCancel ret => exact step_of_ctl hpc (.rollbackCancel ret) hs
  case rollbackDrain ret => exact step_of_ctl hpc (.rollbackDrain ret) hs
  case readyWaiting => exact step_of_ctl hpc .take hs
  case readyDrain => exact step_of_ctl hpc .readyDrain hs
  case admitSession =>
    obtain ⟨hs', hnext, rfl⟩ := Option.map_eq_some_iff.1 hs
    exact .admitSession hpc hnext
  case waitReady =>
    obtain ⟨hs', hnext, rfl⟩ := Option.map_eq_some_iff.1 hs
    exact .waitReady hpc hnext
  case waitBound =>
    split_ifs at hs with hsem
    exact Option.some.inj hs ▸ .bound hpc hsem
  case verify =>
    obtain rfl := Option.some.inj hs
    by_cases hcrc : s.expectedCrc = crc32 s.exec
    · rw [if_pos hcrc]
      exact .verified hpc hcrc
    · rw [if_neg hcrc]
      exact .corrupted hpc hcrc
  case intCheck =>
    obtain rfl := Option.some.inj hs
    by_cases hmask : s.vpr.inten &&& s.savedMask = s.savedMask
    · rw [if_pos hmask]
      exact .intKept hpc hmask
    · rw [if_neg hmask]
      exact .intLost hpc hmask
  all_goals obtain rfl := Option.some.inj hs
  case snapshot => exact .snapshot hpc
  case sourceCrc => exact .sourceCrc hpc
  case drainBound => exact .drainBound hpc
  case stop => exact .stop hpc
  case assertReset => exact .assertReset hpc
  case initpc => exact .initpc hpc
  case cpurun => exact .cpurun hpc
  case release => exact .release hpc
  case reconnect => exact .reconnect hpc
  case rollbackBound => exact .rollbackBound hpc
  case repost => exact .repost hpc
  case success => exact .success hpc
  case failStop => exact .failStop hpc
  case failReset => exact .failReset hpc
  case fail => exact .fail hpc

theorem step_of_next (hs : s.next a = some s') : Step s a s' := by
  cases a with simp only [next] at hs
  | env b =>
    unfold env at hs
    split_ifs at hs with henv
    obtain ⟨hs', hnext, rfl⟩ := Option.map_eq_some_iff.1 hs
    exact .env henv hnext
  | run => exact step_of_run hs
  | call timeoutMs =>
    split_ifs at hs with hpc
    exact Option.some.inj hs ▸ .call timeoutMs hpc
  | busy =>
    split_ifs at hs with hpc
    exact Option.some.inj hs ▸ .busy hpc
  | deregister ret =>
    split_ifs at hs with hpc hret
    · rw [decide_eq_false (not_le.2 hret)] at hs
      exact step_of_ctl hpc (.deregisterFailed hret) hs
    · rw [decide_eq_true (not_lt.1 hret)] at hs
      exact step_of_ctl hpc (.deregister (not_lt.1 hret)) hs
  | retention cleared =>
    split_ifs at hs with hpc hcleared <;> obtain rfl := Option.some.inj hs
    · subst hcleared
      exact .cleared hpc
    · obtain rfl := Bool.eq_false_of_not_eq_true hcleared
      exact .retained hpc
  | copy image =>
    split_ifs at hs with hpc
    exact Option.some.inj hs ▸ .copy image hpc
  | intEnable taken =>
    split_ifs at hs with hpc
    exact Option.some.inj hs ▸ .intEnable taken hpc
  | install =>
    split_ifs at hs with hpc
    exact step_of_ctl hpc .install hs
  | register ret =>
    split_ifs at hs with hpc hret
    · exact step_of_ctl hpc (.registerFailed hret) hs
    · obtain ⟨hs', hnext, rfl⟩ := Option.map_eq_some_iff.1 hs
      exact .register hpc (not_lt.1 hret) hnext
  | boundTimeout =>
    split_ifs at hs with hpc
    exact Option.some.inj hs ▸ .boundTimeout hpc
  | readyTimeout =>
    split_ifs at hs with hpc
    obtain ⟨hs', hnext, rfl⟩ := Option.map_eq_some_iff.1 hs
    exact .readyTimeout hpc hnext

end Steps

end Runtime

end FlprRuntime

end LeAudioReceiver
