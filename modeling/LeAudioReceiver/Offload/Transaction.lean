import LeAudioReceiver.Offload.Lifecycle
import LeAudioReceiver.Offload.Submit

/-!
# The stages of a submit

`audio_offload_process_asrc` (`src/audio_offload.c`), stage by stage, run by any number of threads
beside the other calls and the work queue of `Offload.Lifecycle`.  A stage is one section under
`g_lock`, one call that may block, or one operation on the submit mutex, so everything else can
happen between two stages.  A transaction carries the lifecycle it has captured and its ownership
of the submit mutex, as `struct asrc_txn` does, and for the proofs how often it has locked and
unlocked the mutex and what its caller passed in.

The data comes from `Offload.Submit`; the category counters and latencies are left out.
-/

namespace LeAudioReceiver

namespace Offload

namespace Lifecycle

open Asrc (Frame AsrcState)
open FlprRing

/-! ### Transactions -/

/-- The arguments that `asrc_validate_args` looks at: pointers that are not null, and sizes. -/
structure Args where
  input : Bool
  output : Bool
  preState : Bool
  result : Bool
  inputFrames : UInt16
  outputCapacity : UInt16

/-- `asrc_validate_args`. -/
def Args.valid (a : Args) : Bool :=
  if !a.input || !a.output || !a.preState || !a.result || a.inputFrames == 0 then false
  else if a.inputFrames.toNat ≠ payloadMaxInput then false
  else if a.outputCapacity.toNat < payloadCapacityFrames then false
  else true

/-- The caller's buffers. -/
structure Buffers where
  output : List Frame
  result : AsrcResult

/-- `asrc_copy_output`. -/
def Buffers.copyOutput (b : Buffers) (cr : ConsumeAsrcResult) (scratch : List Frame) : Buffers where
  output := scratch.take cr.outputFrames.toNat ++ b.output.drop cr.outputFrames.toNat
  result := ⟨cr.outputFrames, cr.postState, cr.processingCycles⟩

/-- `struct asrc_txn`. -/
structure Txn where
  args : Args
  request : Request
  captured : Captured
  /-- `owns_submit_lock`. -/
  owns : Bool
  /-- The caller's buffers, now and at the call. -/
  buffers : Buffers
  before : Buffers
  /-- How often the call has locked and unlocked the submit mutex. -/
  locks : ℕ
  unlocks : ℕ

/-- The stages of `audio_offload_process_asrc`; `ownsMutex` is the argument of
`asrc_fault_finalize`. -/
inductive Stage where
  | validateArgs
  | precheck
  | acquireSubmit
  | postmutexRecheck
  /-- `asrc_ring_roundtrip`. -/
  | produce
  | notify
  | wait
  | recheckBefore
  | consume
  | recheckAfter (cr : ConsumeAsrcResult)
  | validateMetadata (cr : ConsumeAsrcResult)
  | shadowVerify (cr : ConsumeAsrcResult)
  | commit (cr : ConsumeAsrcResult)
  | copyOutput (cr : ConsumeAsrcResult)
  /-- `asrc_fault_finalize`. -/
  | faultFinalize (ownsMutex : Bool)
  | schedule (ownsMutex : Bool)
  | countFail (ownsMutex : Bool)
  /-- The submit mutex is unlocked and the call returns. -/
  | unlock (ret : Option Errno)

/-- `enum flpr_produce_result`. -/
inductive ProduceResult where
  | ok
  | full
  | invalid
  deriving DecidableEq, Repr

/-- What the surroundings contribute to a stage. -/
structure StageInput where
  /-- The submit mutex was locked within its deadline. -/
  locked : Bool
  produced : ProduceResult
  notified : Bool
  /-- The output arrived within its deadline. -/
  arrived : Bool
  /-- What the output ring holds, and the cycle counter. -/
  read : OutputRead
  now : UInt32
  /-- The result of `k_work_schedule_for_queue`. -/
  scheduled : Result

/-- A thread: outside of the module, in one of the other calls, in a submit, or behind one that
returned (no error is `0`). -/
inductive Thread where
  | idle
  | call (call : Call)
  | submit (stage : Stage) (t : Txn)
  | returned (ret : Option Errno) (t : Txn)

namespace Core

variable (c : Core)

/-- The section of `asrc_commit` after its check. -/
def commitSuccess : Core :=
  let c := { c with successCount := c.successCount + 1 }
  if c.probationActive then
    if c.probationSuccess + 1 ≥ probationSuccessThreshold then
      { c with
        probationSuccess := c.probationSuccess + 1
        probationActive := false
        recoveryBackoffMs := recoveryBaseMs
        recoveryTries := 0 }
    else { c with probationSuccess := c.probationSuccess + 1 }
  else c

end Core

namespace Txn

variable (t : Txn)

/-- The end of a transaction that fails: the mutex is unlocked if it is owned. -/
def fail (ownsMutex : Bool) : Thread :=
  if ownsMutex && t.owns then .submit (.unlock (some .eagain)) t else .returned (some .eagain) t

/-- The shared state, the scratch buffer and the thread after a stage; `verify` is
`CONFIG_AUDIO_OFFLOAD_ASRC_VERIFY`. -/
def step (verify : Bool) (c : Core) (scratch : List Frame) (x : StageInput) :
    Stage → Option (Core × List Frame × Thread)
  | .validateArgs =>
    if t.args.valid then some (c, scratch, .submit .precheck t)
    else some (c, scratch, .returned (some .einval) t)
  | .precheck =>
    if c.state = .stopped then some (c, scratch, .returned (some .eagain) t)
    else
      let t := { t with captured := c.capture }
      let c' := { c with submitCount := c.submitCount + 1 }
      if c.state ≠ .active then some (c'.countFallback, scratch, .returned (some .eagain) t)
      else some (c', scratch, .submit .acquireSubmit t)
  | .acquireSubmit =>
    if !x.locked then some (c, scratch, .submit (.faultFinalize false) t)
    else if c.submitLock then none
    else
      some ({ c with submitLock := true }, scratch,
        .submit .postmutexRecheck { t with owns := true, locks := t.locks + 1 })
  | .postmutexRecheck =>
    if c.state ≠ .active then some (c.countFallback, scratch, .submit (.unlock (some .eagain)) t)
    else some (c, scratch, .submit .produce { t with captured := c.capture })
  | .produce =>
    match x.produced with
    | .ok => some (c, scratch, .submit .notify t)
    | .full | .invalid => some (c, scratch, .submit (.faultFinalize true) t)
  | .notify =>
    if x.notified then some (c, scratch, .submit .wait t)
    else some (c, scratch, .submit (.faultFinalize true) t)
  | .wait =>
    if x.arrived then some (c, scratch, .submit .recheckBefore t)
    else some (c, scratch, .submit (.faultFinalize true) t)
  | .recheckBefore =>
    if c.capture ≠ t.captured then some (c.countFallback, scratch, t.fail true)
    else some (c, scratch, .submit .consume t)
  | .consume =>
    match x.read with
    | .empty | .stale => some (c, scratch, .submit (.faultFinalize true) t)
    | .slot s =>
      match consumeSlot s x.now with
      | none => some (c, scratch, .submit (.faultFinalize true) t)
      | some (cr, frames) => some (c, frames, .submit (.recheckAfter cr) t)
  | .recheckAfter cr =>
    if c.capture ≠ t.captured then some (c.countFallback, scratch, t.fail true)
    else some (c, scratch, .submit (.validateMetadata cr) t)
  | .validateMetadata cr =>
    if !Offload.validateMetadata t.request cr then
      some (c, scratch, .submit (.faultFinalize true) t)
    else some (c, scratch, .submit (if verify then .shadowVerify cr else .commit cr) t)
  | .shadowVerify cr =>
    if !Offload.shadowVerify t.request cr scratch then
      some (c, scratch, .submit (.faultFinalize true) t)
    else some (c, scratch, .submit (.commit cr) t)
  | .commit cr =>
    if c.capture ≠ t.captured then
      some (c.countFallback, scratch, .submit (.unlock (some .eagain)) t)
    else some (c.commitSuccess, scratch, .submit (.copyOutput cr) t)
  | .copyOutput cr =>
    some (c, scratch,
      .submit (.unlock none) { t with buffers := t.buffers.copyOutput cr scratch })
  | .faultFinalize ownsMutex =>
    if c.capture ≠ t.captured then some (c.countFallback, scratch, t.fail ownsMutex)
    else
      let s := c.countFallback.recordFault.trySchedule
      some (s.1, scratch, if s.2 then .submit (.schedule ownsMutex) t else t.fail ownsMutex)
  | .schedule ownsMutex =>
    some (c.scheduleRecovery x.scheduled, scratch,
      if c.recovery.rejected x.scheduled.accepted then .submit (.countFail ownsMutex) t
      else t.fail ownsMutex)
  | .countFail ownsMutex => some (c.countScheduleFail, scratch, t.fail ownsMutex)
  | .unlock ret =>
    some ({ c with submitLock := false }, scratch,
      .returned ret { t with owns := false, unlocks := t.unlocks + 1 })

end Txn

/-! ### The machine -/

/-- The module, its callers and its work queue. -/
structure TxnSys (ι : Type*) where
  core : Core
  /-- `g_asrc_scratch`. -/
  scratch : List Frame
  threads : ι → Thread
  worker : Worker

/-- What can happen next. -/
inductive TxnAction (ι : Type*) where
  /-- A thread outside of the module calls it. -/
  | enter (i : ι) (api : Api)
  | processAsrc (i : ι) (args : Args) (request : Request) (buffers : Buffers)
  /-- A thread in a call takes a step. -/
  | call (i : ι) (r : Result)
  | stage (i : ι) (x : StageInput)
  /-- The work queue takes an item. -/
  | takePrep
  | takeRecovery
  | takeIdle
  /-- The work queue's thread takes a step. -/
  | worker (r : Result)

/-- The thread is outside of the module. -/
def Thread.outside : Thread → Bool
  | .idle | .returned _ _ => true
  | .call _ | .submit _ _ => false

namespace TxnSys

variable {ι : Type*} [DecidableEq ι]

/-- One step. -/
def next (verify : Bool) (s : TxnSys ι) : TxnAction ι → Option (TxnSys ι)
  | .enter i api =>
    if (s.threads i).outside ∧ api ≠ .processAsrc then
      some { s with threads := Function.update s.threads i (.call api.first) }
    else none
  | .processAsrc i args request buffers =>
    if (s.threads i).outside then
      some { s with
        threads := Function.update s.threads i (.submit .validateArgs
          ⟨args, request, ⟨.stopped, 0, 0⟩, false, buffers, buffers, 0, 0⟩) }
    else none
  | .call i r =>
    match s.threads i with
    | .call call =>
      (s.core.call r call).map fun x =>
        { s with core := x.1, threads := Function.update s.threads i (x.2.elim .idle .call) }
    | _ => none
  | .stage i x =>
    match s.threads i with
    | .submit stage t =>
      (t.step verify s.core s.scratch x stage).map fun p =>
        { s with core := p.1, scratch := p.2.1, threads := Function.update s.threads i p.2.2 }
    | _ => none
  | .takePrep =>
    if s.worker = .idle ∧ s.core.prep.pending then
      some { s with core.prep := .taken, worker := .prep .entry }
    else none
  | .takeRecovery =>
    if s.worker = .idle ∧ s.core.recovery.pending then
      some { s with core.recovery := .taken, worker := .recovery .entry }
    else none
  | .takeIdle =>
    if s.worker = .idle ∧ s.core.idleQueued then
      some { s with core.idleQueued := false, worker := .idleRestart .entry }
    else none
  | .worker r => (s.core.work r s.worker).map fun x => { s with core := x.1, worker := x.2 }

/-- The module after its initialisation, without a call. -/
def start (ringsReady : Bool) : TxnSys ι := ⟨.init ringsReady, [], fun _ => .idle, .idle⟩

/-- The machine. -/
def machine (ι : Type*) [DecidableEq ι] (verify : Bool) : Machine (TxnSys ι) (TxnAction ι) where
  init s := ∃ ringsReady, s = start ringsReady
  next := next verify

end TxnSys

end Lifecycle

end Offload

end LeAudioReceiver
