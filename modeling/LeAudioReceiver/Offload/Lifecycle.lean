import LeAudioReceiver.Machine.Basic
import LeAudioReceiver.WorkQueue.Basic
import Mathlib.Logic.Function.Basic

/-!
# The lifecycle of the offload

A model of the state machine in `src/audio_offload.c`: the states STOPPED, PREPARING, ACTIVE,
RECOVERING and FALLBACK, the public calls that drive it from any number of threads, and the
dedicated work queue with its three handlers.  A step is one section under the spinlock `g_lock`,
one call of the kernel, or one blocking exchange with the other core; `Result` is what a call
returns.

Left out are the diagnostic counters and latencies that no branch reads, and the audio data of a
submit, whose outcome is arbitrary here.  The module is initialised before Bluetooth advertises, so
the guards on `g_initialized` always pass.
-/

namespace LeAudioReceiver

namespace Offload

namespace Lifecycle

open WorkQueue

/-- `enum audio_offload_state`. -/
inductive State where
  | stopped
  | preparing
  | active
  | recovering
  | fallback
  deriving DecidableEq, Repr

/-- `OFFLOAD_RECOVERY_BASE_MS`. -/
def recoveryBaseMs : ℕ := 100

/-- `OFFLOAD_RECOVERY_MAX_MS`. -/
def recoveryMaxMs : ℕ := 5000

/-- `OFFLOAD_RECOVERY_MAX_TRIES`. -/
def recoveryMaxTries : ℕ := 5

/-- `OFFLOAD_PREP_MAX_TRIES`. -/
def prepMaxTries : ℕ := 5

/-- `PROBATION_SUCCESS_THRESHOLD`. -/
def probationSuccessThreshold : ℕ := 100

/-- The module state, the work items and the submit mutex. -/
structure Core where
  state : State
  /-- `g_generation`. -/
  generation : UInt32
  /-- `g_stream_epoch`. -/
  streamEpoch : UInt32
  ringsReady : Bool
  prepTries : ℕ
  prepBackoffMs : ℕ
  recoveryTries : ℕ
  recoveryBackoffMs : ℕ
  probationActive : Bool
  probationSuccess : ℕ
  recoveryScheduled : Bool
  idleRestartPending : Bool
  /-- `recovery_schedule_fail_count`. -/
  scheduleFails : ℕ
  /-- The counters of `g_asrc_stats`. -/
  submitCount : ℕ
  successCount : ℕ
  fallbackCount : ℕ
  prep : Item
  recovery : Item
  /-- `g_idle_restart_work` is queued. -/
  idleQueued : Bool
  /-- `g_submit_lock` is held. -/
  submitLock : Bool
  deriving DecidableEq

/-- What a call returns: success with a value, or a failure. -/
inductive Result where
  | ok (value : UInt32)
  | fail
  deriving DecidableEq, Repr

/-- The call succeeded. -/
def Result.accepted : Result → Bool
  | .ok _ => true
  | .fail => false

/-! ### Program counters -/

/-- `offload_health_transition_cb`. -/
inductive HealthPc where
  | lock
  /-- `k_work_schedule_for_queue` in `recovery_try_schedule_unlock`. -/
  | schedule
  /-- The failure of it is counted. -/
  | countFail
  | submitIdle
  | clearIdle
  deriving DecidableEq, Repr

/-- The lifecycle a submit has captured. -/
structure Captured where
  state : State
  generation : UInt32
  epoch : UInt32
  deriving DecidableEq, Repr

/-- `audio_offload_process_asrc`; `owns` is the ownership of the submit mutex. -/
inductive SubmitPc where
  | precheck
  | acquire (t : Captured)
  | postmutex (t : Captured)
  /-- Ring roundtrip and validation. -/
  | work (t : Captured)
  /-- `asrc_recheck_lifecycle` before and after the output is consumed. -/
  | recheck (t : Captured)
  /-- `asrc_fault_finalize`. -/
  | fault (t : Captured) (owns : Bool)
  | schedule (owns : Bool)
  | countFail (owns : Bool)
  | commit (t : Captured)
  deriving DecidableEq, Repr

/-- A public call in progress. -/
inductive Call where
  /-- `audio_offload_stream_start`. -/
  | startCancelRecovery
  | startCancelPrep
  | startLock
  | startSchedule
  /-- `audio_offload_stream_stop`. -/
  | stopCancelRecovery
  | stopCancelPrep
  | stopLock
  | health (pc : HealthPc)
  | submit (pc : SubmitPc)
  deriving DecidableEq, Repr

/-- `prep_work_fn`; `g` is its `start_gen`. -/
inductive PrepPc where
  | entry
  | rings (g : UInt32)
  | reset (g : UInt32)
  | commit (g epoch : UInt32)
  | retry (g : UInt32)
  | schedule (g : UInt32)
  | finish
  deriving DecidableEq, Repr

/-- `recovery_work_fn`; `g` is its `start_gen`. -/
inductive RecoveryPc where
  | entry
  | shortReset (g : UInt32)
  | verify (g : UInt32)
  | restart (g : UInt32)
  | restartFailed (g : UInt32)
  | rings (g : UInt32)
  | reset (g : UInt32)
  | commit (g epoch : UInt32)
  | retry (g : UInt32)
  | schedule (g : UInt32)
  | finish
  deriving DecidableEq, Repr

/-- `idle_restart_work_fn`. -/
inductive IdlePc where
  | entry
  | restart
  | done (ringsOk : Bool)
  | clear
  | health (pc : HealthPc)
  | finish
  deriving DecidableEq, Repr

/-- The thread of the work queue. -/
inductive Worker where
  | idle
  | prep (pc : PrepPc)
  | recovery (pc : RecoveryPc)
  | idleRestart (pc : IdlePc)
  deriving DecidableEq, Repr

namespace Core

variable (c : Core)

/-! ### Sections under the spinlock -/

/-- A doubled backoff. -/
def doubleBackoff (ms : ℕ) : ℕ := if ms * 2 > recoveryMaxMs then recoveryMaxMs else ms * 2

/-- The part of `recovery_try_schedule_unlock` under the lock. -/
def trySchedule : Core × Bool :=
  if c.state = .recovering ∧ c.recoveryScheduled = false then
    ({ c with recoveryScheduled := true }, true)
  else (c, false)

/-- The failure branch of `recovery_try_schedule_unlock`. -/
def countScheduleFail : Core :=
  { c with recoveryScheduled := false, scheduleFails := c.scheduleFails + 1 }

/-- `record_fault`. -/
def recordFault : Core :=
  { c with
    state := .recovering
    recoveryBackoffMs :=
      if c.probationActive then doubleBackoff c.recoveryBackoffMs else c.recoveryBackoffMs }

/-- The lifecycle that a submit captures. -/
def capture : Captured := ⟨c.state, c.generation, c.streamEpoch⟩

/-- The reset of the recovery state by a start and by a stop. -/
def resetPolicy : Core :=
  { c with
    prepTries := 0
    prepBackoffMs := recoveryBaseMs
    recoveryTries := 0
    recoveryBackoffMs := recoveryBaseMs
    probationActive := false
    probationSuccess := 0
    recoveryScheduled := false }

/-- The section of `audio_offload_stream_start`. -/
def startLocked : Core :=
  { c.resetPolicy with state := .preparing, generation := c.generation + 1 }

/-- The section of `audio_offload_stream_stop`. -/
def stopLocked : Core :=
  { c.resetPolicy with state := .stopped, generation := c.generation + 1, streamEpoch := 0 }

/-- `k_work_schedule_for_queue` for the preparation. -/
def schedulePrep (r : Result) : Core := { c with prep := c.prep.schedule r.accepted }

/-- `k_work_schedule_for_queue` for the recovery. -/
def scheduleRecovery (r : Result) : Core := { c with recovery := c.recovery.schedule r.accepted }

/-! ### Calls -/

/-- `offload_health_transition_cb`. -/
def health (r : Result) : HealthPc → Core × Option HealthPc
  | .lock =>
    match c.state with
    | .active | .preparing =>
      let t := { c with state := .recovering }.trySchedule
      (t.1, if t.2 then some .schedule else none)
    | .recovering => (c, none)
    | .stopped =>
      if c.idleRestartPending then (c, none)
      else ({ c with idleRestartPending := true }, some .submitIdle)
    | .fallback => (c, none)
  | .schedule =>
    (c.scheduleRecovery r, if c.recovery.rejected r.accepted then some .countFail else none)
  | .countFail => (c.countScheduleFail, none)
  | .submitIdle =>
    match r with
    | .ok _ => ({ c with idleQueued := true }, none)
    | .fail => (c, some .clearIdle)
  | .clearIdle =>
    ({ c with idleRestartPending := false, scheduleFails := c.scheduleFails + 1 }, none)

/-- The end of a submit; the mutex is released by its owner. -/
def endSubmit (owns : Bool) : Core := if owns then { c with submitLock := false } else c

/-- A submit that fell back. -/
def countFallback : Core := { c with fallbackCount := c.fallbackCount + 1 }

/-- `audio_offload_process_asrc` behind its argument checks. -/
def submit (r : Result) : SubmitPc → Option (Core × Option SubmitPc)
  | .precheck =>
    if c.state = .stopped then some (c, none)
    else
      let c' := { c with submitCount := c.submitCount + 1 }
      if c.state ≠ .active then some (c'.countFallback, none)
      else some (c', some (.acquire c.capture))
  | .acquire t =>
    match r with
    | .fail => some (c, some (.fault t false))
    | .ok _ =>
      if c.submitLock then none else some ({ c with submitLock := true }, some (.postmutex t))
  | .postmutex _ =>
    if c.state ≠ .active then some (c.countFallback.endSubmit true, none)
    else some (c, some (.work c.capture))
  | .work t =>
    -- any outcome of the roundtrip and the validation
    match r with
    | .fail => some (c, some (.fault t true))
    | .ok v => some (c, some (if v = 0 then .recheck t else .commit t))
  | .recheck t =>
    if c.capture ≠ t then some (c.countFallback.endSubmit true, none) else some (c, some (.work t))
  | .fault t owns =>
    if c.capture ≠ t then some (c.countFallback.endSubmit owns, none)
    else
      let s := c.countFallback.recordFault.trySchedule
      if s.2 then some (s.1, some (.schedule owns)) else some (s.1.endSubmit owns, none)
  | .schedule owns =>
    if c.recovery.rejected r.accepted then some (c.scheduleRecovery r, some (.countFail owns))
    else some ((c.scheduleRecovery r).endSubmit owns, none)
  | .countFail owns => some (c.countScheduleFail.endSubmit owns, none)
  | .commit t =>
    if c.capture ≠ t then some (c.countFallback.endSubmit true, none)
    else
      let c := { c with successCount := c.successCount + 1 }
      let c :=
        if c.probationActive then
          if c.probationSuccess + 1 ≥ probationSuccessThreshold then
            { c with
              probationSuccess := c.probationSuccess + 1
              probationActive := false
              recoveryBackoffMs := recoveryBaseMs
              recoveryTries := 0 }
          else { c with probationSuccess := c.probationSuccess + 1 }
        else c
      some (c.endSubmit true, none)

/-- A step of a public call. -/
def call (r : Result) : Call → Option (Core × Option Call)
  | .startCancelRecovery => some ({ c with recovery := c.recovery.cancel }, some .startCancelPrep)
  | .startCancelPrep => some ({ c with prep := c.prep.cancel }, some .startLock)
  | .startLock => some (c.startLocked, some .startSchedule)
  | .startSchedule => some (c.schedulePrep r, none)
  | .stopCancelRecovery => some ({ c with recovery := c.recovery.cancel }, some .stopCancelPrep)
  | .stopCancelPrep => some ({ c with prep := c.prep.cancel }, some .stopLock)
  | .stopLock => some (c.stopLocked, none)
  | .health pc => let s := c.health r pc; some (s.1, s.2.map .health)
  | .submit pc => (c.submit r pc).map fun s => (s.1, s.2.map .submit)

/-! ### Work handlers -/

/-- The epoch made from the cycle counter. -/
def epochOf (cycles : UInt32) : UInt32 := (if cycles = 0 then 1 else cycles) &&& 0x7FFFFFFF

/-- The successful end of `prep_work_fn`. -/
def prepActive (epoch : UInt32) : Core :=
  { c with
    streamEpoch := epoch
    generation := c.generation + 1
    state := .active
    prepTries := 0
    prepBackoffMs := recoveryBaseMs
    recoveryTries := 0
    recoveryBackoffMs := recoveryBaseMs
    probationActive := false
    probationSuccess := 0
    submitCount := 0
    successCount := 0
    fallbackCount := 0 }

/-- `prep_work_fn`. -/
def prepWork (r : Result) : PrepPc → Core × PrepPc
  | .entry =>
    if c.state ≠ .preparing then (c, .finish)
    else if c.prepTries ≥ prepMaxTries then ({ c with state := .fallback }, .finish)
    else (c, .rings c.generation)
  | .rings g =>
    if c.ringsReady then (c, .reset g)
    else
      match r with
      | .ok _ => ({ c with ringsReady := true }, .reset g)
      | .fail => (c, .retry g)
  | .reset g =>
    match r with
    | .ok cycles => (c, .commit g (epochOf cycles))
    | .fail => (c, .retry g)
  | .commit g epoch =>
    if c.state ≠ .preparing ∨ c.generation ≠ g then (c, .finish) else (c.prepActive epoch, .finish)
  | .retry g =>
    if c.state = .preparing ∧ c.generation = g then
      ({ c with prepTries := c.prepTries + 1, prepBackoffMs := doubleBackoff c.prepBackoffMs },
        .schedule g)
    else (c, .finish)
  | .schedule _ => (c.schedulePrep r, .finish)
  | .finish => (c, .finish)

/-- `recovery_work_fn` leaves: the duplicate guard is cleared. -/
def unschedule : Core := { c with recoveryScheduled := false }

/-- The successful end of `recovery_work_fn`. -/
def recoveryActive (epoch : UInt32) : Core :=
  { c.unschedule with
    streamEpoch := epoch
    generation := c.generation + 1
    probationActive := true
    probationSuccess := 0
    state := .active }

/-- A failed attempt in `recovery_work_fn`: schedule again, if the lifecycle is the same. -/
def recoveryAgain (g : UInt32) : Core × RecoveryPc :=
  if c.state = .recovering ∧ c.generation = g then
    ({ c.unschedule with recoveryBackoffMs := doubleBackoff c.recoveryBackoffMs }, .schedule g)
  else (c.unschedule, .finish)

/-- `recovery_work_fn`. -/
def recoveryWork (r : Result) : RecoveryPc → Core × RecoveryPc
  | .entry =>
    if c.state ≠ .recovering then (c.unschedule, .finish)
    else
      let c := { c with recoveryTries := c.recoveryTries + 1 }
      if c.recoveryTries > recoveryMaxTries then
        ({ c.unschedule with state := .fallback }, .finish)
      else (c, .shortReset c.generation)
  | .shortReset g =>
    -- fails also if the handshake is not healthy
    match r with
    | .ok cycles => (c, .commit g (epochOf cycles))
    | .fail => (c, .verify g)
  | .verify g =>
    if c.state ≠ .recovering ∨ c.generation ≠ g then (c.unschedule, .finish) else (c, .restart g)
  | .restart g =>
    match r with
    | .ok _ => (c, .rings g)
    | .fail => (c, .restartFailed g)
  | .restartFailed g => c.recoveryAgain g
  | .rings g =>
    match r with
    | .ok _ => (c, .reset g)
    | .fail => (c, .retry g)
  | .reset g =>
    match r with
    | .ok cycles => (c, .commit g (epochOf cycles))
    | .fail => (c, .retry g)
  | .commit g epoch =>
    if c.state ≠ .recovering ∨ c.generation ≠ g then (c.unschedule, .finish)
    else (c.recoveryActive epoch, .finish)
  | .retry g => c.recoveryAgain g
  | .schedule _ => (c.scheduleRecovery r, .finish)
  | .finish => (c, .finish)

/-- `idle_restart_work_fn`. -/
def idleRestartWork (r : Result) : IdlePc → Option (Core × IdlePc)
  | .entry =>
    if c.submitLock then none
    else if c.state = .stopped then some ({ c with submitLock := true }, .restart)
    else some (c, .clear)
  | .restart =>
    match r with
    | .ok v => some (c, .done (v == 0))
    | .fail => some (c, .done true)
  | .done ringsOk =>
    some ({ c with
      ringsReady := c.ringsReady && ringsOk
      idleRestartPending := false
      submitLock := false }, .finish)
  | .clear => some ({ c with idleRestartPending := false }, .health .lock)
  | .health pc =>
    let s := c.health r pc
    some (s.1, match s.2 with
      | some pc' => .health pc'
      | none => .finish)
  | .finish => some (c, .finish)

/-- A step of the work queue's thread. -/
def work (r : Result) : Worker → Option (Core × Worker)
  | .idle => none
  | .prep .finish => some ({ c with prep := c.prep.finish }, .idle)
  | .prep pc => let s := c.prepWork r pc; some (s.1, .prep s.2)
  | .recovery .finish => some ({ c with recovery := c.recovery.finish }, .idle)
  | .recovery pc => let s := c.recoveryWork r pc; some (s.1, .recovery s.2)
  | .idleRestart .finish => some (c, .idle)
  | .idleRestart pc => (c.idleRestartWork r pc).map fun s => (s.1, .idleRestart s.2)

/-- The module after `audio_offload_init`; the rings may be deferred. -/
def init (ringsReady : Bool) : Core where
  state := .stopped
  generation := 0
  streamEpoch := 0
  ringsReady := ringsReady
  prepTries := 0
  prepBackoffMs := recoveryBaseMs
  recoveryTries := 0
  recoveryBackoffMs := recoveryBaseMs
  probationActive := false
  probationSuccess := 0
  recoveryScheduled := false
  idleRestartPending := false
  scheduleFails := 0
  submitCount := 0
  successCount := 0
  fallbackCount := 0
  prep := .idle
  recovery := .idle
  idleQueued := false
  submitLock := false

end Core

/-! ### Only a stop leads to STOPPED -/

/-- The call is part of `audio_offload_stream_stop`. -/
def Call.ofStop : Call → Bool
  | .stopCancelRecovery | .stopCancelPrep | .stopLock => true
  | _ => false

namespace Core

variable {c : Core} {r : Result}

theorem trySchedule_state : c.trySchedule.1.state = c.state := by
  unfold trySchedule
  split_ifs <;> rfl

theorem endSubmit_state (owns : Bool) : (c.endSubmit owns).state = c.state := by
  cases owns <;> rfl

theorem health_started (h : c.state ≠ .stopped) (pc : HealthPc) :
    (c.health r pc).1.state ≠ .stopped := by
  cases pc with
  | lock =>
    cases hstate : c.state with
    | active | preparing => simp [health, hstate, trySchedule_state]
    | recovering | fallback => simp [health, hstate]
    | stopped => exact absurd hstate h
  | submitIdle => cases r <;> exact h
  | schedule | countFail | clearIdle => exact h

theorem submit_started (h : c.state ≠ .stopped) {pc : SubmitPc} {t : Core × Option SubmitPc}
    (ht : c.submit r pc = some t) : t.1.state ≠ .stopped := by
  cases pc with
  | acquire t₀ =>
    simp only [submit] at ht
    split at ht
    · obtain rfl := Option.some.inj ht
      exact h
    · split_ifs at ht
      obtain rfl := Option.some.inj ht
      exact h
  | work t₀ =>
    simp only [submit] at ht
    split at ht <;> obtain rfl := Option.some.inj ht <;> exact h
  | fault t₀ owns =>
    simp only [submit] at ht
    split_ifs at ht <;> obtain rfl := Option.some.inj ht
    · rw [endSubmit_state]
      exact h
    · simp [trySchedule_state, recordFault]
    · simp [endSubmit_state, trySchedule_state, recordFault]
  | countFail owns =>
    obtain rfl := Option.some.inj ht
    rw [endSubmit_state]
    exact h
  | precheck | postmutex | recheck | schedule | commit =>
    simp only [submit] at ht
    split_ifs at ht <;> obtain rfl := Option.some.inj ht <;>
      first | exact h | (rw [endSubmit_state]; exact h)

theorem call_started (h : c.state ≠ .stopped) {call : Call} {t : Core × Option Call}
    (hcall : call ≠ .stopLock) (ht : c.call r call = some t) : t.1.state ≠ .stopped := by
  cases call with
  | stopLock => exact absurd rfl hcall
  | startLock =>
    obtain rfl := Option.some.inj ht
    exact State.noConfusion
  | startCancelRecovery | startCancelPrep | startSchedule | stopCancelRecovery | stopCancelPrep =>
    obtain rfl := Option.some.inj ht
    exact h
  | health pc =>
    obtain rfl := Option.some.inj ht
    exact health_started h pc
  | submit pc =>
    obtain ⟨t', ht', rfl⟩ := Option.map_eq_some_iff.1 ht
    exact submit_started h ht'

theorem call_ofStop {call call' : Call} {t : Core × Option Call} (ht : c.call r call = some t)
    (hcall' : t.2 = some call') : call'.ofStop = call.ofStop := by
  cases call with
  | startCancelRecovery | startCancelPrep | startLock | startSchedule | stopCancelRecovery
  | stopCancelPrep | stopLock =>
    obtain rfl := Option.some.inj ht
    cases hcall'
    try rfl
  | health pc =>
    obtain rfl := Option.some.inj ht
    obtain ⟨pc', -, rfl⟩ := Option.map_eq_some_iff.1 hcall'
    rfl
  | submit pc =>
    obtain ⟨t', -, rfl⟩ := Option.map_eq_some_iff.1 ht
    obtain ⟨pc', -, rfl⟩ := Option.map_eq_some_iff.1 hcall'
    rfl

theorem prepWork_started (h : c.state ≠ .stopped) (pc : PrepPc) :
    (c.prepWork r pc).1.state ≠ .stopped := by
  cases pc with
  | rings =>
    simp only [prepWork]
    split_ifs
    · exact h
    · cases r <;> exact h
  | reset => cases r <;> exact h
  | entry | commit | retry =>
    simp only [prepWork]
    split_ifs <;> first | exact h | exact State.noConfusion
  | schedule | finish => exact h

theorem recoveryAgain_started (h : c.state ≠ .stopped) (g : UInt32) :
    (c.recoveryAgain g).1.state ≠ .stopped := by
  unfold recoveryAgain
  split_ifs <;> exact h

theorem recoveryWork_started (h : c.state ≠ .stopped) (pc : RecoveryPc) :
    (c.recoveryWork r pc).1.state ≠ .stopped := by
  cases pc with
  | restartFailed g | retry g => exact recoveryAgain_started h g
  | shortReset | restart | rings | reset => cases r <;> exact h
  | entry | verify | commit =>
    simp only [recoveryWork]
    split_ifs <;> first | exact h | exact State.noConfusion
  | schedule | finish => exact h

theorem idleRestartWork_started (h : c.state ≠ .stopped) {pc : IdlePc} {t : Core × IdlePc}
    (ht : c.idleRestartWork r pc = some t) : t.1.state ≠ .stopped := by
  cases pc with
  | entry =>
    simp only [idleRestartWork, h, if_false] at ht
    split_ifs at ht
    obtain rfl := Option.some.inj ht
    exact h
  | restart =>
    simp only [idleRestartWork] at ht
    split at ht <;> obtain rfl := Option.some.inj ht <;> exact h
  | done | clear | finish =>
    obtain rfl := Option.some.inj ht
    exact h
  | health pc =>
    obtain rfl := Option.some.inj ht
    exact health_started h pc

theorem work_idleRestart {pc : IdlePc} (hpc : pc ≠ .finish) :
    c.work r (.idleRestart pc) =
      (c.idleRestartWork r pc).map fun s => (s.1, .idleRestart s.2) := by
  cases pc <;> first | rfl | exact absurd rfl hpc

theorem work_started (h : c.state ≠ .stopped) {w : Worker} {t : Core × Worker}
    (ht : c.work r w = some t) : t.1.state ≠ .stopped := by
  cases w with
  | idle => cases ht
  | prep pc =>
    have hpc := prepWork_started (r := r) h pc
    cases pc <;> obtain rfl := Option.some.inj ht <;> exact hpc
  | recovery pc =>
    have hpc := recoveryWork_started (r := r) h pc
    cases pc <;> obtain rfl := Option.some.inj ht <;> exact hpc
  | idleRestart pc =>
    by_cases hpc : pc = .finish
    · subst hpc
      obtain rfl := Option.some.inj ht
      exact h
    · rw [work_idleRestart hpc] at ht
      obtain ⟨t', ht', rfl⟩ := Option.map_eq_some_iff.1 ht
      exact idleRestartWork_started h ht'

end Core

/-! ### The machine -/

/-- The public calls. -/
inductive Api where
  | streamStart
  | streamStop
  | healthTransition
  | processAsrc
  deriving DecidableEq, Repr

/-- The first step of a call. -/
def Api.first : Api → Call
  | .streamStart => .startCancelRecovery
  | .streamStop => .stopCancelRecovery
  | .healthTransition => .health .lock
  | .processAsrc => .submit .precheck

/-- The module, the threads of its callers, and the thread of its work queue. -/
structure Sys (ι : Type*) where
  core : Core
  calls : ι → Option Call
  worker : Worker

/-- What can happen next. -/
inductive Action (ι : Type*) where
  /-- A thread that is not in a call makes one. -/
  | enter (i : ι) (api : Api)
  /-- A thread in a call takes a step. -/
  | call (i : ι) (r : Result)
  /-- The work queue takes an item. -/
  | takePrep
  | takeRecovery
  | takeIdle
  /-- The work queue's thread takes a step. -/
  | worker (r : Result)

namespace Sys

variable {ι : Type*} [DecidableEq ι]

/-- One step. -/
def next (s : Sys ι) : Action ι → Option (Sys ι)
  | .enter i api =>
    if s.calls i = none then
      some { s with calls := Function.update s.calls i (some api.first) }
    else none
  | .call i r =>
    match s.calls i with
    | none => none
    | some call =>
      (s.core.call r call).map fun t =>
        { s with core := t.1, calls := Function.update s.calls i t.2 }
  | .takePrep =>
    if s.worker = .idle ∧ s.core.prep.pending then
      some { s with core.prep := .taken, worker := .prep .entry }
    else none
  | .takeRecovery =>
    if s.worker = .idle ∧ s.core.recovery.pending then
      some { s with core.recovery := .taken, worker := .recovery .entry }
    else none
  | .takeIdle =>
    if s.worker = .idle ∧ s.core.idleQueued then
      some { s with core.idleQueued := false, worker := .idleRestart .entry }
    else none
  | .worker r => (s.core.work r s.worker).map fun t => { s with core := t.1, worker := t.2 }

/-- The module after its initialisation, without a call. -/
def start (ringsReady : Bool) : Sys ι := ⟨.init ringsReady, fun _ => none, .idle⟩

/-- The machine. -/
def machine (ι : Type*) [DecidableEq ι] : Machine (Sys ι) (Action ι) where
  init s := ∃ ringsReady, s = start ringsReady
  next := next

end Sys

end Lifecycle

end Offload

end LeAudioReceiver
