import LeAudioReceiver.Offload.Lifecycle

/-!
# The recovery policy of the offload

What the lifecycle of the offload is for, without threads, work items and program counters: the
streaming state with its retry counters, and the events that change it.  `Policy.next` says in
which states an event can happen and what it does; `Sys.event` names the event that a step of the
module amounts to.

* `Sys.next_refines` : every step of the module is its event in the policy.
-/

namespace LeAudioReceiver

namespace Offload

namespace Lifecycle

/-- The streaming state and the counters of the retries. -/
structure Policy where
  state : State
  generation : UInt32
  streamEpoch : UInt32
  prepTries : ℕ
  prepBackoffMs : ℕ
  recoveryTries : ℕ
  recoveryBackoffMs : ℕ
  probationActive : Bool
  probationSuccess : ℕ
  deriving DecidableEq

/-- What can happen to a stream. -/
inductive Event where
  /-- Nothing that the policy looks at. -/
  | quiet
  | start
  | stop
  /-- The other core stopped answering. -/
  | unhealthy
  /-- A submit failed. -/
  | fault
  /-- A submit was committed. -/
  | success
  /-- A submit was committed that ends the probation. -/
  | cleared
  /-- The preparation succeeded, failed once, and failed too often. -/
  | prepared (epoch : UInt32)
  | prepFailed
  | prepExhausted
  /-- A recovery cycle begins. -/
  | cycle
  /-- It tries to reset the rings, if the other core is healthy, or to restart the other core. -/
  | attempt
  /-- It succeeded, failed, and was one too many. -/
  | recovered (epoch : UInt32)
  | cycleFailed
  | exhausted
  deriving DecidableEq, Repr

namespace Policy

variable (p : Policy)

/-- A start and a stop forget all failures. -/
def reset : Policy :=
  { p with
    prepTries := 0
    prepBackoffMs := recoveryBaseMs
    recoveryTries := 0
    recoveryBackoffMs := recoveryBaseMs
    probationActive := false
    probationSuccess := 0 }

/-- The policy after an event; `none` where the event cannot happen. -/
def next : Event → Option Policy
  | .quiet | .attempt => some p
  | .start => some { p.reset with state := .preparing, generation := p.generation + 1 }
  | .stop =>
    some { p.reset with state := .stopped, generation := p.generation + 1, streamEpoch := 0 }
  | .unhealthy =>
    if p.state = .active ∨ p.state = .preparing then some { p with state := .recovering } else none
  | .fault =>
    if p.state = .active then
      some { p with
        state := .recovering
        recoveryBackoffMs :=
          if p.probationActive then Core.doubleBackoff p.recoveryBackoffMs
          else p.recoveryBackoffMs }
    else none
  | .success =>
    if p.state = .active ∧ (p.probationActive → p.probationSuccess + 1 < probationSuccessThreshold)
    then
      some (if p.probationActive then { p with probationSuccess := p.probationSuccess + 1 } else p)
    else none
  | .cleared =>
    if p.state = .active ∧ p.probationActive ∧
      p.probationSuccess + 1 ≥ probationSuccessThreshold
    then
      some { p with
        probationSuccess := p.probationSuccess + 1
        probationActive := false
        recoveryBackoffMs := recoveryBaseMs
        recoveryTries := 0 }
    else none
  | .prepared epoch =>
    if p.state = .preparing then
      some { p.reset with
        state := .active
        generation := p.generation + 1
        streamEpoch := epoch }
    else none
  | .prepFailed =>
    if p.state = .preparing then
      some { p with
        prepTries := p.prepTries + 1
        prepBackoffMs := Core.doubleBackoff p.prepBackoffMs }
    else none
  | .prepExhausted =>
    if p.state = .preparing ∧ p.prepTries ≥ prepMaxTries then some { p with state := .fallback }
    else none
  | .cycle =>
    if p.state = .recovering ∧ p.recoveryTries + 1 ≤ recoveryMaxTries then
      some { p with recoveryTries := p.recoveryTries + 1 }
    else none
  | .recovered epoch =>
    if p.state = .recovering then
      some { p with
        state := .active
        generation := p.generation + 1
        streamEpoch := epoch
        probationActive := true
        probationSuccess := 0 }
    else none
  | .cycleFailed =>
    if p.state = .recovering then
      some { p with recoveryBackoffMs := Core.doubleBackoff p.recoveryBackoffMs }
    else none
  | .exhausted =>
    if p.state = .recovering ∧ p.recoveryTries + 1 > recoveryMaxTries then
      some { p with state := .fallback, recoveryTries := p.recoveryTries + 1 }
    else none

/-- The policy before the first stream. -/
def init : Policy where
  state := .stopped
  generation := 0
  streamEpoch := 0
  prepTries := 0
  prepBackoffMs := recoveryBaseMs
  recoveryTries := 0
  recoveryBackoffMs := recoveryBaseMs
  probationActive := false
  probationSuccess := 0

/-- The policy as a machine. -/
def machine : Machine Policy Event where
  init p := p = init
  next := next

end Policy

/-! ### The events of the module -/

namespace Core

variable (c : Core)

/-- The policy of the module. -/
def policy : Policy where
  state := c.state
  generation := c.generation
  streamEpoch := c.streamEpoch
  prepTries := c.prepTries
  prepBackoffMs := c.prepBackoffMs
  recoveryTries := c.recoveryTries
  recoveryBackoffMs := c.recoveryBackoffMs
  probationActive := c.probationActive
  probationSuccess := c.probationSuccess

/-- A step of the health callback. -/
def healthEvent : HealthPc → Event
  | .lock => if c.state = .active ∨ c.state = .preparing then .unhealthy else .quiet
  | _ => .quiet

/-- A step of a submit. -/
def submitEvent : SubmitPc → Event
  | .fault t _ => if c.capture = t then .fault else .quiet
  | .commit t =>
    if c.capture = t then
      if c.probationActive ∧ c.probationSuccess + 1 ≥ probationSuccessThreshold then .cleared
      else .success
    else .quiet
  | _ => .quiet

/-- A step of a call. -/
def callEvent : Call → Event
  | .startLock => .start
  | .stopLock => .stop
  | .health pc => c.healthEvent pc
  | .submit pc => c.submitEvent pc
  | _ => .quiet

/-- A step of `prep_work_fn`. -/
def prepEvent : PrepPc → Event
  | .entry => if c.state = .preparing ∧ c.prepTries ≥ prepMaxTries then .prepExhausted else .quiet
  | .commit g epoch =>
    if c.state = .preparing ∧ c.generation = g then .prepared epoch else .quiet
  | .retry g => if c.state = .preparing ∧ c.generation = g then .prepFailed else .quiet
  | _ => .quiet

/-- A step of `recovery_work_fn`. -/
def recoveryEvent : RecoveryPc → Event
  | .entry =>
    if c.state = .recovering then
      if c.recoveryTries + 1 > recoveryMaxTries then .exhausted else .cycle
    else .quiet
  | .shortReset _ | .restart _ | .reset _ => .attempt
  | .commit g epoch =>
    if c.state = .recovering ∧ c.generation = g then .recovered epoch else .quiet
  | .restartFailed g | .retry g =>
    if c.state = .recovering ∧ c.generation = g then .cycleFailed else .quiet
  | _ => .quiet

/-- A step of the work queue's thread. -/
def workEvent : Worker → Event
  | .prep pc => c.prepEvent pc
  | .recovery pc => c.recoveryEvent pc
  | .idleRestart (.health pc) => c.healthEvent pc
  | _ => .quiet

end Core

/-- The event of a step. -/
def Sys.event {ι : Type*} (s : Sys ι) : Action ι → Event
  | .call i _ => (s.calls i).elim .quiet s.core.callEvent
  | .worker _ => s.core.workEvent s.worker
  | _ => .quiet

/-! ### Each step is its event -/

/-- The lifecycle that the submit compares with. -/
def SubmitPc.captured : SubmitPc → Option Captured
  | .acquire t | .postmutex t | .work t | .recheck t | .fault t _ | .commit t => some t
  | .precheck | .schedule _ | .countFail _ => none

/-- The submit has captured ACTIVE, if anything. -/
def SubmitPc.CapturedActive (pc : SubmitPc) : Prop := ∀ t ∈ pc.captured, t.state = .active

namespace Core

variable {c : Core} {r : Result}

@[simp]
theorem policy_trySchedule : c.trySchedule.1.policy = c.policy := by
  unfold trySchedule
  split_ifs <;> rfl

@[simp]
theorem policy_endSubmit (owns : Bool) : (c.endSubmit owns).policy = c.policy := by
  cases owns <;> rfl

@[simp]
theorem policy_countFallback : c.countFallback.policy = c.policy := rfl

@[simp]
theorem policy_scheduleRecovery : (c.scheduleRecovery r).policy = c.policy := rfl

@[simp]
theorem policy_countScheduleFail : c.countScheduleFail.policy = c.policy := rfl

theorem health_refines (pc : HealthPc) :
    c.policy.next (c.healthEvent pc) = some (c.health r pc).1.policy := by
  cases pc with
  | lock =>
    cases hstate : c.state with
    | active | preparing =>
      have hguard : c.state = .active ∨ c.state = .preparing := by simp [hstate]
      rw [healthEvent, if_pos hguard]
      simp only [health, hstate, policy_trySchedule]
      exact if_pos hguard
    | recovering | fallback => simp [health, healthEvent, hstate, Policy.next]
    | stopped =>
      simp only [health, healthEvent, hstate]
      split_ifs <;> simp_all [Policy.next, policy]
  | submitIdle => cases r <;> rfl
  | schedule | countFail | clearIdle => rfl

theorem commit_refines {t : Captured} {x : Core × Option SubmitPc} (ht : t.state = .active)
    (hx : c.submit r (.commit t) = some x) :
    c.policy.next (c.submitEvent (.commit t)) = some x.1.policy := by
  simp only [submit, ne_eq, ite_not] at hx
  by_cases hc : c.capture = t
  · have hstate : c.policy.state = .active := (congrArg Captured.state hc).trans ht
    rw [if_pos hc] at hx
    obtain rfl := Option.some.inj hx
    simp only [submitEvent, hc, if_true, policy_endSubmit]
    by_cases hp : c.probationActive = true
    · by_cases hn : c.probationSuccess + 1 ≥ probationSuccessThreshold
      · rw [if_pos ⟨hp, hn⟩, if_pos hp, if_pos hn]
        exact if_pos ⟨hstate, hp, hn⟩
      · rw [if_neg fun h => hn h.2, if_pos hp, if_neg hn]
        exact (if_pos ⟨hstate, fun _ => Nat.lt_of_not_ge hn⟩).trans (congrArg some (if_pos hp))
    · rw [if_neg fun h => hp h.1, if_neg hp]
      exact (if_pos ⟨hstate, fun h => absurd h hp⟩).trans (congrArg some (if_neg hp))
  · rw [if_neg hc] at hx
    obtain rfl := Option.some.inj hx
    simp [submitEvent, hc, Policy.next]

theorem submit_refines {pc : SubmitPc} {x : Core × Option SubmitPc} (hpc : pc.CapturedActive)
    (hx : c.submit r pc = some x) : c.policy.next (c.submitEvent pc) = some x.1.policy := by
  cases pc with
  | acquire t =>
    simp only [submit] at hx
    split at hx
    · obtain rfl := Option.some.inj hx
      rfl
    · split_ifs at hx
      obtain rfl := Option.some.inj hx
      rfl
  | work t =>
    simp only [submit] at hx
    split at hx <;> obtain rfl := Option.some.inj hx <;> rfl
  | fault t owns =>
    simp only [submit, ne_eq, ite_not] at hx
    by_cases hc : c.capture = t
    · have hstate : c.policy.state = .active := (congrArg Captured.state hc).trans (hpc t rfl)
      have hfault : c.policy.next .fault = some c.countFallback.recordFault.policy := by
        simp only [Policy.next, hstate, if_true]
        rfl
      rw [if_pos hc] at hx
      simp only [submitEvent, hc, if_true, hfault]
      split_ifs at hx <;> obtain rfl := Option.some.inj hx <;> simp
    · rw [if_neg hc] at hx
      obtain rfl := Option.some.inj hx
      simp [submitEvent, hc, Policy.next]
  | commit t => exact commit_refines (hpc t rfl) hx
  | countFail owns =>
    obtain rfl := Option.some.inj hx
    simp [submitEvent, Policy.next]
  | precheck | postmutex | recheck | schedule =>
    simp only [submit] at hx
    split_ifs at hx <;> obtain rfl := Option.some.inj hx <;>
      first | rfl | simp [submitEvent, Policy.next]

theorem call_refines {call : Call} {x : Core × Option Call}
    (hcall : ∀ pc, call = .submit pc → pc.CapturedActive) (hx : c.call r call = some x) :
    c.policy.next (c.callEvent call) = some x.1.policy := by
  cases call with
  | health pc =>
    obtain rfl := Option.some.inj hx
    exact health_refines pc
  | submit pc =>
    obtain ⟨x', hx', rfl⟩ := Option.map_eq_some_iff.1 hx
    exact submit_refines (hcall pc rfl) hx'
  | _ =>
    obtain rfl := Option.some.inj hx
    rfl

theorem prepWork_refines (pc : PrepPc) :
    c.policy.next (c.prepEvent pc) = some (c.prepWork r pc).1.policy := by
  cases pc with
  | entry =>
    simp only [prepEvent, prepWork]
    by_cases hstate : c.state = .preparing
    · by_cases htries : c.prepTries ≥ prepMaxTries
      · rw [if_pos ⟨hstate, htries⟩, if_neg (not_not.2 hstate), if_pos htries]
        exact if_pos ⟨hstate, htries⟩
      · rw [if_neg fun h => htries h.2, if_neg (not_not.2 hstate), if_neg htries]
        rfl
    · rw [if_neg fun h => hstate h.1, if_pos hstate]
      rfl
  | rings g =>
    simp only [prepWork]
    split_ifs
    · rfl
    · cases r <;> rfl
  | reset g => cases r <;> rfl
  | commit g epoch =>
    simp only [prepEvent, prepWork]
    by_cases h : c.state = .preparing ∧ c.generation = g
    · rw [if_pos h, if_neg (by tauto)]
      exact if_pos h.1
    · rw [if_neg h, if_pos (by tauto)]
      rfl
  | retry g =>
    simp only [prepEvent, prepWork]
    by_cases h : c.state = .preparing ∧ c.generation = g
    · rw [if_pos h, if_pos h]
      exact if_pos h.1
    · rw [if_neg h, if_neg h]
      rfl
  | schedule | finish => rfl

theorem recoveryAgain_refines (g : UInt32) :
    c.policy.next (if c.state = .recovering ∧ c.generation = g then .cycleFailed else .quiet) =
      some (c.recoveryAgain g).1.policy := by
  unfold recoveryAgain
  by_cases h : c.state = .recovering ∧ c.generation = g
  · rw [if_pos h, if_pos h]
    exact if_pos h.1
  · rw [if_neg h, if_neg h]
    rfl

theorem recoveryWork_refines (pc : RecoveryPc) :
    c.policy.next (c.recoveryEvent pc) = some (c.recoveryWork r pc).1.policy := by
  cases pc with
  | entry =>
    simp only [recoveryEvent, recoveryWork]
    by_cases hstate : c.state = .recovering
    · rw [if_pos hstate, if_neg (not_not.2 hstate)]
      by_cases htries : c.recoveryTries + 1 > recoveryMaxTries
      · rw [if_pos htries, if_pos htries]
        exact if_pos ⟨hstate, htries⟩
      · rw [if_neg htries, if_neg htries]
        exact if_pos ⟨hstate, Nat.le_of_not_lt htries⟩
    · rw [if_neg hstate, if_pos hstate]
      rfl
  | shortReset | restart | rings | reset => cases r <;> rfl
  | verify g =>
    simp only [recoveryWork]
    split_ifs <;> rfl
  | restartFailed g | retry g => exact recoveryAgain_refines g
  | commit g epoch =>
    simp only [recoveryEvent, recoveryWork]
    by_cases h : c.state = .recovering ∧ c.generation = g
    · rw [if_pos h, if_neg (by tauto)]
      exact if_pos h.1
    · rw [if_neg h, if_pos (by tauto)]
      rfl
  | schedule | finish => rfl

theorem work_refines {w : Worker} {x : Core × Worker} (hx : c.work r w = some x) :
    c.policy.next (c.workEvent w) = some x.1.policy := by
  cases w with
  | idle => cases hx
  | prep pc =>
    have hpc := prepWork_refines (c := c) (r := r) pc
    cases pc <;> obtain rfl := Option.some.inj hx <;> exact hpc
  | recovery pc =>
    have hpc := recoveryWork_refines (c := c) (r := r) pc
    cases pc <;> obtain rfl := Option.some.inj hx <;> exact hpc
  | idleRestart pc =>
    cases pc with
    | finish =>
      obtain rfl := Option.some.inj hx
      rfl
    | health pc =>
      obtain rfl := Option.some.inj hx
      exact health_refines pc
    | entry =>
      obtain ⟨x', hx', rfl⟩ := Option.map_eq_some_iff.1 hx
      simp only [idleRestartWork] at hx'
      split_ifs at hx' <;> obtain rfl := Option.some.inj hx' <;> rfl
    | restart =>
      cases r <;> obtain rfl := Option.some.inj hx <;> rfl
    | done ringsOk | clear =>
      obtain rfl := Option.some.inj hx
      rfl

end Core

/-! ### What submits have captured -/

/-- A thread that is in a submit has captured ACTIVE, if anything. -/
def Call.CapturedActive (call : Option Call) : Prop :=
  ∀ pc, call = some (.submit pc) → pc.CapturedActive

theorem Core.submit_capturedActive {c : Core} {r : Result} {pc pc' : SubmitPc}
    {x : Core × Option SubmitPc} (hpc : pc.CapturedActive) (hx : c.submit r pc = some x)
    (hpc' : x.2 = some pc') : pc'.CapturedActive := by
  have hnone : ∀ {pc : SubmitPc}, pc.captured = none → pc.CapturedActive := by
    intro pc h t ht
    rw [h] at ht
    exact absurd ht (Option.not_mem_none t)
  cases pc with
  | acquire t =>
    simp only [Core.submit] at hx
    split at hx
    · obtain rfl := Option.some.inj hx
      obtain rfl := Option.some.inj hpc'
      exact hpc
    · split_ifs at hx
      obtain rfl := Option.some.inj hx
      obtain rfl := Option.some.inj hpc'
      exact hpc
  | work t =>
    simp only [Core.submit] at hx
    split at hx <;> obtain rfl := Option.some.inj hx <;> obtain rfl := Option.some.inj hpc'
    · exact hpc
    · split_ifs <;> exact hpc
  | countFail owns =>
    obtain rfl := Option.some.inj hx
    cases hpc'
  | precheck | postmutex =>
    simp only [Core.submit] at hx
    split_ifs at hx <;> obtain rfl := Option.some.inj hx <;> cases hpc'
    intro t ht
    obtain rfl := Option.some.inj ht
    exact not_not.1 ‹_›
  | recheck t | commit t =>
    simp only [Core.submit] at hx
    split_ifs at hx <;> obtain rfl := Option.some.inj hx <;> cases hpc'
    try exact hpc
  | fault t owns =>
    simp only [Core.submit] at hx
    split_ifs at hx <;> obtain rfl := Option.some.inj hx <;> cases hpc'
    exact hnone rfl
  | schedule owns =>
    simp only [Core.submit] at hx
    split_ifs at hx <;> obtain rfl := Option.some.inj hx <;> cases hpc'
    exact hnone rfl

namespace Sys

variable {ι : Type*} [DecidableEq ι] {s s' : Sys ι} {a : Action ι}

/-- Every submit in progress has captured ACTIVE, if anything. -/
def CapturedActive (s : Sys ι) : Prop := ∀ i, Call.CapturedActive (s.calls i)

omit [DecidableEq ι] in
theorem CapturedActive.congr (h : s.CapturedActive) (hcalls : s'.calls = s.calls) :
    s'.CapturedActive := by
  intro i pc hi
  rw [hcalls] at hi
  exact h i pc hi

theorem next_cases (h : s.next a = some s') :
    (∃ i api, a = .enter i api ∧ s.calls i = none ∧
      s' = { s with calls := Function.update s.calls i (some api.first) }) ∨
    (∃ i r call x, a = .call i r ∧ s.calls i = some call ∧ s.core.call r call = some x ∧
      s' = { s with core := x.1, calls := Function.update s.calls i x.2 }) ∨
    (a = .takePrep ∧ s.worker = .idle ∧
      s' = { s with core.prep := .taken, worker := .prep .entry }) ∨
    (a = .takeRecovery ∧ s.worker = .idle ∧
      s' = { s with core.recovery := .taken, worker := .recovery .entry }) ∨
    (a = .takeIdle ∧ s.worker = .idle ∧
      s' = { s with core.idleQueued := false, worker := .idleRestart .entry }) ∨
    (∃ r x, a = .worker r ∧ s.core.work r s.worker = some x ∧
      s' = { s with core := x.1, worker := x.2 }) := by
  cases a with
  | enter i api =>
    simp only [next] at h
    split_ifs at h with hi
    exact .inl ⟨i, api, rfl, hi, (Option.some.inj h).symm⟩
  | call i r =>
    simp only [next] at h
    split at h
    · cases h
    · obtain ⟨x, hx, rfl⟩ := Option.map_eq_some_iff.1 h
      exact .inr (.inl ⟨i, r, _, x, rfl, ‹_›, hx, rfl⟩)
  | takePrep =>
    simp only [next] at h
    split_ifs at h with hw
    exact .inr (.inr (.inl ⟨rfl, hw.1, (Option.some.inj h).symm⟩))
  | takeRecovery =>
    simp only [next] at h
    split_ifs at h with hw
    exact .inr (.inr (.inr (.inl ⟨rfl, hw.1, (Option.some.inj h).symm⟩)))
  | takeIdle =>
    simp only [next] at h
    split_ifs at h with hw
    exact .inr (.inr (.inr (.inr (.inl ⟨rfl, hw.1, (Option.some.inj h).symm⟩))))
  | worker r =>
    obtain ⟨x, hx, rfl⟩ := Option.map_eq_some_iff.1 h
    exact .inr (.inr (.inr (.inr (.inr ⟨r, x, rfl, hx, rfl⟩))))

theorem CapturedActive.next (h : s.CapturedActive) (hnext : s.next a = some s') :
    s'.CapturedActive := by
  obtain ⟨i, api, -, -, rfl⟩ | ⟨i, r, call, x, -, hi, hx, rfl⟩ | ⟨-, -, rfl⟩ | ⟨-, -, rfl⟩ |
    ⟨-, -, rfl⟩ | ⟨r, x, -, -, rfl⟩ := next_cases hnext
  · refine (Function.forall_update_iff _ fun _ => Call.CapturedActive).2
      ⟨fun pc hpc => ?_, fun j _ => h j⟩
    cases api <;> cases hpc
    exact fun t ht => absurd ht (Option.not_mem_none t)
  · refine (Function.forall_update_iff _ fun _ => Call.CapturedActive).2
      ⟨fun pc hpc => ?_, fun j _ => h j⟩
    cases call with
    | submit pc₀ =>
      obtain ⟨x', hx', rfl⟩ := Option.map_eq_some_iff.1 hx
      obtain ⟨pc', hpc', heq⟩ := Option.map_eq_some_iff.1 hpc
      cases heq
      exact Core.submit_capturedActive (h i pc₀ hi) hx' hpc'
    | health pc₀ =>
      obtain rfl := Option.some.inj hx
      obtain ⟨pc', -, heq⟩ := Option.map_eq_some_iff.1 hpc
      cases heq
    | _ =>
      obtain rfl := Option.some.inj hx
      cases hpc
  all_goals exact h.congr rfl

/-- A step of the module is its event in the policy. -/
theorem next_refines (h : s.CapturedActive) (hnext : s.next a = some s') :
    s.core.policy.next (s.event a) = some s'.core.policy := by
  obtain ⟨i, api, rfl, -, rfl⟩ | ⟨i, r, call, x, rfl, hi, hx, rfl⟩ | ⟨rfl, -, rfl⟩ |
    ⟨rfl, -, rfl⟩ | ⟨rfl, -, rfl⟩ | ⟨r, x, rfl, hx, rfl⟩ := next_cases hnext
  · rfl
  · rw [event, hi]
    refine Core.call_refines (fun pc hpc => ?_) hx
    subst hpc
    exact h i pc hi
  · rfl
  · rfl
  · rfl
  · exact Core.work_refines hx

theorem capturedActive {ok : Sys ι → Action ι → Prop} (h : (machine ι).ReachableBy ok s) :
    s.CapturedActive := by
  refine h.invariant (fun s ⟨_, hs⟩ i pc hi => ?_) fun s a s' hs _ hnext => hs.next hnext
  subst hs
  cases hi

/-- The module runs through states of the policy only. -/
theorem policy_reachable {ok : Sys ι → Action ι → Prop} (h : (machine ι).ReachableBy ok s) :
    Policy.machine.Reachable s.core.policy := by
  refine Machine.ReachableBy.simulate (f := fun s : Sys ι => s.core.policy) h
    (fun s ⟨_, hs⟩ => ?_) fun s a s' hs _ hnext =>
      ⟨s.event a, next_refines (capturedActive hs) hnext⟩
  subst hs
  rfl

end Sys

/-! ### Where an event comes from -/

namespace Sys

variable {ι : Type*} {s : Sys ι} {a : Action ι}

/-- The step behind an event that other threads rely on. -/
def Causes (s : Sys ι) (a : Action ι) : Event → Prop
  | .start => ∃ i r, a = .call i r ∧ s.calls i = some .startLock
  | .stop => ∃ i r, a = .call i r ∧ s.calls i = some .stopLock
  | .prepared epoch => ∃ r g, a = .worker r ∧ s.worker = .prep (.commit g epoch)
  | .recovered epoch => ∃ r g, a = .worker r ∧ s.worker = .recovery (.commit g epoch)
  | .cleared => ∃ i r t, a = .call i r ∧ s.calls i = some (.submit (.commit t))
  | _ => True

theorem causes_health (c : Core) (pc : HealthPc) : s.Causes a (c.healthEvent pc) := by
  cases pc with
  | lock =>
    rw [Core.healthEvent]
    split_ifs <;> trivial
  | _ => trivial

theorem causes_call {i : ι} {r : Result} {call : Call} (hi : s.calls i = some call) :
    s.Causes (.call i r) (s.core.callEvent call) := by
  cases call with
  | startLock | stopLock => exact ⟨i, r, rfl, hi⟩
  | health pc => exact causes_health s.core pc
  | submit pc =>
    cases pc with
    | fault t owns =>
      simp only [Core.callEvent, Core.submitEvent]
      split_ifs <;> trivial
    | commit t =>
      simp only [Core.callEvent, Core.submitEvent]
      split_ifs
      · exact ⟨i, r, t, rfl, hi⟩
      · trivial
      · trivial
    | _ => trivial
  | _ => trivial

theorem causes_worker (r : Result) : s.Causes (.worker r) (s.core.workEvent s.worker) := by
  cases hw : s.worker with
  | idle => trivial
  | prep pc =>
    cases pc with
    | entry | retry =>
      simp only [Core.workEvent, Core.prepEvent]
      split_ifs <;> trivial
    | commit g epoch =>
      simp only [Core.workEvent, Core.prepEvent]
      split_ifs
      · exact ⟨r, g, rfl, hw⟩
      · trivial
    | _ => trivial
  | recovery pc =>
    cases pc with
    | entry | restartFailed | retry =>
      simp only [Core.workEvent, Core.recoveryEvent]
      split_ifs <;> trivial
    | commit g epoch =>
      simp only [Core.workEvent, Core.recoveryEvent]
      split_ifs
      · exact ⟨r, g, rfl, hw⟩
      · trivial
    | _ => trivial
  | idleRestart pc =>
    cases pc with
    | health pc => exact causes_health s.core pc
    | _ => trivial

theorem causes_event (s : Sys ι) (a : Action ι) : s.Causes a (s.event a) := by
  cases a with
  | call i r =>
    cases hi : s.calls i with
    | none =>
      rw [event, hi]
      trivial
    | some call =>
      rw [event, hi]
      exact causes_call hi
  | worker r => exact causes_worker r
  | _ => trivial

/-! ### Runs -/

/-- A call of thread `i` with its first `n` steps. -/
def callSteps (i : ι) (api : Api) (n : ℕ) : List (Action ι) :=
  .enter i api :: List.replicate n (.call i (.ok 0))

/-- Thread `i` starts a stream, which is prepared. -/
def prepared (i : ι) : List (Action ι) :=
  callSteps i .streamStart 4 ++ .takePrep :: List.replicate 5 (.worker (.ok 7))

end Sys

end Lifecycle

end Offload

end LeAudioReceiver
