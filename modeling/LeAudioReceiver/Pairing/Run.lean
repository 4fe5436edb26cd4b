import LeAudioReceiver.Pairing.Basic

/-!
# Runs of the pairing controller

The controller as a machine: inputs arrive at any time and coalesce in the pending mask; the work
thread takes the mask (`begin`), goes through the parts of `step` one by one (`stage`), and runs a
delayed work only between two passes.  An input that arrives in the middle of a pass waits for
the next one, but the payload of a notification is read when its part is reached.

* `Sys.invariant` : an invariant of the controller has to be kept by the inputs, by each part of
  `step` and by the two delayed works;
* `Sys.exists_run_stages` : a pass that is not disturbed is `Ctl.step`.
-/

namespace LeAudioReceiver

namespace Pairing

/-- The public requests and notifications. -/
inductive Input where
  | start
  | requestBonding
  | requestReset
  | requestResetSync
  | connected
  | disconnected
  | pairingComplete (bonded : Bool)
  | pairingFailed
  | securityChanged (success bonded : Bool)
  deriving DecidableEq, Repr

/-- The bit an input sets. -/
def Input.event : Input → Event
  | .start => .start
  | .requestBonding => .bonding
  | .requestReset => .reset
  | .requestResetSync => .resetSync
  | .connected => .connected
  | .disconnected => .disconnected
  | .pairingComplete _ => .pairingComplete
  | .pairingFailed => .pairingFailed
  | .securityChanged _ _ => .securityChanged

/-- The controller, the pending mask and the pass in progress. -/
structure Sys (W : Type*) where
  ctl : Ctl W
  pending : Finset Event
  /-- The parts of `step` that are left. -/
  work : List Stage
  /-- The mask of the pass in progress. -/
  mask : Finset Event

/-- What can happen next. -/
inductive Action where
  | input (i : Input)
  | begin
  | stage
  | blink
  | feedback
  deriving DecidableEq, Repr

section Machine

variable {W : Type*} (exec : Exec W) (arrive : Input → W → W)

namespace Ctl

/-- The controller after `pairing_mode_init`. -/
def init (w : W) : Ctl W where
  status := ⟨.normal, .uninitialized, .normal, 0, false, false, false⟩
  started := false
  resetTransition := false
  fatal := false
  pairingCompleteBonded := false
  securitySuccess := false
  securityBonded := false
  blink := ⟨false, 0, false, 0⟩
  feedback := ⟨false, 0⟩
  world := w
  log := []

/-- The effect of an input before it is queued: its payload, and what it means for the world. -/
def receive (c : Ctl W) (i : Input) : Ctl W :=
  let c := { c with world := arrive i c.world }
  match i with
  | .pairingComplete bonded => { c with pairingCompleteBonded := bonded }
  | .securityChanged success bonded =>
    { c with securitySuccess := success, securityBonded := bonded }
  | _ => c

end Ctl

namespace Sys

/-- One step of the machine. -/
def next (s : Sys W) : Action → Option (Sys W)
  | .input i =>
    some { s with
      ctl := s.ctl.receive arrive i
      pending := if s.ctl.fatal then s.pending else insert i.event s.pending }
  | .begin =>
    if s.work = [] ∧ s.pending ≠ ∅ ∧ ¬ s.ctl.fatal then
      some { s with pending := ∅, mask := s.pending, work := Stage.all }
    else none
  | .stage =>
    match s.work with
    | [] => none
    | st :: sts =>
      let r := s.ctl.stage exec s.mask st
      some { s with ctl := r.1, work := if r.2 then sts else [] }
  | .blink =>
    if s.work = [] ∧ s.ctl.blink.pending then
      some { s with ctl := { s.ctl with blink.pending := false }.blinkHandler exec }
    else none
  | .feedback =>
    if s.work = [] ∧ s.ctl.feedback.pending then
      some { s with ctl := { s.ctl with feedback.pending := false }.feedbackHandler exec }
    else none

/-- The machine, from any world that satisfies `start`. -/
def machine (start : W → Prop) : Machine (Sys W) Action where
  init s := ∃ w, start w ∧ s = ⟨Ctl.init w, ∅, [], ∅⟩
  next := next exec arrive

variable {exec arrive}

theorem init_reachable {start : W → Prop} {ok : Sys W → Action → Prop} {w : W} (h : start w) :
    (machine exec arrive start).ReachableBy ok ⟨Ctl.init w, ∅, [], ∅⟩ :=
  .init ⟨w, h, rfl⟩

theorem stage_continues {c : Ctl W} {ev : Finset Event} {st : Stage} (h : c.fatal = false)
    (hr : (c.stage exec ev st).2 = true) : (c.stage exec ev st).1.fatal = false := by
  -- a part that calls an operation continues only if that was not fatal
  cases st <;>
    simp only [Ctl.stage, Ctl.stageEntry, Ctl.stageReset, Ctl.stageBonding, Ctl.stageConnected,
      Ctl.stageDisconnected, Ctl.stagePairingComplete, Ctl.stageSecurityChanged,
      Ctl.stageStart] at hr ⊢ <;>
    split_ifs at hr ⊢ <;> simp_all

theorem receive_fatal (c : Ctl W) (i : Input) : (c.receive arrive i).fatal = c.fatal := by
  cases i <;> rfl

/-- An invariant of the controller, kept by inputs, by the parts of `step` under the condition on
the steps, and by the delayed works. -/
theorem invariant {start : W → Prop} {ok : Sys W → Action → Prop} {I : Ctl W → Prop} {s : Sys W}
    (h : (machine exec arrive start).ReachableBy ok s) (hinit : ∀ w, start w → I (Ctl.init w))
    (hreceive : ∀ c i, I c → I (c.receive arrive i))
    (hstage : ∀ (s : Sys W) st sts, s.work = st :: sts → ok s .stage → s.ctl.fatal = false →
      I s.ctl → I (s.ctl.stage exec s.mask st).1)
    (hblink : ∀ c, I c → I ({ c with blink.pending := false }.blinkHandler exec))
    (hfeedback : ∀ c, I c → I ({ c with feedback.pending := false }.feedbackHandler exec)) :
    I s.ctl := by
  suffices H : I s.ctl ∧ (s.work ≠ [] → s.ctl.fatal = false) from H.1
  refine Machine.ReachableBy.invariant
    (I := fun s => I s.ctl ∧ (s.work ≠ [] → s.ctl.fatal = false)) h ?_ ?_
  · rintro s ⟨w, hw, rfl⟩
    exact ⟨hinit w hw, fun hne => absurd rfl hne⟩
  · rintro s a s' ⟨hs, hfatal⟩ hok hnext
    cases a with
    | input i =>
      obtain rfl := Option.some.inj hnext
      exact ⟨hreceive _ i hs, fun hne => (receive_fatal _ i).trans (hfatal hne)⟩
    | begin =>
      simp only [machine, next] at hnext
      split_ifs at hnext with hcond
      obtain rfl := Option.some.inj hnext
      exact ⟨hs, fun _ => by simpa using hcond.2.2⟩
    | stage =>
      simp only [machine, next] at hnext
      cases hw : s.work with
      | nil => simp only [hw] at hnext; cases hnext
      | cons st sts =>
        simp only [hw] at hnext
        obtain rfl := Option.some.inj hnext
        have hf : s.ctl.fatal = false := hfatal (by simp [hw])
        refine ⟨hstage s st sts hw hok hf hs, fun hne => stage_continues hf ?_⟩
        by_contra hr
        exact hne (if_neg hr)
    | blink =>
      simp only [machine, next] at hnext
      split_ifs at hnext with hcond
      obtain rfl := Option.some.inj hnext
      exact ⟨hblink _ hs, fun hne => absurd hcond.1 hne⟩
    | feedback =>
      simp only [machine, next] at hnext
      split_ifs at hnext with hcond
      obtain rfl := Option.some.inj hnext
      exact ⟨hfeedback _ hs, fun hne => absurd hcond.1 hne⟩

/-- A pass that is not disturbed computes `Ctl.stages`. -/
theorem exists_run_stages (start : W → Prop) :
    ∀ (sts : List Stage) (c : Ctl W) (pending mask : Finset Event), ∃ n,
      (machine exec arrive start).run ⟨c, pending, sts, mask⟩ (List.replicate n .stage) =
        some ⟨c.stages exec mask sts, pending, [], mask⟩ := by
  intro sts
  induction sts with
  | nil => exact fun c pending mask => ⟨0, rfl⟩
  | cons st sts ih =>
    intro c pending mask
    cases hr : (c.stage exec mask st).2 with
    | false =>
      refine ⟨1, ?_⟩
      simp [Machine.run, machine, next, Ctl.stages, hr]
    | true =>
      obtain ⟨n, hn⟩ := ih (c.stage exec mask st).1 pending mask
      refine ⟨n + 1, ?_⟩
      rw [List.replicate_succ, Machine.run]
      simpa [machine, next, Ctl.stages, hr] using hn

end Sys

/-! ### Rules for operations -/

namespace Ctl

variable {exec} {c : Ctl W}

/-- An operation either fails, which is fatal, or the rest of the function runs. -/
theorem attempt_cases {P : Ctl W → Prop} {o : Op} {k : Reply → Ctl W → Ctl W}
    (hfail : (exec o c.world).1.ret < 0 → P ((c.call exec o).2.fatalFinalize exec))
    (hok : 0 ≤ (exec o c.world).1.ret → P (k (exec o c.world).1 (c.call exec o).2)) :
    P (c.attempt exec o k) := by
  show P (if (exec o c.world).1.ret < 0 then _ else _)
  split_ifs with h
  · exact hfail h
  · exact hok (not_lt.1 h)

/-- A failed operation of a controller that was not fatal yet ends in phase FATAL. -/
theorem fatalFinalize_phase (h : c.fatal = false) :
    (c.fatalFinalize exec).status.phase = .fatal := by
  simp [fatalFinalize, h, call]

theorem fatalFinalize_fatal : (c.fatalFinalize exec).fatal = true := by
  unfold fatalFinalize
  split_ifs with h
  · exact h
  · rfl

/-- No operation reports a failure. -/
def NonFailing (exec : Exec W) : Prop :=
  ∀ o w, 0 ≤ (exec o w).1.ret

/-- A RESET during a reset joins it, and nothing else of the mask is looked at. -/
theorem stage_joined_reset {ev : Finset Event} (h : c.resetInProgress = true)
    (hr : .reset ∈ ev ∨ .resetSync ∈ ev) : c.stage exec ev .reset = (c, false) := by
  have hjoin : c.doReset exec = c := if_pos h
  exact (if_pos hr).trans (by rw [hjoin])

end Ctl

end Machine

/-! ### A world with one peer -/

/-- A world that knows whether a peer is connected; no operation fails. -/
def peerExec : Exec Bool := fun o w => (⟨0, o == .disconnectPeer && w⟩, w)

/-- The peer comes and goes. -/
def peerArrive : Input → Bool → Bool
  | .connected, _ => true
  | .disconnected, _ => false
  | _, w => w

theorem peerExec_nonFailing : Ctl.NonFailing peerExec := fun _ _ => le_rfl

/-- A pass of the given number of parts. -/
def pass (n : ℕ) : List Action := .begin :: List.replicate n .stage

end Pairing

end LeAudioReceiver
