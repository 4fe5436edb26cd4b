import LeAudioReceiver.Pairing.Run

/-!
# The pairing adapter, and the filter of NORMAL mode

A model of `src/bt_bap_pairing_adapter.c`: the operations of the controller, applied to a
Bluetooth backend whose results are arbitrary (`Adapter.backend`).  What the controller sees of the
backend is the policy mode, the applied access state, and whether advertising runs and with which
connection filter; the bond inventory behind the filter is left out.

In NORMAL mode the policy is BONDED_ONLY, so that advertising started there is filtered.  The
completion of a bonding, however, enters NORMAL without touching advertising.

* `Ctl.filtered_of_normalIdle` : in every run in which no completion of a bonding meets running
  open advertising, what runs in NORMAL / IDLE is filtered.
-/

namespace LeAudioReceiver

namespace Pairing

/-- `enum bt_pairing_policy_mode`. -/
inductive PolicyMode where
  | openMode
  | bondedOnly
  deriving DecidableEq, Repr

/-- `enum bt_bap_pairing_peer_state`. -/
inductive PeerState where
  | absent
  | connected
  | disconnecting
  | other
  deriving DecidableEq, Repr

/-- The result of a backend call; the peer state is read by the peer operations only. -/
structure Outcome where
  ret : ℤ
  peer : PeerState
  deriving DecidableEq, Repr

/-- The adapter and its backend. -/
structure Adapter where
  policy : PolicyMode
  /-- `g_applied`. -/
  applied : AccessMode
  /-- Running advertising, with its connection filter. -/
  adv : Option Bool
  /-- The results of the backend calls to come. -/
  backend : ℕ → Outcome
  /-- The number of backend calls so far. -/
  calls : ℕ

namespace Adapter

def eacces : ℤ := 13

def enotconn : ℤ := 128

variable (w : Adapter)

/-- A backend call. -/
def backendCall : Outcome × Adapter := (w.backend w.calls, { w with calls := w.calls + 1 })

/-- A backend call whose failure is returned, with its effect and the code behind it. -/
def attempt (effect : Adapter → Adapter) (k : Adapter → ℤ × Adapter) : ℤ × Adapter :=
  let r := w.backendCall
  if r.1.ret < 0 then (r.1.ret, r.2) else k (effect r.2)

/-- `bt_bap_pairing_adapter_set_access_mode`. -/
def setAccessMode : AccessMode → ℤ × Adapter
  | .normal =>
    w.attempt ({ · with policy := .bondedOnly }) fun w => (0, { w with applied := .normal })
  | .bonding =>
    w.attempt ({ · with policy := .openMode }) fun w => (0, { w with applied := .bonding })
  | .suspended => (0, { w with applied := .suspended })

/-- `suspend_locked`. -/
def suspendLocked : ℤ × Adapter :=
  let r := w.backendCall
  let w := if r.1.ret < 0 then r.2 else { r.2 with adv := none }
  (r.1.ret, if r.1.ret = 0 then { w with applied := .suspended } else w)

/-- `start_locked`. -/
def startLocked : ℤ × Adapter :=
  if w.applied = .suspended then (-eacces, w)
  else
    -- stop, clear the filter list, replace the bonds
    w.attempt ({ · with adv := none }) fun w =>
      w.attempt id fun w =>
        w.attempt id fun w =>
          let filterConnections := w.policy == .bondedOnly
          -- update the parameters, start
          w.attempt id fun w =>
            let r := w.backendCall
            (r.1.ret, if r.1.ret < 0 then r.2 else { r.2 with adv := some filterConnections })

/-- `bt_bap_pairing_adapter_disconnect_peer`. -/
def disconnectPeer : Reply × Adapter :=
  let r := w.backendCall
  if r.1.ret ≠ 0 then (⟨r.1.ret, false⟩, r.2)
  else (⟨0, r.1.peer == .connected || r.1.peer == .disconnecting⟩, r.2)

/-- `bt_bap_pairing_adapter_delete_all_bonds`. -/
def deleteAllBonds : ℤ × Adapter :=
  let r := w.backendCall
  if r.1.ret ≠ 0 then (r.1.ret, r.2) else (0, r.2)

/-- `bt_bap_pairing_adapter_request_security`. -/
def requestSecurity : ℤ × Adapter :=
  let r := w.backendCall
  if r.1.ret ≠ 0 then (r.1.ret, r.2)
  else if r.1.peer ≠ .connected then (-enotconn, r.2)
  else (0, r.2)

/-- A reply without a pending disconnect. -/
def plain (r : ℤ × Adapter) : Reply × Adapter := (⟨r.1, false⟩, r.2)

/-- The operations of the controller; the LED, the reboot and the work queue are backend calls. -/
def exec : Exec Adapter
  | .setAccessMode mode, w => plain (w.setAccessMode mode)
  | .advertisingSuspend, w => plain w.suspendLocked
  | .advertisingStart, w => plain w.startLocked
  | .disconnectPeer, w => w.disconnectPeer
  | .deleteAllBonds, w => plain w.deleteAllBonds
  | .requestSecurity, w => plain w.requestSecurity
  | .ledSet _, w => plain (w.backendCall.1.ret, w.backendCall.2)
  | .coldReboot, w => plain (w.backendCall.1.ret, w.backendCall.2)
  | .schedule _, w => plain (w.backendCall.1.ret, w.backendCall.2)

/-- A new connection stops advertising. -/
def arrive : Input → Adapter → Adapter
  | .connected, w => { w with adv := none }
  | _, w => w

/-- The adapter after its initialisation. -/
def Fresh : Prop := w.policy = .openMode ∧ w.applied = .suspended ∧ w.adv = none

/-! ### What the operations do -/

variable {w}

/-- NORMAL access is the policy BONDED_ONLY; advertising goes on as it is. -/
theorem setAccessMode_normal (h : 0 ≤ (exec (.setAccessMode .normal) w).1.ret) :
    (exec (.setAccessMode .normal) w).2.policy = .bondedOnly ∧
      (exec (.setAccessMode .normal) w).2.adv = w.adv := by
  simp only [exec, plain, setAccessMode, attempt] at h ⊢
  split_ifs at h ⊢ with hr
  · exact absurd h (not_le.2 hr)
  · exact ⟨rfl, rfl⟩

theorem advertisingStart_ok (h : 0 ≤ (exec .advertisingStart w).1.ret) :
    (exec .advertisingStart w).2.policy = w.policy ∧
      (exec .advertisingStart w).2.adv = some (w.policy == .bondedOnly) := by
  simp only [exec, plain, startLocked, attempt] at h ⊢
  split_ifs at h ⊢ with h₀ h₁ h₂ h₃ h₄ h₅
  · exact absurd h (by simp [eacces])
  · exact absurd h (not_le.2 h₁)
  · exact absurd h (not_le.2 h₂)
  · exact absurd h (not_le.2 h₃)
  · exact absurd h (not_le.2 h₄)
  · exact absurd h (not_le.2 h₅)
  · exact ⟨rfl, rfl⟩

end Adapter

/-! ### The invariant -/

namespace Ctl

open Adapter

/-- In NORMAL / IDLE the policy is BONDED_ONLY, and no open advertising runs. -/
structure FilterInv (c : Ctl Adapter) : Prop where
  fatal : c.fatal = true → c.status.phase = .fatal
  filtered : c.normalIdle = true → c.world.policy = .bondedOnly ∧ c.world.adv ≠ some false

/-- The same for everything the invariant looks at. -/
structure Like (c c' : Ctl Adapter) : Prop where
  fatal : c'.fatal = c.fatal
  mode : c'.status.mode = c.status.mode
  phase : c'.status.phase = c.status.phase
  policy : c'.world.policy = c.world.policy
  adv : c'.world.adv = c.world.adv

variable {c c' : Ctl Adapter}

theorem FilterInv.like (h : c.FilterInv) (hl : c.Like c') : c'.FilterInv := by
  refine ⟨fun hf => hl.phase.trans (h.fatal (hl.fatal.symm.trans hf)), fun hn => ?_⟩
  rw [hl.policy, hl.adv]
  refine h.filtered ?_
  rw [normalIdle, hl.mode, hl.phase] at hn
  exact hn

theorem filterInv_of_mode (hf : c.fatal = false) (hm : c.status.mode ≠ .normal) : c.FilterInv := by
  refine ⟨fun h => Bool.noConfusion (hf.symm.trans h), fun hn => absurd ?_ hm⟩
  simp only [normalIdle, Bool.and_eq_true, beq_iff_eq] at hn
  exact hn.1

/-! ### Operations -/

theorem attempt_filterInv {o : Op} {k : Reply → Ctl Adapter → Ctl Adapter} (hf : c.fatal = false)
    (hk : 0 ≤ (exec o c.world).1.ret → (k (exec o c.world).1 (c.call exec o).2).FilterInv) :
    (c.attempt exec o k).FilterInv := by
  refine attempt_cases (fun _ => ⟨fun _ => fatalFinalize_phase hf, fun hn => ?_⟩) hk
  have hp : ((c.call exec o).2.fatalFinalize exec).status.phase = .fatal := fatalFinalize_phase hf
  simp [normalIdle, hp] at hn

theorem ledSetActive_filterInv {active : Bool} {k : Ctl Adapter → Ctl Adapter}
    (hf : c.fatal = false) (hk : ∀ c', c.Like c' → (k c').FilterInv) :
    (c.ledSetActive exec active k).FilterInv :=
  attempt_filterInv hf fun _ => hk _ ⟨rfl, rfl, rfl, rfl, rfl⟩

theorem restartBlink_filterInv {rapid : Bool} {k : Ctl Adapter → Ctl Adapter}
    (hf : c.fatal = false) (hk : ∀ c', c.Like c' → (k c').FilterInv) :
    (c.restartBlink exec rapid k).FilterInv := by
  unfold restartBlink
  exact attempt_filterInv hf fun _ => hk _ ⟨rfl, rfl, rfl, rfl, rfl⟩

/-! ### Transitions -/

theorem finishBondingEntry_filterInv (hf : c.fatal = false) :
    (c.finishBondingEntry exec).FilterInv := by
  refine attempt_filterInv hf fun _ => ?_
  refine ledSetActive_filterInv hf fun c₂ h₂ => ?_
  refine restartBlink_filterInv (h₂.fatal.trans hf) fun c₃ h₃ => ?_
  have hf₃ : c₃.fatal = false := h₃.fatal.trans (h₂.fatal.trans hf)
  refine attempt_filterInv hf₃ fun _ => filterInv_of_mode hf₃ ?_
  show c₃.status.mode ≠ .normal
  rw [h₃.mode, h₂.mode]
  simp

theorem startResetFeedback_filterInv (hf : c.fatal = false) :
    (c.startResetFeedback exec).FilterInv := by
  refine attempt_filterInv hf fun _ => ?_
  refine ledSetActive_filterInv hf fun c₂ h₂ => ?_
  refine restartBlink_filterInv (h₂.fatal.trans hf) fun c₃ h₃ => ?_
  have hf₃ : c₃.fatal = false := h₃.fatal.trans (h₂.fatal.trans hf)
  refine attempt_filterInv (c := { c₃ with feedback.gen := c₃.status.generation }) hf₃
    fun _ => filterInv_of_mode hf₃ ?_
  show c₃.status.mode ≠ .normal
  rw [h₃.mode, h₂.mode]
  simp

theorem doStart_filterInv (hf : c.fatal = false) : (c.doStart exec).FilterInv := by
  refine attempt_filterInv hf fun hr₁ => ?_
  obtain ⟨hpolicy, -⟩ := setAccessMode_normal hr₁
  refine ledSetActive_filterInv hf fun c₂ h₂ => ?_
  have hf₂ : c₂.fatal = false := h₂.fatal.trans hf
  refine attempt_filterInv hf₂ fun hr₂ => ?_
  obtain ⟨hpolicy', hadv⟩ := advertisingStart_ok hr₂
  have hbonded : c₂.world.policy = .bondedOnly := h₂.policy.trans hpolicy
  refine ⟨fun h => Bool.noConfusion (hf₂.symm.trans h), fun _ => ⟨hpolicy'.trans hbonded, ?_⟩⟩
  show (exec .advertisingStart c₂.world).2.adv ≠ some false
  rw [hadv, hbonded]
  simp

theorem doBonding_filterInv (hf : c.fatal = false) : (c.doBonding exec).FilterInv := by
  refine attempt_filterInv hf fun _ => attempt_filterInv hf fun _ =>
    attempt_filterInv hf fun _ => ?_
  dsimp only
  split
  · exact filterInv_of_mode hf (by simp)
  · exact finishBondingEntry_filterInv hf

theorem doReset_filterInv (h : c.FilterInv) (hf : c.fatal = false) :
    (c.doReset exec).FilterInv := by
  unfold doReset
  split_ifs
  · exact h
  · refine attempt_filterInv hf fun _ => attempt_filterInv hf fun _ =>
      attempt_filterInv hf fun _ => ?_
    dsimp only
    split
    · exact filterInv_of_mode hf (by simp)
    · exact startResetFeedback_filterInv hf

/-- A completion changes the policy and leaves advertising as it is. -/
theorem doCompleteToNormal_filterInv (hf : c.fatal = false) (hadv : c.world.adv ≠ some false) :
    (c.doCompleteToNormal exec).FilterInv := by
  unfold doCompleteToNormal
  refine attempt_filterInv hf fun hr => ?_
  obtain ⟨hpolicy, hsame⟩ := setAccessMode_normal hr
  refine ledSetActive_filterInv hf fun c₂ h₂ => ?_
  have hf₂ : c₂.fatal = false := h₂.fatal.trans hf
  exact ⟨fun h => Bool.noConfusion (hf₂.symm.trans h), fun _ => ⟨h₂.policy.trans hpolicy, by
    rw [id, h₂.adv]
    exact hsame ▸ hadv⟩⟩

/-! ### Runs -/

/-- The part of the pass completes a bonding. -/
def Completes (c : Ctl Adapter) (ev : Finset Event) : Stage → Prop
  | .pairingComplete => .pairingComplete ∈ ev ∧ c.pairingCompleteBonded ∧ c.bondingIdle
  | .securityChanged =>
    .securityChanged ∈ ev ∧ c.securitySuccess ∧ c.securityBonded ∧ c.bondingIdle
  | _ => False

/-- The condition on a step: where a bonding is completed no open advertising runs. -/
def ClosedCompletion (s : Sys Adapter) (a : Action) : Prop :=
  a = .stage → ∀ st ∈ s.work.head?, s.ctl.Completes s.mask st → s.ctl.world.adv ≠ some false

theorem stage_filterInv (h : c.FilterInv) (hf : c.fatal = false) {ev : Finset Event} {st : Stage}
    (hc : c.Completes ev st → c.world.adv ≠ some false) : (c.stage exec ev st).1.FilterInv := by
  cases st with
  | entry =>
    simp only [stage, stageEntry]
    split_ifs
    · exact h
    · exact doStart_filterInv hf
    · exact h
  | reset =>
    simp only [stage, stageReset]
    split_ifs
    · exact doReset_filterInv h hf
    · exact h
  | bonding =>
    simp only [stage, stageBonding]
    split_ifs
    · exact h
    · exact h
    · exact doBonding_filterInv hf
    · exact h
  | connected =>
    simp only [stage, stageConnected]
    split_ifs with hev hb hn <;> dsimp only
    · -- BONDING / IDLE is not NORMAL
      refine attempt_filterInv hf fun _ => filterInv_of_mode hf fun hm => ?_
      replace hm : c.status.mode = .normal := hm
      simp [bondingIdle, hm] at hb
    · exact h.like ⟨rfl, rfl, rfl, rfl, rfl⟩
    · refine attempt_filterInv hf fun _ => attempt_filterInv hf fun _ =>
        ⟨fun hf' => ?_, fun hn' => ?_⟩
      · exact Bool.noConfusion (hf.symm.trans hf')
      · exact absurd hn' hn
    · exact h
  | disconnected =>
    simp only [stage, stageDisconnected]
    split_ifs with hev h₁ h₂ h₃ h₄ <;> dsimp only
    · exact finishBondingEntry_filterInv hf
    · exact startResetFeedback_filterInv hf
    · -- advertising restarts under the policy that is there
      refine attempt_filterInv hf fun hr =>
        ⟨fun hf' => Bool.noConfusion (hf.symm.trans hf'), fun hn => ?_⟩
      obtain ⟨hpolicy, hadv⟩ := advertisingStart_ok hr
      obtain ⟨hbonded, -⟩ := h.filtered hn
      refine ⟨hpolicy.trans hbonded, ?_⟩
      show (exec .advertisingStart c.world).2.adv ≠ some false
      rw [show (exec .advertisingStart c.world).2.adv = _ from hadv]
      simp [note, hbonded]
    · exact h.like ⟨rfl, rfl, rfl, rfl, rfl⟩
    · exact h.like ⟨rfl, rfl, rfl, rfl, rfl⟩
    · exact h
  | pairingComplete =>
    simp only [stage, stagePairingComplete]
    split_ifs with hcond
    · -- by the condition no open advertising runs here
      exact doCompleteToNormal_filterInv hf (hc hcond)
    · exact h
  | securityChanged =>
    simp only [stage, stageSecurityChanged]
    split_ifs with hcond
    · exact doCompleteToNormal_filterInv hf (hc hcond)
    · exact h
  | start =>
    simp only [stage, stageStart]
    split_ifs
    · exact doStart_filterInv hf
    · exact h

theorem blinkHandler_filterInv (h : c.FilterInv) :
    ({ c with blink.pending := false }.blinkHandler exec).FilterInv := by
  have h' : FilterInv { c with blink.pending := false } := h.like ⟨rfl, rfl, rfl, rfl, rfl⟩
  unfold blinkHandler
  split_ifs with h₁ h₂ h₃ h₄ h₅
  · exact h'
  · exact h'
  · exact h'
  · replace h₁ := Bool.not_eq_true _ ▸ h₁
    refine ledSetActive_filterInv h₁ fun c₂ h₂ => ?_
    dsimp only
    split
    · refine attempt_filterInv (h₂.fatal.trans h₁) fun _ => h'.like ⟨?_, ?_, ?_, ?_, ?_⟩
      exacts [h₂.fatal, h₂.mode, h₂.phase, h₂.policy, h₂.adv]
    · exact h'.like ⟨h₂.fatal, h₂.mode, h₂.phase, h₂.policy, h₂.adv⟩
  · replace h₁ := Bool.not_eq_true _ ▸ h₁
    refine ledSetActive_filterInv h₁ fun c₂ h₂ => ?_
    refine attempt_filterInv (h₂.fatal.trans h₁) fun _ => h'.like ⟨?_, ?_, ?_, ?_, ?_⟩
    exacts [h₂.fatal, h₂.mode, h₂.phase, h₂.policy, h₂.adv]
  · exact h'

theorem feedbackHandler_filterInv (h : c.FilterInv) :
    ({ c with feedback.pending := false }.feedbackHandler exec).FilterInv := by
  have h' : FilterInv { c with feedback.pending := false } := h.like ⟨rfl, rfl, rfl, rfl, rfl⟩
  unfold feedbackHandler
  dsimp only
  split_ifs with h₁ h₂ h₃
  · exact h'
  · exact h'
  · exact h'
  · exact finishBondingEntry_filterInv (Bool.not_eq_true _ ▸ h₁)
  · exact FilterInv.like (finishBondingEntry_filterInv (Bool.not_eq_true _ ▸ h₁))
      ⟨rfl, rfl, rfl, rfl, rfl⟩

theorem filterInv_of_reachableBy {s : Sys Adapter}
    (h : (Sys.machine exec arrive Fresh).ReachableBy ClosedCompletion s) : s.ctl.FilterInv := by
  refine Sys.invariant h ?_ ?_ ?_ (fun _ => blinkHandler_filterInv)
    fun _ => feedbackHandler_filterInv
  · exact fun w _ => ⟨fun hf => Bool.noConfusion hf, fun hn => Bool.noConfusion hn⟩
  · intro c i hc
    cases i with
    | connected =>
      exact ⟨hc.fatal, fun hn => ⟨(hc.filtered hn).1, by simp [receive, arrive]⟩⟩
    | _ => exact hc.like ⟨rfl, rfl, rfl, rfl, rfl⟩
  · intro s st sts hw hok hf hs
    exact stage_filterInv hs hf (hok rfl st (by simp [hw]))

/-- **NORMAL is filtered.**  In every run in which no completion of a bonding meets running open
advertising, advertising that runs in NORMAL / IDLE has the connection filter. -/
theorem filtered_of_normalIdle {s : Sys Adapter}
    (h : (Sys.machine exec arrive Fresh).ReachableBy ClosedCompletion s)
    (hn : s.ctl.normalIdle = true) {f : Bool} (hadv : s.ctl.world.adv = some f) : f = true := by
  obtain ⟨-, hopen⟩ := (filterInv_of_reachableBy h).filtered hn
  cases f with
  | true => rfl
  | false => exact absurd hadv hopen

/-! ### Two runs -/

/-- A backend without failures: the peer is there from the request for security on. -/
def calm : Adapter where
  policy := .openMode
  applied := .suspended
  adv := none
  backend n := ⟨0, if n < 9 then .absent else .connected⟩
  calls := 0

/-- Start, open advertising for a bonding, and a peer that connects. -/
def bondingConnected : List Action :=
  .input .start :: pass 1 ++ .input .requestBonding :: pass 8 ++ .input .connected :: pass 8

instance (c : Ctl Adapter) (ev : Finset Event) (st : Stage) : Decidable (c.Completes ev st) :=
  match st with
  | .pairingComplete => inferInstanceAs (Decidable (_ ∧ _ ∧ _))
  | .securityChanged => inferInstanceAs (Decidable (_ ∧ _ ∧ _ ∧ _))
  | .entry | .reset | .bonding | .connected | .disconnected | .start =>
    inferInstanceAs (Decidable False)

instance (s : Sys Adapter) (a : Action) : Decidable (ClosedCompletion s a) :=
  inferInstanceAs (Decidable (_ → _))

/-- The bonding is completed while the peer is connected: after its disconnect advertising is
filtered. -/
theorem filtered_of_normalIdle_connected :
    ∃ s, (Sys.machine exec arrive Fresh).ReachableBy ClosedCompletion s ∧ s.work = [] ∧
      s.pending = ∅ ∧ s.ctl.normalIdle = true ∧ ∃ f, s.ctl.world.adv = some f ∧ f = true := by
  have hrun : (((Sys.machine exec arrive Fresh).runBy ClosedCompletion
      ⟨init calm, ∅, [], ∅⟩ (bondingConnected ++ .input (.pairingComplete true) :: pass 8 ++
        .input .disconnected :: pass 8)).map
      fun s => (s.work, s.pending, s.ctl.normalIdle, s.ctl.world.adv)) =
      some ([], ∅, true, some true) := by decide +kernel
  obtain ⟨s, hs, h⟩ := Option.map_eq_some_iff.1 hrun
  obtain ⟨hwork, hpend, hn, hadv⟩ : _ ∧ _ ∧ _ ∧ _ := by simpa only [Prod.mk.injEq] using h
  have hreach := (Sys.init_reachable (w := calm) ⟨rfl, rfl, rfl⟩).runBy hs
  exact ⟨s, hreach, hwork, hpend, hn, true, hadv, filtered_of_normalIdle hreach hn hadv⟩

/-- A completion and the disconnect in one mask: open advertising runs in NORMAL / IDLE. -/
theorem open_of_completion_and_disconnect :
    ∃ s, (Sys.machine exec arrive Fresh).Reachable s ∧ s.work = [] ∧ s.pending = ∅ ∧
      s.ctl.normalIdle = true ∧ s.ctl.world.adv = some false := by
  have hrun : (((Sys.machine exec arrive Fresh).run ⟨init calm, ∅, [], ∅⟩
      (bondingConnected ++ .input (.pairingComplete true) :: .input .disconnected :: pass 8)).map
      fun s => (s.work, s.pending, s.ctl.normalIdle, s.ctl.world.adv)) =
      some ([], ∅, true, some false) := by decide +kernel
  obtain ⟨s, hs, h⟩ := Option.map_eq_some_iff.1 hrun
  obtain ⟨hwork, hpend, hn, hadv⟩ : _ ∧ _ ∧ _ ∧ _ := by simpa only [Prod.mk.injEq] using h
  exact ⟨s, Machine.Reachable.run (Sys.init_reachable (w := calm) ⟨rfl, rfl, rfl⟩) hs, hwork, hpend,
    hn, hadv⟩

end Ctl

end Pairing

end LeAudioReceiver
