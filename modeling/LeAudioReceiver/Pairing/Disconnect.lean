import LeAudioReceiver.Pairing.Run

/-!
# A disconnect that is waited for

In the phases `WAIT_DISCONNECT_FOR_*` the controller waits for the disconnect of its peer.  This
file asks, for operations that do not fail, whether the pass that consumes the disconnect also
ends the wait.  `Watch` runs the controller and remembers whether the disconnect of a mask was
enqueued during a wait.

* `Watch.not_waiting` : a consumed disconnect ends the wait in every run in which no RESET of the
  same mask joins a reset that is waiting, or is told by `disconnect_peer` that a disconnect is
  still pending;
* `Ctl.step_joined_reset` : a RESET that joins a waiting reset takes the whole mask with it.
-/

namespace LeAudioReceiver

namespace Pairing

namespace Ctl

/-- What `disconnect_peer` reports in a transition, behind the suspension. -/
def disconnectPending {W : Type*} (exec : Exec W) (w : W) : Bool :=
  (exec .disconnectPeer
    (exec (.setAccessMode .suspended) (exec .advertisingSuspend w).2).2).1.pending

/-- A mask with a reset request. -/
def ResetRequested (ev : Finset Event) : Prop := .reset ∈ ev ∨ .resetSync ∈ ev

instance : DecidablePred ResetRequested := fun _ => inferInstanceAs (Decidable (_ ∨ _))

/-- The controller waits for a disconnect. -/
def waiting {W : Type*} (c : Ctl W) : Bool :=
  c.status.phase == .waitDisconnectForBonding || c.status.phase == .waitDisconnectForReset

theorem waiting_of_phase {W : Type*} {c : Ctl W} {p : Phase} (h : c.status.phase = p)
    (h₁ : p ≠ .waitDisconnectForBonding) (h₂ : p ≠ .waitDisconnectForReset) :
    c.waiting = false := by
  simp [waiting, h, h₁, h₂]

/-- What no operation changes unless it fails: the fatal latch and the start flag. -/
def Keeps {W : Type*} (c c' : Ctl W) : Prop := c'.fatal = c.fatal ∧ c'.started = c.started

section NonFailing

variable {W : Type*} {exec : Exec W} (hx : NonFailing exec) {c : Ctl W} {ev : Finset Event}

/-- A RESET that joins a waiting reset takes the whole mask with it. -/
theorem step_joined_reset (hs : c.started = true) (hr : ResetRequested ev)
    (hphase : c.status.phase = .waitDisconnectForReset) : c.step exec ev = c := by
  have hentry : c.stage exec ev .entry = (c, true) := by simp [stage, stageEntry, hs]
  have hreset : c.stage exec ev .reset = (c, false) :=
    stage_joined_reset (by simp [resetInProgress, hphase]) hr
  simp [step, Stage.all, stages, hentry, hreset]

include hx

theorem attempt_ok (o : Op) (k : Reply → Ctl W → Ctl W) :
    c.attempt exec o k = k (exec o c.world).1 (c.call exec o).2 :=
  if_neg (not_lt.2 (hx o c.world))

/-! ### What the transitions do -/

theorem finishBondingEntry_ok :
    (c.finishBondingEntry exec).waiting = false ∧ c.Keeps (c.finishBondingEntry exec) := by
  simp [finishBondingEntry, ledSetActive, restartBlink, attempt_ok hx, call, waiting, Keeps]

theorem startResetFeedback_ok :
    (c.startResetFeedback exec).waiting = false ∧ c.Keeps (c.startResetFeedback exec) := by
  simp [startResetFeedback, ledSetActive, restartBlink, attempt_ok hx, call, waiting, Keeps]

theorem doStart_ok :
    (c.doStart exec).waiting = false ∧ (c.doStart exec).fatal = c.fatal ∧
      (c.doStart exec).started = true := by
  simp [doStart, ledSetActive, attempt_ok hx, call, waiting]

theorem doBonding_ok : c.Keeps (c.doBonding exec) := by
  simp only [doBonding, attempt_ok hx]
  split
  · exact ⟨rfl, rfl⟩
  · exact (finishBondingEntry_ok hx).2

theorem doReset_ok :
    c.Keeps (c.doReset exec) ∧
      (c.status.phase ≠ .waitDisconnectForReset → disconnectPending exec c.world = false →
        (c.doReset exec).waiting = false) := by
  unfold doReset
  split_ifs with hjoin
  · refine ⟨⟨rfl, rfl⟩, fun hphase _ => waiting_of_phase rfl ?_ hphase⟩
    intro h
    simp [resetInProgress, h] at hjoin
  · simp only [attempt_ok hx]
    split
    · rename_i hp
      exact ⟨⟨rfl, rfl⟩, fun _ hnot => Bool.noConfusion (hp.symm.trans hnot)⟩
    · exact ⟨(startResetFeedback_ok hx).2, fun _ _ => (startResetFeedback_ok hx).1⟩

theorem doCompleteToNormal_ok :
    (c.doCompleteToNormal exec).waiting = c.waiting ∧ c.Keeps (c.doCompleteToNormal exec) := by
  simp [doCompleteToNormal, ledSetActive, attempt_ok hx, call, waiting, Keeps]

/-! ### The parts of a pass -/

theorem stageDisconnected_waiting (hd : .disconnected ∈ ev) :
    (c.stageDisconnected exec ev).1.waiting = false := by
  simp only [stageDisconnected, if_pos hd]
  split_ifs with h₁ h₂ h₃ h₄
  · exact (finishBondingEntry_ok hx).1
  · exact (startResetFeedback_ok hx).1
  · rw [attempt_ok hx]
    exact waiting_of_phase rfl h₁ h₂
  · exact waiting_of_phase rfl h₁ h₂
  · exact waiting_of_phase rfl h₁ h₂

/-- The parts behind DISCONNECTED do not start a wait. -/
theorem stage_waiting {st : Stage} (hst : st ∈ [Stage.pairingComplete, .securityChanged, .start])
    (h : c.waiting = false) : (c.stage exec ev st).1.waiting = false := by
  simp only [List.mem_cons, List.not_mem_nil, or_false] at hst
  rcases hst with rfl | rfl | rfl
  · simp only [stage, stagePairingComplete]
    split_ifs
    · exact (doCompleteToNormal_ok hx).1.trans h
    · exact h
  · simp only [stage, stageSecurityChanged]
    split_ifs
    · exact (doCompleteToNormal_ok hx).1.trans h
    · exact h
  · simp only [stage, stageStart]
    split_ifs
    · exact (doStart_ok hx).1
    · exact h

/-- No part behind the entry stops a started controller, and only RESET stops the pass. -/
theorem stage_started (ev : Finset Event) {st : Stage} (hst : st ≠ .entry) (hf : c.fatal = false)
    (hs : c.started = true) :
    c.Keeps (c.stage exec ev st).1 ∧ (st ≠ .reset → (c.stage exec ev st).2 = true) := by
  -- whatever a part does, it keeps the two flags, and then it continues
  have hcont : ∀ c' : Ctl W, c.Keeps c' → c.Keeps c' ∧ (st ≠ .reset → (!c'.fatal) = true) :=
    fun c' h => ⟨h, fun _ => by rw [h.1, hf]; rfl⟩
  have hstay : c.Keeps c ∧ (st ≠ .reset → true = true) := ⟨⟨rfl, rfl⟩, fun _ => rfl⟩
  cases st with
  | entry => exact absurd rfl hst
  | reset =>
    simp only [stage, stageReset]
    split_ifs
    · exact ⟨(doReset_ok hx).1, fun h => absurd rfl h⟩
    · exact hstay
  | bonding =>
    simp only [stage, stageBonding]
    split_ifs
    · exact hstay
    · exact hstay
    · exact hcont _ (doBonding_ok hx (c := c.bumpGeneration.note .bonding))
    · exact hstay
  | connected =>
    simp only [stage, stageConnected]
    split_ifs
    · exact hcont _ (by rw [attempt_ok hx]; exact ⟨rfl, rfl⟩)
    · exact hcont _ ⟨rfl, rfl⟩
    · exact hcont _ (by rw [attempt_ok hx, attempt_ok hx]; exact ⟨rfl, rfl⟩)
    · exact hstay
  | disconnected =>
    simp only [stage, stageDisconnected]
    split_ifs
    · exact hcont _ (finishBondingEntry_ok hx (c := note { c with status.connected := false } _)).2
    · exact hcont _ (startResetFeedback_ok hx (c := note { c with status.connected := false } _)).2
    · exact hcont _ (by rw [attempt_ok hx]; exact ⟨rfl, rfl⟩)
    · exact hcont _ ⟨rfl, rfl⟩
    · exact hcont _ ⟨rfl, rfl⟩
    · exact hstay
  | pairingComplete =>
    simp only [stage, stagePairingComplete]
    split_ifs
    · exact hcont _ (doCompleteToNormal_ok hx).2
    · exact hstay
  | securityChanged =>
    simp only [stage, stageSecurityChanged]
    split_ifs
    · exact hcont _ (doCompleteToNormal_ok hx).2
    · exact hstay
  | start =>
    have hstart : c.stage exec ev .start = (c, true) := if_neg fun h => h.2 hs
    rw [hstart]
    exact hstay

/-! ### Delayed works -/

theorem blinkHandler_ok :
    (c.blinkHandler exec).waiting = c.waiting ∧ c.Keeps (c.blinkHandler exec) := by
  simp only [blinkHandler, ledSetActive, attempt_ok hx]
  repeat' split
  all_goals exact ⟨rfl, rfl, rfl⟩

theorem feedbackHandler_ok :
    (c.waiting = false → (c.feedbackHandler exec).waiting = false) ∧
      c.Keeps (c.feedbackHandler exec) := by
  have hfin := finishBondingEntry_ok hx (c := note { c with blink.pending := false } .expiry)
  simp only [feedbackHandler]
  split_ifs
  · exact ⟨id, rfl, rfl⟩
  · exact ⟨id, rfl, rfl⟩
  · exact ⟨id, rfl, rfl⟩
  · exact ⟨fun _ => hfin.1, hfin.2⟩
  · exact ⟨fun _ => hfin.1, hfin.2⟩

end NonFailing

end Ctl

/-! ### Runs -/

/-- The controller with a record of the disconnects that it waits for. -/
structure Watch (W : Type*) where
  sys : Sys W
  /-- A disconnect was enqueued during a wait and is still pending. -/
  owed : Bool
  /-- The mask of the last pass holds such a disconnect. -/
  taken : Bool

namespace Watch

section Machine

variable {W : Type*} (exec : Exec W) (arrive : Input → W → W)

/-- The record after an action. -/
def record (w : Watch W) (a : Action) (s : Sys W) : Watch W :=
  match a with
  | .input .disconnected =>
    ⟨s, w.owed || (w.sys.ctl.waiting && !w.sys.ctl.fatal), w.taken⟩
  | .begin => ⟨s, false, w.owed⟩
  | _ => ⟨s, w.owed, w.taken⟩

/-- The machine of the controller with the record. -/
def machine (start : W → Prop) : Machine (Watch W) Action where
  init w := (Sys.machine exec arrive start).init w.sys ∧ w.owed = false ∧ w.taken = false
  next w a := (w.sys.next exec arrive a).map (w.record a)

/-- The condition on a step: a RESET behind which a disconnect of the same mask disappears does
not join a waiting reset, and `disconnect_peer` does not tell it to wait. -/
def ResetClear (w : Watch W) (a : Action) : Prop :=
  a = .stage → w.sys.work.head? = some .reset → w.taken = true →
    Ctl.ResetRequested w.sys.mask →
      w.sys.ctl.status.phase ≠ .waitDisconnectForReset ∧
        Ctl.disconnectPending exec w.sys.ctl.world = false

/-- What holds along the runs. -/
structure Inv (w : Watch W) : Prop where
  fatal : w.sys.ctl.fatal = false
  /-- The parts that are left. -/
  suffix : w.sys.work <:+ Stage.all
  started : w.sys.work ≠ [] → .entry ∉ w.sys.work → w.sys.ctl.started = true
  unstarted : w.sys.ctl.started = false → w.sys.ctl.waiting = false
  owed : w.owed = true → .disconnected ∈ w.sys.pending
  taken : w.taken = true → .disconnected ∈ w.sys.mask ∧
    (.disconnected ∈ w.sys.work ∨ w.sys.ctl.waiting = false)

theorem suffix_order {st : Stage} {sts : List Stage} (h : st :: sts <:+ Stage.all) :
    .entry ∉ sts ∧ (.disconnected ∈ sts ∨ st = .disconnected ∨
      (st ∈ [Stage.pairingComplete, .securityChanged, .start] ∧ .disconnected ∉ sts)) := by
  simp only [Stage.all, List.suffix_cons_iff, List.cons.injEq, List.suffix_nil, reduceCtorEq,
    or_false] at h
  rcases h with ⟨rfl, rfl⟩ | ⟨rfl, rfl⟩ | ⟨rfl, rfl⟩ | ⟨rfl, rfl⟩ | ⟨rfl, rfl⟩ | ⟨rfl, rfl⟩ |
    ⟨rfl, rfl⟩ | ⟨rfl, rfl⟩
  all_goals simp

variable {exec arrive} (hx : Ctl.NonFailing exec) {w : Watch W}
include hx

theorem Inv.stage (h : w.Inv) (hok : w.ResetClear exec .stage) {st : Stage} {sts : List Stage}
    (hw : w.sys.work = st :: sts) :
    Inv ⟨{ w.sys with
      ctl := (w.sys.ctl.stage exec w.sys.mask st).1
      work := if (w.sys.ctl.stage exec w.sys.mask st).2 then sts else [] }, w.owed, w.taken⟩ := by
  obtain ⟨hentry, horder⟩ := suffix_order (hw ▸ h.suffix)
  have hsub : (if (w.sys.ctl.stage exec w.sys.mask st).2 then sts else []) <:+ Stage.all := by
    split_ifs
    · exact (List.suffix_cons st sts).trans (hw ▸ h.suffix)
    · exact List.nil_suffix
  have htaken := h.taken
  rw [hw] at htaken
  by_cases hst : st = .entry
  · subst hst
    cases hs : w.sys.ctl.started with
    | true =>
      have hstage : w.sys.ctl.stage exec w.sys.mask .entry = (w.sys.ctl, true) := by
        simp [Ctl.stage, Ctl.stageEntry, hs]
      rw [hstage] at hsub ⊢
      refine ⟨h.fatal, hsub, fun _ _ => hs, h.unstarted, h.owed, fun ht => ?_⟩
      simpa using htaken ht
    | false =>
      -- before the start there is no wait, and nothing but the start happens
      have hwait := h.unstarted hs
      have hstage : w.sys.ctl.stage exec w.sys.mask .entry =
          (if .start ∈ w.sys.mask then w.sys.ctl.doStart exec else w.sys.ctl, false) := by
        simp [Ctl.stage, Ctl.stageEntry, hs]
      obtain ⟨hdw, hdf, hds⟩ := Ctl.doStart_ok hx (c := w.sys.ctl)
      have hctl :
          (if .start ∈ w.sys.mask then w.sys.ctl.doStart exec else w.sys.ctl).fatal = false ∧
          (if .start ∈ w.sys.mask then w.sys.ctl.doStart exec else w.sys.ctl).waiting = false := by
        split_ifs
        · exact ⟨hdf.trans h.fatal, hdw⟩
        · exact ⟨h.fatal, hwait⟩
      rw [hstage]
      exact ⟨hctl.1, List.nil_suffix, fun hne => absurd rfl hne, fun _ => hctl.2, h.owed,
        fun ht => ⟨(htaken ht).1, .inr hctl.2⟩⟩
  · have hs : w.sys.ctl.started = true :=
      h.started (by simp [hw]) (by simp [hw, hentry, Ne.symm hst])
    obtain ⟨⟨hf', hs'⟩, hflag⟩ := Ctl.stage_started hx w.sys.mask hst h.fatal hs
    have hs'' := hs'.trans hs
    refine ⟨hf'.trans h.fatal, hsub, fun _ _ => hs'',
      fun hn => absurd (hs''.symm.trans hn) (by simp), h.owed, fun ht => ⟨(htaken ht).1, ?_⟩⟩
    dsimp only
    obtain ⟨hmask, hwait⟩ := htaken ht
    by_cases hreset : st = .reset
    · subst hreset
      by_cases hr : Ctl.ResetRequested w.sys.mask
      · obtain ⟨hphase, hpend⟩ := hok rfl (by rw [hw]; rfl) ht hr
        have hstage : w.sys.ctl.stage exec w.sys.mask .reset = (w.sys.ctl.doReset exec, false) :=
          if_pos hr
        rw [hstage]
        exact .inr ((Ctl.doReset_ok hx).2 hphase hpend)
      · have hstage : w.sys.ctl.stage exec w.sys.mask .reset = (w.sys.ctl, true) := if_neg hr
        rw [hstage]
        simpa using hwait
    · rw [if_pos (hflag hreset)]
      rcases horder with hlater | rfl | ⟨hlast, hnone⟩
      · exact .inl hlater
      · exact .inr (Ctl.stageDisconnected_waiting hx hmask)
      · refine .inr (Ctl.stage_waiting hx hlast (hwait.resolve_left ?_))
        intro hd
        rcases List.mem_cons.1 hd with rfl | hd'
        · simp at hlast
        · exact hnone hd'

/-- The invariant is kept by every step. -/
theorem Inv.next (h : w.Inv) {a : Action} (hok : w.ResetClear exec a) {s : Sys W}
    (hnext : w.sys.next exec arrive a = some s) : (w.record a s).Inv := by
  -- a DISCONNECTED is owed from its arrival until the pass that takes it
  cases a with
  | input i =>
    obtain rfl := Option.some.inj hnext
    have hf : (w.sys.ctl.receive arrive i).fatal = false := (Sys.receive_fatal _ i).trans h.fatal
    have hphase : (w.sys.ctl.receive arrive i).waiting = w.sys.ctl.waiting := by cases i <;> rfl
    have hstart : (w.sys.ctl.receive arrive i).started = w.sys.ctl.started := by cases i <;> rfl
    have howed : (w.record (.input i) w.sys).owed = true → .disconnected ∈
        if w.sys.ctl.fatal then w.sys.pending else insert i.event w.sys.pending := by
      rw [h.fatal]
      cases i with
      | disconnected => exact fun _ => Finset.mem_insert_self ..
      | _ => exact fun ho => Finset.mem_insert_of_mem (h.owed ho)
    have hinv : Inv ⟨{ w.sys with
        ctl := w.sys.ctl.receive arrive i
        pending := if w.sys.ctl.fatal then w.sys.pending else insert i.event w.sys.pending },
        (w.record (.input i) w.sys).owed, w.taken⟩ :=
      ⟨hf, h.suffix, fun h₁ h₂ => hstart.trans (h.started h₁ h₂),
        fun hs => hphase.trans (h.unstarted (hstart.symm.trans hs)), howed,
        fun ht => ⟨(h.taken ht).1, (h.taken ht).2.imp_right hphase.trans⟩⟩
    cases i <;> exact hinv
  | begin =>
    simp only [Sys.next] at hnext
    split_ifs at hnext with hcond
    obtain rfl := Option.some.inj hnext
    -- the part for it is still to come in the pass that begins
    have hall : .disconnected ∈ Stage.all := by simp [Stage.all]
    exact ⟨h.fatal, List.suffix_rfl, fun _ hne => absurd (List.mem_cons_self ..) hne, h.unstarted,
      fun ho => Bool.noConfusion ho, fun ht => ⟨h.owed ht, .inl hall⟩⟩
  | stage =>
    simp only [Sys.next] at hnext
    cases hw : w.sys.work with
    | nil => simp only [hw] at hnext; cases hnext
    | cons st sts =>
      simp only [hw] at hnext
      obtain rfl := Option.some.inj hnext
      exact h.stage hx hok hw
  | blink =>
    simp only [Sys.next] at hnext
    split_ifs at hnext with hcond
    obtain rfl := Option.some.inj hnext
    obtain ⟨hwait, hf, hs⟩ :=
      Ctl.blinkHandler_ok hx (c := { w.sys.ctl with blink.pending := false })
    exact ⟨hf.trans h.fatal, h.suffix, fun h₁ => absurd hcond.1 h₁,
      fun hs' => hwait.trans (h.unstarted (hs.symm.trans hs')), h.owed,
      fun ht => ⟨(h.taken ht).1, (h.taken ht).2.imp_right hwait.trans⟩⟩
  | feedback =>
    simp only [Sys.next] at hnext
    split_ifs at hnext with hcond
    obtain rfl := Option.some.inj hnext
    obtain ⟨hwait, hf, hs⟩ :=
      Ctl.feedbackHandler_ok hx (c := { w.sys.ctl with feedback.pending := false })
    exact ⟨hf.trans h.fatal, h.suffix, fun h₁ => absurd hcond.1 h₁,
      fun hs' => hwait (h.unstarted (hs.symm.trans hs')), h.owed,
      fun ht => ⟨(h.taken ht).1, (h.taken ht).2.imp_right hwait⟩⟩

theorem inv_of_reachableBy {start : W → Prop}
    (h : (machine exec arrive start).ReachableBy (ResetClear exec) w) : w.Inv := by
  refine h.invariant ?_ ?_
  · rintro ⟨s, owed, taken⟩ ⟨⟨world, -, rfl⟩, rfl, rfl⟩
    exact ⟨rfl, List.nil_suffix, fun hne => absurd rfl hne, fun _ => rfl,
      fun ho => Bool.noConfusion ho, fun ht => Bool.noConfusion ht⟩
  · intro w a w' hinv hok hnext
    obtain ⟨s, hs, rfl⟩ := Option.map_eq_some_iff.1 hnext
    exact hinv.next hx hok hs

/-- **No lost disconnect.**  In a run that satisfies the condition, behind the pass that consumes
a disconnect enqueued during a wait the controller does not wait. -/
theorem not_waiting {start : W → Prop}
    (h : (machine exec arrive start).ReachableBy (ResetClear exec) w) (hpass : w.sys.work = [])
    (ht : w.taken = true) : w.sys.ctl.waiting = false := by
  obtain ⟨-, hd | hwait⟩ := (inv_of_reachableBy hx h).taken ht
  · rw [hpass] at hd
    exact absurd hd List.not_mem_nil
  · exact hwait

end Machine

/-! ### Two runs -/

/-- Start, a connection, and a reset that waits for its end. -/
def waitingReset : List Action :=
  .input .start :: pass 1 ++ .input .connected :: pass 8 ++ .input .requestReset :: pass 2

/-- The controller without a peer, before its start. -/
def idle : Watch Bool := ⟨⟨Ctl.init false, ∅, [], ∅⟩, false, false⟩

theorem idle_reachable {ok : Watch Bool → Action → Prop} :
    (machine peerExec peerArrive fun _ => True).ReachableBy ok idle :=
  .init ⟨⟨false, trivial, rfl⟩, rfl, rfl⟩

instance (w : Watch Bool) (a : Action) : Decidable (w.ResetClear peerExec a) :=
  inferInstanceAs (Decidable (_ → _ → _ → _ → _))

/-- The disconnect alone ends the wait of the reset. -/
theorem not_waiting_alone :
    ∃ w, (machine peerExec peerArrive fun _ => True).ReachableBy (ResetClear peerExec) w ∧
      w.sys.work = [] ∧ w.taken = true ∧ w.sys.ctl.waiting = false := by
  have hrun : (((machine peerExec peerArrive fun _ => True).runBy (ResetClear peerExec) idle
      (waitingReset ++ .input .disconnected :: pass 8)).map
        fun w => (w.sys.work, w.taken)) = some ([], true) := by decide +kernel
  obtain ⟨w, hw, h⟩ := Option.map_eq_some_iff.1 hrun
  obtain ⟨hpass, ht⟩ := Prod.ext_iff.1 h
  have hreach := idle_reachable.runBy hw
  exact ⟨w, hreach, hpass, ht, not_waiting peerExec_nonFailing hreach hpass ht⟩

/-- A second RESET in the mask of the disconnect: the reset waits on, with nothing pending. -/
theorem waiting_of_second_reset :
    Ctl.NonFailing peerExec ∧ ∃ w, (machine peerExec peerArrive fun _ => True).Reachable w ∧
      w.sys.work = [] ∧ w.sys.pending = ∅ ∧ w.taken = true ∧
      w.sys.ctl.status.phase = .waitDisconnectForReset := by
  have hrun : (((machine peerExec peerArrive fun _ => True).run idle
      (waitingReset ++ .input .disconnected :: .input .requestReset :: pass 2)).map
        fun w => (w.sys.work, w.sys.pending, w.taken, w.sys.ctl.status.phase)) =
      some ([], ∅, true, .waitDisconnectForReset) := by decide +kernel
  obtain ⟨w, hw, h⟩ := Option.map_eq_some_iff.1 hrun
  obtain ⟨hpass, hpend, ht, hphase⟩ : _ ∧ _ ∧ _ ∧ _ := by simpa only [Prod.mk.injEq] using h
  exact ⟨peerExec_nonFailing, w, Machine.Reachable.run idle_reachable hw, hpass, hpend, ht, hphase⟩

end Watch

end Pairing

end LeAudioReceiver
