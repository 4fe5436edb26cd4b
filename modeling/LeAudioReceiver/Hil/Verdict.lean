import LeAudioReceiver.Hil.Legal
import LeAudioReceiver.Hil.Progress

/-!
# Errors and the verdict

The error flag is raised by the worker, by the answers to commands and by the sent callback.  The
worker clears it at the entry of a run and samples it at its waits and in the transmit stage; the
last sample of a segment is the one behind its drain.

* `Standing` : the run state by the place of the worker;
* `Overseen` : where an error of the run is still seen;
* `errored_fails` : **an error that is not raised in a blind window ends in FAIL**;
* `error_before_entry` : an error in such a window is lost, and the run passes.
-/

namespace LeAudioReceiver

namespace Hil

/-! ### Places -/

/-- Inside of the run, before its verdict. -/
def Pc.live : Pc → Bool
  | .waiting | .abortEmitTerminal | .done => false
  | _ => true

/-- The run is in teardown. -/
def Pc.down : Pc → Bool
  | .emit .teardown | .cleanup _ | .cleanupRest _ | .decide | .publish | .abortEmit _ _
  | .abortReport _ | .abortTerminal => true
  | _ => false

/-- A sample of the error flag is ahead in the segment. -/
def Pc.early : Pc → Bool
  | .advance k | .emit k => k ≠ .teardown
  | .top | .shape | .kick _ | .retry _ | .sample _ | .wait _ | .txStart | .txReset | .tx => true
  | _ => false

/-- Behind the last sample of the segment. -/
def Pc.late : Pc → Bool
  | .drained | .advance .teardown | .emit .teardown | .cleanup false | .cleanupRest false
  | .decide | .publish => true
  | _ => false

theorem Pc.Moves.live {pc pc' : Pc} (h : pc.Moves pc') : pc.live = true ∧ pc'.live = true := by
  cases h with
  | @finished o => cases o <;> exact ⟨rfl, rfl⟩
  | fails hpc => cases pc <;> first | exact ⟨rfl, rfl⟩ | cases hpc
  | _ => exact ⟨rfl, rfl⟩

theorem Pc.Moves.down {pc pc' : Pc} (h : pc.Moves pc') (hpc : pc'.down = true) :
    pc.down = true := by
  cases h with
  | @finished o => cases o <;> cases hpc
  | cleanup | cleaned | cleanedUp | uncleaned | abortReport => rfl
  | _ => cases hpc

theorem Pc.Moves.early {pc pc' : Pc} (h : pc.Moves pc') (hpc : pc'.early = true) :
    pc.early = true := by
  cases h with
  | shape | kicked | kickAgain | slice | nextStream | retryStream | finished | txStarted
  | txReset | tx => rfl
  | _ => cases hpc

theorem Pc.Moves.late {pc pc' : Pc} (h : pc.Moves pc') (hpc : pc'.late = true) :
    pc.late = true := by
  cases h with
  | @finished o => cases o <;> cases hpc
  | drained | cleaned => rfl
  | @cleanup aborting =>
    cases aborting with
    | false => rfl
    | true => cases hpc
  | _ => cases hpc

theorem Pc.Moves.ne {pc pc' : Pc} (h : pc.Moves pc') : pc' ≠ .entry ∧ pc' ≠ .publish := by
  cases h with
  | @finished o => cases o <;> exact ⟨by decide, by decide⟩
  | _ => exact ⟨by simp, by simp⟩

theorem Pc.Checks.ne_publish {pc pc' : Pc} (h : pc.Checks pc') : pc' ≠ .publish := by
  cases h <;> simp

theorem Pc.Checks.early {pc pc' : Pc} (h : pc.Checks pc') :
    pc.early = true ∧ pc.live = true ∧ pc'.live = true ∧ pc'.down = false := by
  cases h <;> exact ⟨rfl, rfl, rfl, rfl⟩

namespace App

/-! ### The run state by the place of the worker -/

/-- The run state by the place of the worker. -/
structure Standing (s : App) : Prop where
  shell : s.shell = .free
  sem : s.worker ≠ .waiting → s.semWorker = false
  sane : s.run.aborted = true → s.run.currentState = .teardown
  running : s.run.active = true → s.run.terminal = .none
  woken : s.semWorker = true → s.run.active = true
  live : s.worker.live = true → s.run.active = true
  down : s.worker.down = true → s.run.currentState = .teardown
  ended : s.worker.live = false → s.semWorker = false →
    s.run.active = false ∧ s.run.terminal ≠ .none

namespace Standing

variable {s s' : App} {a : Answer}

theorem to_live (hshell : s'.shell = .free) (hsem : s'.semWorker = false)
    (hlive : s'.worker.live = true) (hactive : s'.run.active = true)
    (hnone : s'.run.terminal = .none)
    (hsane : s'.run.aborted = true → s'.run.currentState = .teardown)
    (hdown : s'.worker.down = true → s'.run.currentState = .teardown) : Standing s' where
  shell := hshell
  sem _ := hsem
  sane := hsane
  running _ := hnone
  woken hwoken := by cases hsem.symm.trans hwoken
  live _ := hactive
  down := hdown
  ended hnot := by cases hlive.symm.trans hnot

theorem to_end (hshell : s'.shell = .free) (hsem : s'.semWorker = false)
    (hlive : s'.worker.live = false) (hdown : s'.worker.down = false)
    (hactive : s'.run.active = false) (hsome : s'.run.terminal ≠ .none)
    (hsane : s'.run.aborted = true → s'.run.currentState = .teardown) : Standing s' where
  shell := hshell
  sem _ := hsem
  sane := hsane
  running hrun := by cases hactive.symm.trans hrun
  woken hwoken := by cases hsem.symm.trans hwoken
  live hnot := by cases hlive.symm.trans hnot
  down hnot := by cases hdown.symm.trans hnot
  ended _ _ := ⟨hactive, hsome⟩

theorem onward (h : Standing s) (hpc : s.worker.live = true) (hshell : s'.shell = s.shell)
    (hsem : s'.semWorker = s.semWorker) (hcore : s'.run.core = s.run.core)
    (hlive : s'.worker.live = true)
    (hdown : s'.worker.down = true → s.worker.down = true) : Standing s' := by
  have hne : s.worker ≠ .waiting := by
    intro hwait
    rw [hwait] at hpc
    cases hpc
  have hstate : s'.run.currentState = s.run.currentState :=
    State.eq_of_core hcore _ State.core_currentState
  have haborted : s'.run.aborted = s.run.aborted := State.eq_of_core hcore _ State.core_aborted
  exact to_live (hshell.trans h.shell) (hsem.trans (h.sem hne)) hlive
    ((State.eq_of_core hcore _ State.core_active).trans (h.live hpc))
    ((State.eq_of_core hcore _ State.core_terminal).trans (h.running (h.live hpc)))
    (fun hab => hstate.trans (h.sane (haborted ▸ hab))) fun hd => hstate.trans (h.down (hdown hd))

/-- The worker advances. -/
theorem advance (h : Standing s) (hpc : s.worker.live = true) {k : RunState}
    (hindex : k.index = s.run.currentState.index + 1) (hshell : s'.shell = s.shell)
    (hsem : s'.semWorker = s.semWorker) (hrun : s'.run = { s.run with currentState := k })
    (hlive : s'.worker.live = true) (hdown : s'.worker.down = true → k = .teardown) :
    Standing s' := by
  have hne : s.worker ≠ .waiting := by
    intro hwait
    rw [hwait] at hpc
    cases hpc
  refine to_live (hshell.trans h.shell) (hsem.trans (h.sem hne)) hlive (hrun ▸ h.live hpc)
    (hrun ▸ h.running (h.live hpc)) ?_ fun hd => hrun ▸ hdown hd
  rw [hrun]
  intro haborted
  -- there is no state behind teardown
  have hlast : s.run.currentState.index = 8 := RunState.index_eq_eight.2 (h.sane haborted)
  have hle := k.index_le
  omega

theorem fail (h : Standing s) (hpc : s.worker.live = true) (hdown : s.worker.down = true)
    {run : State} (hcore : run.core = s.run.core.failedCore) :
    run.active = false ∧ run.terminal = .fail ∧
      (run.aborted = true → run.currentState = .teardown) := by
  have hactive := h.live hpc
  have hfailed : s.run.core.failedCore = { s.run.core with terminal := .fail, active := false } :=
    if_pos ⟨hactive, h.down hdown, h.running hactive⟩
  rw [hfailed] at hcore
  exact ⟨State.of_core hcore State.active State.core_active,
    State.of_core hcore State.terminal State.core_terminal,
    fun _ => (State.of_core hcore State.currentState State.core_currentState).trans
      (h.down hdown)⟩

/-- A step of the worker. -/
theorem work (h : Standing s) (hw : Works s a s') : Standing s' := by
  have hlive {pc : Pc} (hpc : s.worker = pc) (h : pc.live = true) : s.worker.live = true := hpc ▸ h
  -- most steps stay inside of the run; the verdict ends it
  cases hw with
  | wake hpc hsem =>
    exact to_live h.shell rfl rfl (h.woken hsem) (h.running (h.woken hsem)) h.sane
      fun hd => by cases hd
  | moves hmove hcore =>
    exact h.onward hmove.live.1 rfl rfl hcore hmove.live.2 hmove.down
  | checked hcheck =>
    refine h.onward hcheck.early.2.1 rfl rfl rfl hcheck.early.2.2.1 fun hd => ?_
    cases hcheck.early.2.2.2.symm.trans hd
  | @emitted k hpc =>
    refine h.onward (hlive hpc rfl) rfl rfl rfl (by cases k <;> rfl) fun hd => ?_
    rw [hpc]
    cases k <;> first | rfl | cases hd
  | @advanced k hpc _ hindex =>
    refine h.advance (hlive hpc rfl) hindex rfl rfl rfl rfl fun hd => ?_
    cases k <;> first | rfl | cases hd
  | connecting hpc _ hindex =>
    exact h.advance (hlive hpc rfl) hindex rfl rfl rfl rfl fun hd => by cases hd
  | scored hpc _ hindex =>
    exact h.advance (hlive hpc rfl) hindex rfl rfl rfl rfl fun hd => by cases hd
  | unscored hpc _ _ hindex =>
    exact h.advance (hlive hpc rfl) hindex rfl rfl rfl rfl fun hd => by cases hd
  | nextSegment hpc _ hactive _ haborted _ =>
    exact to_live h.shell (h.sem (by rw [hpc]; simp)) rfl hactive (h.running hactive)
      (fun hab => by cases haborted.symm.trans hab) fun hd => by cases hd
  | passed hpc _ hstate _ _ =>
    exact to_end h.shell (h.sem (by rw [hpc]; simp)) rfl rfl rfl (by simp) fun _ => hstate
  | @unpassed pass fail run raised errored hpc hcore =>
    -- a PASS that is refused is followed by FAIL
    obtain ⟨hactive, hterminal, hsane⟩ := h.fail (hlive hpc rfl) (hpc ▸ rfl) hcore
    have hsem := h.sem (by rw [hpc]; simp)
    have hsome : run.terminal ≠ .none := by rw [hterminal]; decide
    cases fail <;> exact to_end h.shell hsem rfl rfl hactive hsome hsane
  | abortEdge hpc hactive _ _ hcore =>
    have hteardown := State.of_core hcore State.currentState State.core_currentState
    exact to_live h.shell (h.sem (by rw [hpc]; simp)) rfl
      ((State.of_core hcore State.active State.core_active).trans hactive)
      ((State.of_core hcore State.terminal State.core_terminal).trans (h.running hactive))
      (fun _ => hteardown) fun _ => hteardown
  | lateAbort hpc hlate hcore =>
    have hactive := h.live (hlive hpc rfl)
    have hteardown : s.run.currentState = .teardown := by
      rcases hlate hactive with hstate | haborted
      · exact hstate
      · exact h.sane haborted
    have hstate := (State.eq_of_core hcore _ State.core_currentState).trans hteardown
    exact to_live h.shell (h.sem (by rw [hpc]; simp)) rfl
      ((State.eq_of_core hcore _ State.core_active).trans hactive)
      ((State.eq_of_core hcore _ State.core_terminal).trans (h.running hactive))
      (fun _ => hstate) fun _ => hstate
  | abortUnemitted hpc _ hpc' =>
    refine h.onward (hlive hpc rfl) rfl rfl rfl ?_ fun _ => hpc ▸ rfl
    rcases hpc' with rfl | rfl <;> rfl
  | terminated hpc hcore =>
    obtain ⟨hactive, hterminal, hsane⟩ := h.fail (hlive hpc rfl) (hpc ▸ rfl) hcore
    exact to_end h.shell (h.sem (by rw [hpc]; simp)) rfl rfl hactive
      (by rw [hterminal]; decide) hsane
  | @ended e hpc =>
    have hsem := h.sem (by rw [hpc]; simp)
    obtain ⟨hactive, hsome⟩ := h.ended (hpc ▸ rfl) hsem
    cases e <;> exact to_end h.shell hsem rfl rfl hactive hsome h.sane
  | done hpc =>
    have hsem := h.sem (by rw [hpc]; simp)
    obtain ⟨hactive, hsome⟩ := h.ended (hpc ▸ rfl) hsem
    exact to_end h.shell hsem rfl rfl hactive hsome h.sane
  | last hpc | abortEmitted hpc => exact h.onward (hlive hpc rfl) rfl rfl rfl rfl fun _ => hpc ▸ rfl
  | _ => exact h.onward (hlive ‹_› rfl) rfl rfl rfl rfl fun hd => by cases hd

end Standing

/-! ### Where an error is still seen -/

/-- The worker clears the error flag before it samples it, or does not sample it again. -/
def blind (s : App) : Bool :=
  s.worker = .waiting || s.worker = .entry || (s.worker.late && !s.reconnectNow)

/-- The step of the shell thread or of the sent callback raises the error flag. -/
def raises (s : App) : Action → Bool
  | .shell (.status _ e) | .shell (.stop _ e) | .shell (.hello _ e) =>
    e = .refused || (e = .unformatted && s.run.active)
  | .sent i => !s.stale && s.txOutstanding i = 0
  | _ => false

/-- No error of the active run is raised in a blind window. -/
def overseen (s : App) (a : Action) : Bool := !(s.run.active && s.blind && s.raises a)

/-- The steps of a run: STATUS, STOP and HELLO are the only commands. -/
def ofRun : Action → Bool
  | .shell (.status _ _) | .shell (.stop _ _) | .shell (.hello _ _) => true
  | .shell _ => false
  | .work _ | .sent _ | .tick _ => true

/-- Where an error of the run is still seen. -/
structure Overseen (s : App) : Prop where
  unarmed : s.semWorker = true ∨ s.worker = .entry → s.errored = false
  early : s.worker.early = true → s.errored = true → s.runtimeError = true
  late : s.worker.late = true → s.errored = true →
    s.runtimeError = true ∧ s.reconnectNow = true
  publish : s.worker = .publish → s.reconnectNow = false
  passed : s.run.terminal = .pass → s.errored = false

namespace Overseen

variable {s s' : App} {a : Answer}

/-- On the way to FAIL nothing is demanded. -/
theorem to_abort (hsem : s'.semWorker = false) (hpc : s'.worker ≠ .entry)
    (hearly : s'.worker.early = false) (hlate : s'.worker.late = false)
    (hpass : s'.run.terminal ≠ .pass) : Overseen s' where
  unarmed hwoken := by
    rcases hwoken with hwoken | hentry
    · cases hsem.symm.trans hwoken
    · exact absurd hentry hpc
  early h := by cases hearly.symm.trans h
  late h := by cases hlate.symm.trans h
  publish h := by
    rw [h] at hlate
    cases hlate
  passed h := absurd h hpass

theorem of_clean (herr : s'.errored = false)
    (hpublish : s'.worker = .publish → s'.reconnectNow = false) : Overseen s' where
  unarmed _ := herr
  early _ h := by cases herr.symm.trans h
  late _ h := by cases herr.symm.trans h
  publish := hpublish
  passed _ := herr

theorem to_end (h : Overseen s) (hsem : s'.semWorker = false)
    (hpc : s'.worker = .done ∨ s'.worker = .waiting) (herr : s'.errored = s.errored)
    (hterminal : s'.run.terminal = s.run.terminal) : Overseen s' where
  unarmed hwoken := by
    rcases hwoken with hwoken | hentry
    · cases hsem.symm.trans hwoken
    · rcases hpc with hpc | hpc <;> cases hpc.symm.trans hentry
  early hearly := by rcases hpc with hpc | hpc <;> (rw [hpc] at hearly; cases hearly)
  late hlate := by rcases hpc with hpc | hpc <;> (rw [hpc] at hlate; cases hlate)
  publish hpublish := by rcases hpc with hpc | hpc <;> cases hpc.symm.trans hpublish
  passed hpass := herr.trans (h.passed (hterminal.symm.trans hpass))

theorem onward (h : Overseen s) (hsem : s'.semWorker = false) (herr : s'.errored = s.errored)
    (hflag : s'.runtimeError = s.runtimeError) (hpc : s'.worker ≠ .entry)
    (hearly : s'.worker.early = true → s.worker.early = true)
    (hlate : s'.worker.late = true → s.worker.late = true ∧ s'.reconnectNow = s.reconnectNow)
    (hpublish : s'.worker ≠ .publish) (hpass : s'.run.terminal ≠ .pass) : Overseen s' where
  unarmed hwoken := by
    rcases hwoken with hwoken | hentry
    · cases hsem.symm.trans hwoken
    · exact absurd hentry hpc
  early hpc' herr' := hflag.trans (h.early (hearly hpc') (herr ▸ herr'))
  late hpc' herr' := by
    obtain ⟨hold, hnow⟩ := hlate hpc'
    rw [hflag, hnow]
    exact h.late hold (herr ▸ herr')
  publish hpc' := absurd hpc' hpublish
  passed hp := absurd hp hpass

/-- The decision about another segment is read off the core and the loop's variables. -/
theorem reconnectNow_congr (hcore : s'.run.core = s.run.core)
    (hdone : s'.reconnectDone = s.reconnectDone)
    (hseg : s'.seg = s.seg) : s'.reconnectNow = s.reconnectNow := by
  have hconfig : s'.run.config = s.run.config := State.eq_of_core hcore _ State.core_config
  have haborted : s'.run.aborted = s.run.aborted := State.eq_of_core hcore _ State.core_aborted
  unfold reconnectNow
  rw [hconfig, haborted, hdone, hseg]

/-- A step of the worker. -/
theorem work (h : Overseen s) (hst : Standing s) (hw : Works s a s') : Overseen s' := by
  have hst' := hst.work hw
  have hsem {pc : Pc} (hpc : s.worker = pc) (hne : pc ≠ .waiting) : s.semWorker = false :=
    hst.sem (hpc ▸ hne)
  have hnotPass (hlive : s'.worker.live = true) : s'.run.terminal ≠ .pass := by
    rw [hst'.running (hst'.live hlive)]
    decide
  cases hw with
  | wake hpc hwoken => exact of_clean (h.unarmed (.inl hwoken)) fun hpc' => by cases hpc'
  | enter hpc => exact of_clean (h.unarmed (.inr hpc)) fun hpc' => by cases hpc'
  | moves hmove hcore =>
    have hnone := hst.sem (Pc.ne_waiting hmove.inside.1)
    exact h.onward hnone rfl rfl hmove.ne.1 hmove.early
      (fun hpc' => ⟨hmove.late hpc', reconnectNow_congr hcore rfl rfl⟩) hmove.ne.2
      (hnotPass hmove.live.2)
  | checked hcheck hflag =>
    -- the sample has seen no error
    refine of_clean (Bool.eq_false_iff.2 fun herr => ?_) fun hpc' => absurd hpc' hcheck.ne_publish
    cases hflag.symm.trans (h.early hcheck.early.1 herr)
  | @emitted k hpc =>
    have hplaces : afterEmit k ≠ .entry ∧ afterEmit k ≠ .publish ∧ (afterEmit k).live = true ∧
        ((afterEmit k).early = true → (Pc.emit k).early = true) ∧
        ((afterEmit k).late = true → (Pc.emit k).late = true) := by
      cases k <;> decide
    obtain ⟨hentry, hpublish, hlive, hearly, hlate⟩ := hplaces
    exact h.onward (hsem hpc (by simp)) rfl rfl hentry (fun hpc' => hpc ▸ hearly hpc')
      (fun hpc' => ⟨hpc ▸ hlate hpc', rfl⟩) hpublish (hnotPass hlive)
  | @advanced k hpc =>
    have hplaces : ((Pc.emit k).early = true → (Pc.advance k).early = true) ∧
        ((Pc.emit k).late = true → (Pc.advance k).late = true) := by
      cases k <;> decide
    exact h.onward (hsem hpc (by simp)) rfl rfl (by simp) (fun hpc' => hpc ▸ hplaces.1 hpc')
      (fun hpc' => ⟨hpc ▸ hplaces.2 hpc', rfl⟩) (by simp) (hnotPass rfl)
  | connecting hpc | reconnecting hpc =>
    exact h.onward (hsem hpc (by simp)) rfl rfl (by simp) (fun _ => hpc ▸ rfl)
      (fun hpc' => by cases hpc') (by simp) (hnotPass rfl)
  | scored hpc =>
    exact h.onward (hsem hpc (by simp)) rfl rfl (by simp [goto]) (fun _ => hpc ▸ rfl)
      (fun hpc' => by cases hpc') (by simp [goto]) (hnotPass rfl)
  | nextSegment hpc =>
    -- an error of the last segment is seen in the next one
    have hnone := hsem hpc (by simp)
    refine
      { unarmed := fun hwoken => ?_
        early := fun _ herr => (h.late (hpc ▸ rfl) herr).1
        late := fun hpc' => by cases hpc'
        publish := fun hpc' => by cases hpc'
        passed := fun hpass => absurd hpass (hnotPass rfl) }
    rcases hwoken with hwoken | hentry
    · cases hnone.symm.trans hwoken
    · cases hentry
  | last hpc hnow =>
    refine of_clean (Bool.eq_false_iff.2 fun herr => ?_) fun _ => hnow
    cases hnow.symm.trans (h.late (hpc ▸ rfl) herr).2
  | passed hpc =>
    refine of_clean (Bool.eq_false_iff.2 fun herr => ?_) fun hpc' => by cases hpc'
    cases (h.publish hpc).symm.trans (h.late (hpc ▸ rfl) herr).2
  | @unpassed pass fail run raised errored hpc hcore =>
    obtain ⟨-, hterminal, -⟩ := hst.fail (hpc ▸ rfl) (hpc ▸ rfl) hcore
    have hpass : run.terminal ≠ .pass := by rw [hterminal]; decide
    have hnone := hsem hpc (by simp)
    cases fail <;> exact to_abort hnone (by simp [goto]) rfl rfl hpass
  | terminated hpc hcore =>
    obtain ⟨-, hterminal, -⟩ := hst.fail (hpc ▸ rfl) (hpc ▸ rfl) hcore
    exact to_abort (hsem hpc (by simp)) (by simp) rfl rfl (by rw [hterminal]; decide)
  | @ended e hpc =>
    have hnone := hsem hpc (by simp)
    have herr : s.raise.errored = s.errored := by
      unfold raise
      rw [(hst.ended (hpc ▸ rfl) hnone).1]
      rfl
    cases e with
    | queued => exact h.to_end hnone (.inl rfl) rfl rfl
    | unformatted => exact h.to_end hnone (.inl rfl) herr rfl
    | refused => exact h.to_end hnone (.inl rfl) herr rfl
  | done hpc => exact h.to_end (hsem hpc (by simp)) (.inr rfl) rfl rfl
  | abortUnemitted hpc _ hpc' =>
    have hnone := hsem hpc (by simp)
    have hpass : s.run.terminal ≠ .pass := by
      rw [hst.running (hst.live (hpc ▸ rfl))]
      decide
    rcases hpc' with rfl | rfl <;> exact to_abort hnone (by simp [goto]) rfl rfl hpass
  | _ => exact to_abort (hsem ‹_› (by simp)) (by simp [goto]) rfl rfl (hnotPass rfl)

end Overseen

/-! ### The other threads -/

section Others

variable {s s' : App}

theorem Standing.congr (h : Standing s) (hshell : s'.shell = s.shell)
    (hworker : s'.worker = s.worker) (hsem : s'.semWorker = s.semWorker)
    (hcore : s'.run.core = s.run.core) : Standing s' := by
  have hactive : s'.run.active = s.run.active := State.eq_of_core hcore _ State.core_active
  have hstate : s'.run.currentState = s.run.currentState :=
    State.eq_of_core hcore _ State.core_currentState
  have haborted : s'.run.aborted = s.run.aborted := State.eq_of_core hcore _ State.core_aborted
  have hterminal : s'.run.terminal = s.run.terminal :=
    State.eq_of_core hcore _ State.core_terminal
  constructor
  · exact hshell.trans h.shell
  · rw [hworker, hsem]
    exact h.sem
  · rw [haborted, hstate]
    exact h.sane
  · rw [hactive, hterminal]
    exact h.running
  · rw [hsem, hactive]
    exact h.woken
  · rw [hworker, hactive]
    exact h.live
  · rw [hworker, hstate]
    exact h.down
  · rw [hworker, hsem, hactive, hterminal]
    exact h.ended

theorem Overseen.congr (h : Overseen s) (hworker : s'.worker = s.worker)
    (hsem : s'.semWorker = s.semWorker) (herr : s'.errored = s.errored)
    (hflag : s'.runtimeError = true ∨ s'.runtimeError = s.runtimeError)
    (hcore : s'.run.core = s.run.core) (hdone : s'.reconnectDone = s.reconnectDone)
    (hseg : s'.seg = s.seg) : Overseen s' := by
  have hnow := Overseen.reconnectNow_congr hcore hdone hseg
  have hterminal : s'.run.terminal = s.run.terminal :=
    State.eq_of_core hcore _ State.core_terminal
  have hseen (hold : s.runtimeError = true) : s'.runtimeError = true :=
    hflag.elim id fun heq => heq.trans hold
  constructor
  · rw [hsem, hworker, herr]
    exact h.unarmed
  · rw [hworker, herr]
    exact fun hpc herr' => hseen (h.early hpc herr')
  · rw [hworker, herr, hnow]
    exact fun hpc herr' => ⟨hseen (h.late hpc herr').1, (h.late hpc herr').2⟩
  · rw [hworker, hnow]
    exact h.publish
  · rw [hterminal, herr]
    exact h.passed

theorem Overseen.raise (h : Overseen s) (hst : Standing s)
    (hblind : s.run.active = true → s.blind = false) : Overseen s.raise := by
  cases hactive : s.run.active with
  | false =>
    have herr : s.raise.errored = s.errored := by
      unfold App.raise
      rw [hactive]
      rfl
    exact h.congr rfl rfl herr (.inl rfl) rfl rfl rfl
  | true =>
    have hseen := hblind hactive
    unfold blind at hseen
    simp only [Bool.or_eq_false_iff, decide_eq_false_iff_not, Bool.and_eq_false_iff,
      Bool.not_eq_false'] at hseen
    obtain ⟨⟨hwaiting, hentry⟩, hlate⟩ := hseen
    refine
      { unarmed := fun hwoken => ?_
        early := fun _ _ => rfl
        late := fun hpc _ => ⟨rfl, ?_⟩
        publish := h.publish
        passed := fun hpass => ?_ }
    · rcases hwoken with hwoken | hpc
      · cases (hst.sem hwaiting).symm.trans hwoken
      · exact absurd hpc hentry
    · rcases hlate with hlate | hnow
      · cases hlate.symm.trans hpc
      · exact hnow
    · cases (hst.running hactive).symm.trans hpass

theorem Overseen.emitStatus (h : Overseen s) (hst : Standing s) (c : Command) (segment : ℕ)
    {e : Emission} (hblind : s.run.active = true → e ≠ .queued → s.blind = false) :
    Standing (s.emitStatus c segment e) ∧ Overseen (s.emitStatus c segment e) := by
  rcases s.emitStatus_cases c segment e with ⟨-, heq⟩ | ⟨hne, heq | ⟨-, heq⟩⟩
  · rw [heq]
    exact ⟨hst.congr rfl rfl rfl rfl, h.congr rfl rfl rfl (.inr rfl) rfl rfl rfl⟩
  · rw [heq]
    exact ⟨hst.congr rfl rfl rfl rfl, h.raise hst fun hactive => hblind hactive hne⟩
  · rw [heq]
    exact ⟨hst, h⟩

/-- STOP, or the other commands: the answer does not raise an error in a blind window. -/
theorem blind_of_overseen {a : Action} (hs : s.overseen a = true) (hactive : s.run.active = true)
    (hraises : s.raises a = true) : s.blind = false := by
  unfold overseen at hs
  rw [hactive, hraises] at hs
  simpa using hs

theorem raises_of_ne {e : Emission} (hactive : s.run.active = true) (hne : e ≠ .queued) :
    (e = .refused || (e = .unformatted && s.run.active)) = true := by
  cases e with
  | queued => exact absurd rfl hne
  | refused => rfl
  | unformatted => exact hactive

/-- One step. -/
theorem Overseen.next (h : Overseen s) (hst : Standing s) {a : Action} (ha : ofRun a = true)
    (hs : s.overseen a = true) (hnext : s.next a = some s') : Standing s' ∧ Overseen s' := by
  cases a with
  | work a => exact ⟨hst.work (works hnext), h.work hst (works hnext)⟩
  | tick ms =>
    obtain rfl := Option.some.inj hnext
    exact ⟨hst.congr rfl rfl rfl rfl, h.congr rfl rfl rfl (.inr rfl) rfl rfl rfl⟩
  | sent i =>
    obtain rfl := Option.some.inj hnext
    obtain ⟨run, pending, outstanding, raised, hcore, hraised, heq⟩ := s.sent_cases i
    rw [heq]
    -- a stale callback raises an error only where it is still seen
    cases raised with
    | false => exact ⟨hst.congr rfl rfl rfl hcore, h.congr rfl rfl rfl (.inr rfl) hcore rfl rfl⟩
    | true =>
      obtain ⟨hactive, hstate, htx, hzero⟩ := hraised rfl
      have hraises : s.raises (.sent i) = true := by
        simp [raises, stale, hactive, hstate, htx, hzero]
      have hblind := blind_of_overseen hs hactive hraises
      have hraise := h.raise hst fun _ => hblind
      have herr : s.raise.errored = true := by
        unfold App.raise
        rw [hactive]
        rfl
      exact ⟨hst.congr rfl rfl rfl hcore,
        hraise.congr rfl rfl herr.symm (.inl rfl) hcore rfl rfl⟩
  | shell a =>
    have hdispatch : s.dispatch a = some s' := hnext
    unfold App.dispatch at hdispatch
    rw [hst.shell] at hdispatch
    cases a with
    | status c e =>
      obtain rfl := Option.some.inj hdispatch
      exact h.emitStatus hst c _ fun hactive hne =>
        blind_of_overseen hs hactive (raises_of_ne hactive hne)
    | hello c e =>
      obtain rfl := Option.some.inj hdispatch
      exact h.emitStatus hst c _ fun hactive hne =>
        blind_of_overseen hs hactive (raises_of_ne hactive hne)
    | stop c e =>
      obtain rfl := Option.some.inj hdispatch
      have hblind (hactive : s.run.active = true) (hne : e ≠ .queued) : s.blind = false :=
        blind_of_overseen hs hactive (raises_of_ne hactive hne)
      unfold handleStop
      -- a STOP of another run is answered, and not counted
      split_ifs
      · exact h.emitStatus hst c 0 hblind
      · have hcore : (s.count .stopRequest).run.core = s.run.core := s.run.core_call rfl
        have hactive : (s.count .stopRequest).run.active = s.run.active :=
          State.eq_of_core hcore _ State.core_active
        have hnow : (s.count .stopRequest).reconnectNow = s.reconnectNow :=
          Overseen.reconnectNow_congr hcore rfl rfl
        have hstop : Overseen (s.count .stopRequest) :=
          h.congr rfl rfl rfl (.inr rfl) hcore rfl rfl
        refine hstop.emitStatus (hst.congr rfl rfl rfl hcore) c _ fun hrun hne => ?_
        have hold := hblind (hactive ▸ hrun) hne
        unfold blind at hold ⊢
        rw [hnow]
        exact hold
    | _ => cases ha

end Others

/-! ### Runs -/

theorem Launched.standing {s : App} (h : Launched s) : Standing s ∧ Overseen s := by
  obtain ⟨s₀, c, run, hworker, hshell, -, hstart, rfl⟩ := h
  obtain rfl := State.start_eq hstart
  refine ⟨?_, Overseen.of_clean rfl fun hpublish => by cases hworker.symm.trans hpublish⟩
  have hwait : (s₀.started c s₀.run.started).worker = .waiting := hworker
  exact
    { shell := hshell
      sem := fun hne => absurd hwait hne
      sane := fun haborted => by cases haborted
      running := fun _ => rfl
      woken := fun _ => rfl
      live := fun hlive => by rw [hwait] at hlive; cases hlive
      down := fun hdown => by rw [hwait] at hdown; cases hdown
      ended := fun _ hsem => by cases hsem }

/-- **An error of a run ends in FAIL.**  Whatever the backend, the queue and the sent callback do,
and with STATUS, STOP and HELLO at any time: where no error of the active run is raised before the
worker clears the flag, or behind its last sample, a run with an error does not pass, and its
verdict is FAIL. -/
theorem errored_fails {s : App}
    (h : launched.ReachableBy (fun s a => ofRun a ∧ s.overseen a) s) (herr : s.errored = true) :
    s.run.terminal ≠ .pass ∧ (s.run.active = false → s.run.terminal = .fail) := by
  have hinv : Standing s ∧ Overseen s := h.invariant (fun _ => Launched.standing)
    fun s a s' hs ha hnext => hs.2.next hs.1 ha.1 ha.2 hnext
  obtain ⟨hst, hseen⟩ := hinv
  have hpass : s.run.terminal ≠ .pass := by
    intro hpass
    cases (hseen.passed hpass).symm.trans herr
  refine ⟨hpass, fun hactive => ?_⟩
  have hlive : s.worker.live = false := by
    refine Bool.eq_false_iff.2 fun hlive => ?_
    cases (hst.live hlive).symm.trans hactive
  have hsem : s.semWorker = false := by
    refine Bool.eq_false_iff.2 fun hsem => ?_
    cases (hst.woken hsem).symm.trans hactive
  have hsome := (hst.ended hlive hsem).2
  cases hterminal : s.run.terminal with
  | none => exact absurd hterminal hsome
  | pass => exact absurd hterminal hpass
  | fail => rfl

/-- The queue refuses the answer to a STATUS while the backend connects. -/
theorem errored_fails_connecting :
    ∃ s : App, s.errored = true ∧ s.run.active = false ∧ s.run.terminal = .fail := by
  have hrun : (launched.runBy (fun s a => ofRun a ∧ s.overseen a) (launchedMono .none)
      (opening ++ [go, emits, go, returns, .shell (.status ⟨"cmd-0002", "run-1"⟩ .refused), go,
        go, go, emits, go, returns, go, emits, go])).map
      (fun s => (s.errored, s.run.active)) = some (true, false) := by
    decide +kernel
  obtain ⟨s, hs, hend⟩ := Option.map_eq_some_iff.1 hrun
  obtain ⟨herr, hactive⟩ := Prod.mk.inj hend
  exact ⟨s, herr, hactive,
    (errored_fails ((launchedMono_reachable .none).runBy hs) herr).2 hactive⟩

/-- The queue refuses the answer to a STATUS behind the START, before the worker clears the error
flag: the run passes. -/
theorem error_before_entry :
    ¬∀ s : App, launched.ReachableBy (fun _ a => ofRun a) s → s.errored = true →
      s.run.terminal ≠ .pass ∧ (s.run.active = false → s.run.terminal = .fail) := by
  intro h
  have hrun : (launched.runBy (fun _ a => ofRun a) (launchedMono .none)
      ([.shell (.status ⟨"cmd-0002", "run-1"⟩ .refused)] ++ opening ++ transmission ++ closing ++
        [go, .work (.published .queued .queued)])).map
      (fun s => (s.errored, s.run.terminal)) = some (true, .pass) := by
    decide +kernel
  obtain ⟨s, hs, hend⟩ := Option.map_eq_some_iff.1 hrun
  obtain ⟨herr, hpass⟩ := Prod.mk.inj hend
  exact (h s ((launchedMono_reachable .none).runBy hs) herr).1 hpass

end App

end Hil

end LeAudioReceiver
