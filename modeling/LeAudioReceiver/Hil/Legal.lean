import LeAudioReceiver.Hil.Steps
import LeAudioReceiver.Hil.Follow

/-!
# The record stream of a run

The records from the acknowledgement of START on, taken one by one by the tracker of the run, while
STATUS and STOP come in at any time.  The worker changes the run state and emits its record in
separate critical sections, so the tracker knows an earlier state `σ` of the run: `Behind` says how
far the run is ahead of it at every place of the worker.

* `Legal` : the invariant;
* `stays_legal` : **without a STATUS or a STOP between the change of the segment and its first
  record, every record is accepted**;
* `status_between_segments` : such a STATUS carries the segment that the tracker does not know yet.
-/

namespace LeAudioReceiver

namespace Hil

theorem State.start_eq {s run : State} (h : s.start = (run, none)) : run = s.started := by
  rcases s.call_cases .start with ⟨e, he⟩ | ⟨run', hrun', hacc⟩
  · cases (show s.start = (s, some e) from he).symm.trans h
  · cases hacc with
    | start => exact congrArg Prod.fst (h.symm.trans hrun')

namespace Tracker

/-- The tracker accepts records one by one; `none` once it raises. -/
def acceptAll : Tracker → List Record → Option Tracker
  | t, [] => some t
  | t, r :: rs =>
    match t.accept r with
    | (t', none) => t'.acceptAll rs
    | (_, some _) => none

theorem acceptAll_concat {t t' t'' : Tracker} {rs : List Record} {r : Record}
    (h : t.acceptAll rs = some t') (hr : t'.accept r = (t'', none)) :
    t.acceptAll (rs ++ [r]) = some t'' := by
  induction rs generalizing t with
  | nil =>
    obtain rfl := Option.some.inj h
    simp only [List.nil_append, acceptAll, hr]
  | cons r' rs ih =>
    rw [List.cons_append]
    unfold acceptAll at h ⊢
    split at h
    · exact ih h
    · cases h

end Tracker

/-! ### Status records -/

/-- A status record about a run, with a command id of its own. -/
def Ids.status (ids : Ids) (id : String) (now segment : ℕ) : Record :=
  { data := .status, firmwareId := ids.firmwareId, monotonicMs := now, commandId := id
    runId := ids.runId, segment := segment }

/-- A status record with the current segment. -/
theorem Follows.status {ids : Ids} {now : ℕ} {l : Link} (h : Follows ids now l) {id : String}
    (hid : id ≠ ids.commandId) :
    ∃ t, l.tracker.accept (ids.status id now l.state.segment.toNat) = (t, none) ∧
      Follows ids now ⟨l.state, t⟩ := by
  have hshared : l.tracker.sharedError (ids.status id now l.state.segment.toNat) = none := by
    refine Tracker.sharedError_eq_none.2 ⟨h.headerError l.state le_rfl .status, ?_, ?_, ?_⟩
    · unfold Tracker.contractError
      rw [h.mirrors.segment]
      exact if_neg (not_not.2 rfl)
    · exact if_neg (h.commandId ▸ hid)
    · unfold Tracker.lateError
      split_ifs <;> rfl
  refine ⟨_, Tracker.accept_ok hshared rfl, ?_⟩
  exact { h with firmwareId := .inr rfl, time := le_rfl
                 mirrors := { h.mirrors with } }

/-! ### Before the first state -/

/-- A tracker that has seen no state yet. -/
structure Fresh (ids : Ids) (now : ℕ) (t : Tracker) : Prop where
  runId : t.runId = ids.runId
  commandId : t.commandId = ids.commandId
  firmwareId : t.firmwareId = none ∨ t.firmwareId = some ids.firmwareId
  time : t.lastMonotonic ≤ now
  segment : t.segment = none
  aborted : t.aborted = false
  abortCause : t.abortCause = none
  terminal : t.terminal = none

namespace Fresh

variable {ids : Ids} {now : ℕ} {t : Tracker}

theorem new (ids : Ids) : Fresh ids 0 (.new ids.runId ids.commandId) :=
  ⟨rfl, rfl, .inl rfl, (by decide : (-1 : ℤ) ≤ 0), rfl, rfl, rfl, rfl⟩

theorem later (h : Fresh ids now t) {now' : ℕ} (ht : now ≤ now') : Fresh ids now' t :=
  { h with time := h.time.trans (Int.ofNat_le.2 ht) }

theorem sharedError (h : Fresh ids now t) {r : Record} (hrun : r.runId = ids.runId)
    (hfirmware : r.firmwareId = ids.firmwareId) (htime : r.monotonicMs = now)
    (hcontract : t.contractError r = none) (hcommand : t.commandError r = none) :
    t.sharedError r = none := by
  refine Tracker.sharedError_eq_none.2 ⟨?_, hcontract, hcommand, if_pos h.terminal⟩
  have hnot : ¬(t.firmwareId ≠ none ∧ some r.firmwareId ≠ t.firmwareId) := by
    rintro ⟨hne, hother⟩
    rcases h.firmwareId with hid | hid
    · exact hne hid
    · exact hother (hid ▸ congrArg some hfirmware)
  have hlate : ¬(r.monotonicMs : ℤ) < t.lastMonotonic := not_lt.2 (htime ▸ h.time)
  exact (if_neg (not_not.2 (hrun.trans h.runId.symm))).trans
    ((if_neg hnot).trans (if_neg hlate))

theorem quiet (h : Fresh ids now t) {r : Record} (hrun : r.runId = ids.runId)
    (hfirmware : r.firmwareId = ids.firmwareId) (htime : r.monotonicMs = now)
    (hsegment : r.segment = 0)
    (hdata : r.data = .ack ∧ r.commandId = ids.commandId ∨
      r.data = .status ∧ r.commandId ≠ ids.commandId) :
    ∃ t', t.accept r = (t', none) ∧ Fresh ids now t' := by
  have hcontract : t.contractError r = none := by
    unfold Tracker.contractError
    rw [h.segment]
    rcases hdata with ⟨hdata, -⟩ | ⟨hdata, -⟩
    all_goals
      rw [hdata]
      exact if_neg (not_not.2 hsegment)
  have hcommand : t.commandError r = none := by
    unfold Tracker.commandError
    rcases hdata with ⟨hdata, hid⟩ | ⟨hdata, hid⟩
    · rw [hdata]
      exact if_neg (not_not.2 (hid.trans h.commandId.symm))
    · rw [hdata]
      exact if_neg (h.commandId ▸ hid)
  have hchange : t.change r = .ok .nothing := by
    unfold Tracker.change
    rcases hdata with ⟨hdata, -⟩ | ⟨hdata, -⟩ <;> rw [hdata]
  refine ⟨_, Tracker.accept_ok (h.sharedError hrun hfirmware htime hcontract hcommand) hchange, ?_⟩
  exact { h with firmwareId := .inr (congrArg some hfirmware), time := htime ▸ le_rfl }

theorem idle (h : Fresh ids now t) {run s₀ : State} (hcore : run.core = s₀.started.core) :
    ∃ t', t.accept (ids.record run now (.state .idle)) = (t', none) ∧
      Follows ids now ⟨run, t'⟩ := by
  have hsegment : run.segment = 0 := State.eq_of_core hcore _ State.core_segment
  have hstate : run.currentState = .idle := State.eq_of_core hcore _ State.core_currentState
  have haborted : run.aborted = false := State.eq_of_core hcore _ State.core_aborted
  have hterminal : run.terminal = .none := State.eq_of_core hcore _ State.core_terminal
  have hcontract : t.contractError (ids.record run now (.state .idle)) = none := by
    unfold Tracker.contractError
    rw [h.segment]
    rfl
  have hcommand : t.commandError (ids.record run now (.state .idle)) = none :=
    if_neg (not_not.2 h.commandId.symm)
  have hvalid : t.validateState run.segment.toNat .idle =
      .ok { segment := some 0, stateIndex := 0, aborted := t.aborted
            abortCause := t.abortCause } := by
    unfold Tracker.validateState
    rw [h.segment, hsegment]
    rfl
  have hchange : t.change (ids.record run now (.state .idle)) =
      .ok (.place { segment := some 0, stateIndex := 0, aborted := t.aborted
                    abortCause := t.abortCause }) := by
    change (t.validateState run.segment.toNat .idle).map _ = _
    rw [hvalid]
    rfl
  refine ⟨_, Tracker.accept_ok (h.sharedError rfl rfl rfl hcontract hcommand) hchange, h.runId,
    h.commandId, .inr rfl, le_rfl, ⟨?_, ?_, ?_, ?_, ?_⟩, fun _ => hterminal, fun _ => hsegment⟩
  · rw [hsegment]
    rfl
  · rw [hstate]
    rfl
  · rw [haborted]
    exact h.aborted
  · rw [haborted]
    exact h.abortCause
  · rw [State.verdict, if_pos hterminal]
    exact congrArg (Option.map Record.data) h.terminal

end Fresh

/-! ### How far the run is ahead -/

/-- The places where the tracker knows the state of the active run. -/
def Pc.level : Pc → Bool
  | .advance _ | .shape | .kick _ | .retry _ | .sample _ | .wait _ | .txStart | .txReset | .tx
  | .drained | .abortRead _ | .abortEdge _ _ => true
  | _ => false

/-- The places where it knows, beside, that the run is in teardown. -/
def Pc.torn : Pc → Bool
  | .cleanup _ | .cleanupRest _ | .decide | .publish | .abortReport _ | .abortTerminal => true
  | _ => false

/-- The state `σ` that the tracker knows and the state of the run, by the place of the worker. -/
inductive Behind (σ run : State) : Pc → Prop
  | level {pc : Pc} : pc.level = true → σ.core = run.core → run.active = true → Behind σ run pc
  | torn {pc : Pc} : pc.torn = true → σ.core = run.core → run.active = true →
      run.currentState = .teardown → Behind σ run pc
  | configured : σ.core = run.core → run.active = true → run.currentState = .configured →
      Behind σ run .top
  | state {k : RunState} : run.core = { σ.core with currentState := k } → σ.active = true →
      k.index = σ.currentState.index + 1 → Behind σ run (.emit k)
  | segment {pc : Pc} : pc = .top ∨ pc = .emit .connecting →
      run.core = { σ.core with segment := σ.segment + 1, currentState := .connecting
                               reconnectUsed := true } →
      σ.active = true → σ.currentState = .teardown → σ.aborted = false →
      σ.reconnectUsed = false → Behind σ run pc
  | abort {cause : AbortCause} {attempts : ℕ} : run.core = σ.core.abortedCore cause →
      σ.active = true → σ.currentState ≠ .teardown → σ.aborted = false →
      Behind σ run (.abortEmit cause attempts)
  | terminal : run.core = σ.core.failedCore → σ.active = true → σ.currentState = .teardown →
      Behind σ run .abortEmitTerminal
  | closed {pc : Pc} : pc = .done ∨ pc = .waiting → σ.core = run.core → Behind σ run pc

namespace Behind

variable {σ run run' : State} {pc pc' : Pc}

theorem of_level (h : Behind σ run pc) (hpc : pc.level = true) :
    σ.core = run.core ∧ run.active = true := by
  cases h with
  | level _ hcore hactive => exact ⟨hcore, hactive⟩
  | torn _ hcore hactive _ => exact ⟨hcore, hactive⟩
  | segment hplace => rcases hplace with rfl | rfl <;> cases hpc
  | closed hplace => rcases hplace with rfl | rfl <;> cases hpc
  | _ => cases hpc

theorem of_torn (h : Behind σ run pc) (hpc : pc.torn = true) :
    σ.core = run.core ∧ run.active = true ∧ run.currentState = .teardown := by
  cases h with
  | level hlevel => cases pc <;> first | (cases hlevel; done) | cases hpc
  | torn _ hcore hactive hstate => exact ⟨hcore, hactive, hstate⟩
  | segment hplace => rcases hplace with rfl | rfl <;> cases hpc
  | closed hplace => rcases hplace with rfl | rfl <;> cases hpc
  | _ => cases hpc

theorem congr (h : Behind σ run pc) (hcore : run'.core = run.core) : Behind σ run' pc := by
  have hactive : run'.active = run.active := State.eq_of_core hcore _ State.core_active
  have hstate : run'.currentState = run.currentState :=
    State.eq_of_core hcore _ State.core_currentState
  cases h with
  | level hpc hσ hrun => exact .level hpc (hσ.trans hcore.symm) (hactive.trans hrun)
  | torn hpc hσ hrun hteardown =>
    exact .torn hpc (hσ.trans hcore.symm) (hactive.trans hrun) (hstate.trans hteardown)
  | configured hσ hrun hconfigured =>
    exact .configured (hσ.trans hcore.symm) (hactive.trans hrun) (hstate.trans hconfigured)
  | state hσ hrun hindex => exact .state (hcore.trans hσ) hrun hindex
  | segment hpc hσ hrun hteardown haborted hused =>
    exact .segment hpc (hcore.trans hσ) hrun hteardown haborted hused
  | abort hσ hrun hteardown haborted => exact .abort (hcore.trans hσ) hrun hteardown haborted
  | terminal hσ hrun hteardown => exact .terminal (hcore.trans hσ) hrun hteardown
  | closed hpc hσ => exact .closed hpc (hσ.trans hcore.symm)

theorem level_afterOp (o : BackendOp) : (App.afterOp o).level = true := by
  cases o <;> rfl

theorem moves_places (h : pc.Moves pc') :
    (pc.level = true ∨ pc.torn = true) ∧ pc'.level = true ∨ pc.torn = true ∧ pc'.torn = true := by
  cases h with
  | finished => exact .inl ⟨.inl rfl, level_afterOp _⟩
  | fails hpc =>
    refine .inl ⟨?_, rfl⟩
    cases pc with
    | cleanupRest aborting => exact .inr rfl
    | kick | retry | sample | wait | txStart | tx => exact .inl rfl
    | _ => cases hpc
  | cleanup | cleaned | cleanedUp | uncleaned | abortReport => exact .inr ⟨rfl, rfl⟩
  | _ => exact .inl ⟨.inl rfl, rfl⟩

theorem moves (h : Behind σ run pc) (hmove : pc.Moves pc') (hcore : run'.core = run.core) :
    Behind σ run' pc' := by
  rcases moves_places hmove with ⟨hlevel | htorn, hpc'⟩ | ⟨htorn, hpc'⟩
  · obtain ⟨hσ, hactive⟩ := h.of_level hlevel
    exact (level hpc' hσ hactive).congr hcore
  · obtain ⟨hσ, hactive, -⟩ := h.of_torn htorn
    exact (level hpc' hσ hactive).congr hcore
  · obtain ⟨hσ, hactive, hstate⟩ := h.of_torn htorn
    exact (torn hpc' hσ hactive hstate).congr hcore

theorem checks (h : Behind σ run pc) (hcheck : pc.Checks pc') : Behind σ run pc' := by
  have hplaces : pc.level = true ∧ pc'.level = true := by cases hcheck <;> exact ⟨rfl, rfl⟩
  obtain ⟨hσ, hactive⟩ := h.of_level hplaces.1
  exact .level hplaces.2 hσ hactive

/-- Only a new segment is unknown to the tracker. -/
theorem segment_eq (h : Behind σ run pc)
    (hapart : ¬((pc = .top ∨ pc = .emit .connecting) ∧ run.segment ≠ 0))
    (hfirst : σ.reconnectUsed = false → σ.segment = 0) : run.segment = σ.segment := by
  have of_core {τ : State} (hcore : run.core = τ) : run.segment = τ.segment :=
    State.of_core hcore _ State.core_segment
  cases h with
  | level _ hσ | torn _ hσ | configured hσ | closed _ hσ =>
    exact (State.eq_of_core hσ _ State.core_segment).symm
  | state hσ | abort hσ => exact (of_core hσ).trans rfl
  | terminal hσ => exact (of_core hσ).trans (State.failedCore_segment _)
  | segment hpc hσ _ _ _ hused =>
    refine absurd ⟨hpc, ?_⟩ hapart
    have hone : run.segment = σ.segment + 1 := of_core hσ
    rw [hone, hfirst hused]
    decide

theorem of_emit {k : RunState} (h : Behind σ run (.emit k)) :
    (run.core = { σ.core with currentState := k } ∧ σ.active = true ∧
      k.index = σ.currentState.index + 1) ∨
    k = .connecting ∧
      run.core = { σ.core with segment := σ.segment + 1, currentState := .connecting
                               reconnectUsed := true } ∧
      σ.active = true ∧ σ.currentState = .teardown ∧ σ.aborted = false ∧
      σ.reconnectUsed = false := by
  cases h with
  | state hσ hrun hindex => exact .inl ⟨hσ, hrun, hindex⟩
  | segment hpc hσ hrun hteardown haborted hused =>
    rcases hpc with hpc | hpc
    · cases hpc
    · exact .inr ⟨Pc.emit.inj hpc, hσ, hrun, hteardown, haborted, hused⟩
  | level hpc => cases hpc
  | torn hpc => cases hpc
  | closed hpc => rcases hpc with hpc | hpc <;> cases hpc

theorem of_top (h : Behind σ run .top) :
    (σ.core = run.core ∧ run.active = true ∧ run.currentState = .configured) ∨
      run.currentState = .connecting ∧ Behind σ run (.emit .connecting) := by
  cases h with
  | configured hσ hrun hconfigured => exact .inl ⟨hσ, hrun, hconfigured⟩
  | segment _ hσ hrun hteardown haborted hused =>
    refine .inr ⟨?_, .segment (.inr rfl) hσ hrun hteardown haborted hused⟩
    exact State.of_core hσ _ State.core_currentState
  | level hpc => cases hpc
  | torn hpc => cases hpc
  | closed hpc => rcases hpc with hpc | hpc <;> cases hpc

theorem of_abortEmit {cause : AbortCause} {attempts : ℕ}
    (h : Behind σ run (.abortEmit cause attempts)) :
    run.core = σ.core.abortedCore cause ∧ σ.active = true ∧ σ.currentState ≠ .teardown ∧
      σ.aborted = false := by
  cases h with
  | abort hσ hrun hteardown haborted => exact ⟨hσ, hrun, hteardown, haborted⟩
  | segment hpc => rcases hpc with hpc | hpc <;> cases hpc
  | level hpc => cases hpc
  | torn hpc => cases hpc
  | closed hpc => rcases hpc with hpc | hpc <;> cases hpc

theorem of_abortEmitTerminal (h : Behind σ run .abortEmitTerminal) :
    run.core = σ.core.failedCore ∧ σ.active = true ∧ σ.currentState = .teardown := by
  cases h with
  | terminal hσ hrun hteardown => exact ⟨hσ, hrun, hteardown⟩
  | segment hpc => rcases hpc with hpc | hpc <;> cases hpc
  | level hpc => cases hpc
  | torn hpc => cases hpc
  | closed hpc => rcases hpc with hpc | hpc <;> cases hpc

theorem of_done (h : Behind σ run .done) : σ.core = run.core := by
  cases h with
  | closed _ hσ => exact hσ
  | segment hpc => rcases hpc with hpc | hpc <;> cases hpc
  | level hpc => cases hpc
  | torn hpc => cases hpc

theorem not_entry (h : Behind σ run .entry) : False := by
  cases h with
  | segment hpc => rcases hpc with hpc | hpc <;> cases hpc
  | level hpc => cases hpc
  | torn hpc => cases hpc
  | closed hpc => rcases hpc with hpc | hpc <;> cases hpc

theorem advance_core {k : RunState} (hσ : σ.core = run.core) (hactive : run.active = true)
    (hindex : k.index = run.currentState.index + 1) :
    ({ run with currentState := k } : State).core = { σ.core with currentState := k } ∧
      σ.active = true ∧ k.index = σ.currentState.index + 1 := by
  have hstate : σ.currentState = run.currentState :=
    State.eq_of_core hσ _ State.core_currentState
  refine ⟨?_, (State.eq_of_core hσ _ State.core_active).trans hactive, hstate ▸ hindex⟩
  rw [hσ]
  rfl

theorem after {k : RunState} (hσ : σ.core = run.core) (hrun : run.active = true)
    (hstate : run.currentState = k) : Behind σ run (App.afterEmit k) := by
  cases k with
  | configured => exact .configured hσ hrun hstate
  | teardown => exact .torn rfl hσ hrun hstate
  | _ => exact .level rfl hσ hrun

end Behind

/-! ### The invariant -/

namespace App

/-- The identities of the records of the run. -/
def ids (s : App) : Ids := ⟨s.configRunId, s.asyncCommandId, firmwareId⟩

/-- Before the first state record. -/
def Starting (s : App) : Prop :=
  s.worker = .waiting ∧ s.semWorker = true ∨
    (s.worker = .entry ∨ s.worker = .emit .idle) ∧ s.semWorker = false

/-- The tracker and the run before the first state record. -/
structure Unheard (s : App) (t : Tracker) : Prop where
  starting : s.Starting
  fresh : Fresh s.ids s.now t
  started : ∃ s₀ : State, s.run.core = s₀.started.core

/-- The tracker, the state that it knows, and the run. -/
structure Heard (s : App) (t : Tracker) (σ : State) : Prop where
  sem : s.semWorker = false
  follows : Follows s.ids s.now ⟨σ, t⟩
  sane : σ.aborted = true → σ.currentState = .teardown
  behind : Behind σ s.run s.worker

/-- The tracker listens to the run. -/
def Listens (s : App) (t : Tracker) : Prop := Unheard s t ∨ ∃ σ, Heard s t σ

/-- A step emits nothing, or one record that the tracker accepts. -/
def Continues (out : List Record) (t : Tracker) (s' : App) : Prop :=
  s'.out = out ∧ Listens s' t ∨
    ∃ r t', s'.out = out ++ [r] ∧ t.accept r = (t', none) ∧ Listens s' t'

/-- The records so far are accepted. -/
structure Legal (s : App) : Prop where
  shell : s.shell = .free
  haveConfigIds : s.haveConfigIds = true
  tracker : ∃ t, (Tracker.new s.configRunId s.asyncCommandId).acceptAll s.out = some t ∧
    Listens s t

/-- No line is refused, and STATUS and STOP name the run with command ids of their own.  The
records of a run always fit a line; a status record may be too long. -/
def orderly (s : App) : Action → Bool
  | .work a => a.queued
  | .shell (.status c e) | .shell (.stop c e) =>
    s.names c && (c.id ≠ s.asyncCommandId && e ≠ .refused)
  | .shell _ => false
  | .sent _ | .tick _ => true

/-- Between the change of the segment and its first record. -/
def betweenSegments (s : App) : Bool :=
  (s.worker = .top || s.worker = .emit .connecting) && s.run.segment ≠ 0

/-- No command is answered between two segments. -/
def apart (s : App) : Action → Bool
  | .shell _ => !s.betweenSegments
  | _ => true

theorem betweenSegments_iff {s : App} : s.betweenSegments = true ↔
    (s.worker = .top ∨ s.worker = .emit .connecting) ∧ s.run.segment ≠ 0 := by
  simp [betweenSegments]

section Work

variable {s s' : App} {t : Tracker} {σ : State} {a : Answer}

theorem record_eq {σ : State} (hsegment : s.run.segment = σ.segment) (data : RecordData) :
    s.record data = s.ids.record σ s.now data := by
  unfold record Ids.record
  rw [hsegment]
  rfl

/-- The first state record. -/
theorem Unheard.work (h : Unheard s t) (hw : Works s a s') (ha : a.queued = true) :
    Continues s.out t s' := by
  obtain ⟨s₀, hs₀⟩ := h.started
  rcases h.starting with ⟨hpc, hsem⟩ | ⟨hpc | hpc, hsem⟩
  · cases hw with
    | wake => exact .inl ⟨rfl, .inl ⟨.inr ⟨.inl rfl, rfl⟩, h.fresh, h.started⟩⟩
    | moves hmove => rw [hpc] at hmove; cases hmove with | fails hpc => cases hpc
    | checked hcheck => rw [hpc] at hcheck; cases hcheck
    | _ => cases hpc.symm.trans ‹s.worker = _›
  · cases hw with
    | enter => exact .inl ⟨rfl, .inl ⟨.inr ⟨.inr rfl, hsem⟩, h.fresh, h.started⟩⟩
    | moves hmove => rw [hpc] at hmove; cases hmove with | fails hpc => cases hpc
    | checked hcheck => rw [hpc] at hcheck; cases hcheck
    | _ => cases hpc.symm.trans ‹s.worker = _›
  · cases hw with
    | emitted hemit =>
      obtain rfl := Pc.emit.inj (hpc.symm.trans hemit)
      obtain ⟨t', haccept, hfollows⟩ := h.fresh.idle hs₀
      have hstate : s.run.currentState = .idle :=
        State.eq_of_core hs₀ _ State.core_currentState
      have hactive : s.run.active = true := State.eq_of_core hs₀ _ State.core_active
      have haborted : s.run.aborted = false := State.eq_of_core hs₀ _ State.core_aborted
      refine .inr ⟨_, t', rfl, ?_, .inr ⟨s.run, hsem, hfollows, ?_, ?_⟩⟩
      · rw [hstate]
        exact haccept
      · intro htrue
        cases haborted.symm.trans htrue
      · exact .level rfl rfl hactive
    | unemitted _ hne => exact absurd (of_decide_eq_true ha) hne
    | moves hmove => rw [hpc] at hmove; cases hmove with | fails hpc => cases hpc
    | checked hcheck => rw [hpc] at hcheck; cases hcheck
    | _ => cases hpc.symm.trans ‹s.worker = _›

theorem Heard.state (h : Heard s t σ) {run : State} {k : RunState} {pc : Pc}
    (hcore : run.core = { σ.core with currentState := k }) (hactive : σ.active = true)
    (hindex : k.index = σ.currentState.index + 1)
    (hpc : ∀ σ' : State, σ'.core = run.core → run.active = true → run.currentState = k →
      Behind σ' run pc) :
    Continues s.out t (({ s with run := run }.enqueue
      ({ s with run := run }.record (.state k))).goto pc) := by
  obtain ⟨t', haccept, hfollows⟩ := h.follows.advance hactive hindex le_rfl
  have hsegment : run.segment = ({ σ with currentState := k } : State).segment :=
    State.of_core hcore State.segment State.core_segment
  have hrun : run.active = true :=
    (State.of_core hcore State.active State.core_active).trans hactive
  have hstate : run.currentState = k :=
    State.of_core hcore State.currentState State.core_currentState
  refine .inr ⟨_, t', rfl, ?_, .inr ⟨{ σ with currentState := k }, h.sem, hfollows, ?_, ?_⟩⟩
  · rw [record_eq hsegment]
    exact haccept
  · -- a state behind teardown does not exist
    intro haborted
    have hlast : σ.currentState.index = 8 := RunState.index_eq_eight.2 (h.sane haborted)
    have hle := k.index_le
    omega
  · exact hpc _ hcore.symm hrun hstate

theorem Heard.segment (h : Heard s t σ)
    (hcore : s.run.core = { σ.core with segment := σ.segment + 1, currentState := .connecting
                                        reconnectUsed := true })
    (hactive : σ.active = true) (hstate : σ.currentState = .teardown)
    (haborted : σ.aborted = false) (hused : σ.reconnectUsed = false) :
    Continues s.out t ((s.enqueue (s.record (.state s.run.currentState))).goto
      (afterEmit .connecting)) := by
  obtain ⟨t', haccept, hfollows⟩ := h.follows.reconnect hactive hstate haborted hused le_rfl
  have hsegment : s.run.segment = σ.reconnected.segment :=
    State.of_core hcore State.segment State.core_segment
  have hrun : s.run.active = true :=
    (State.of_core hcore State.active State.core_active).trans hactive
  have hconnecting : s.run.currentState = .connecting :=
    State.of_core hcore State.currentState State.core_currentState
  refine .inr ⟨_, t', rfl, ?_, .inr ⟨σ.reconnected, h.sem, hfollows, ?_, ?_⟩⟩
  · rw [record_eq hsegment, hconnecting]
    exact haccept
  · intro htrue
    cases haborted.symm.trans htrue
  · exact .level rfl hcore.symm hrun

theorem Heard.abort (h : Heard s t σ) {cause : AbortCause}
    (hcore : s.run.core = σ.core.abortedCore cause) (hactive : σ.active = true)
    (hstate : σ.currentState ≠ .teardown) (haborted : σ.aborted = false) :
    Continues s.out t ((s.enqueue (s.record (.abort cause))).goto (.cleanup true)) := by
  obtain ⟨t', haccept, hfollows⟩ := h.follows.abort hactive hstate haborted cause le_rfl
  have hsegment : s.run.segment = (σ.abortedCore cause).segment :=
    State.of_core hcore State.segment State.core_segment
  have hrun : s.run.active = true :=
    (State.of_core hcore State.active State.core_active).trans hactive
  have hteardown : s.run.currentState = .teardown :=
    State.of_core hcore State.currentState State.core_currentState
  refine .inr ⟨_, t', rfl, ?_, .inr ⟨σ.abortedCore cause, h.sem, hfollows, fun _ => rfl, ?_⟩⟩
  · rw [record_eq hsegment]
    exact haccept
  · exact .torn rfl hcore.symm hrun hteardown

theorem Heard.terminal (h : Heard s t σ) {run : State} {verdict : Verdict}
    (hcore : run.core = { σ.core with terminal := verdict, active := false })
    (hactive : σ.active = true) (hstate : σ.currentState = .teardown)
    (hverdict : verdict ≠ .none) (hpass : verdict = .pass → σ.aborted = false) :
    Continues s.out t
      (({ s with run := run }.enqueue ({ s with run := run }.record (.terminal verdict))).goto
        .done) := by
  obtain ⟨t', haccept, hfollows⟩ :=
    h.follows.terminal hactive hstate verdict hverdict hpass le_rfl
  have hsegment : run.segment = ({ σ with terminal := verdict, active := false } : State).segment :=
    State.of_core hcore State.segment State.core_segment
  refine .inr ⟨_, t', rfl, ?_, .inr ⟨{ σ with terminal := verdict, active := false }, h.sem,
    hfollows, fun _ => hstate, .closed (.inl rfl) hcore.symm⟩⟩
  rw [record_eq hsegment]
  exact haccept

theorem Heard.failedCore (h : Heard s t σ) (hactive : σ.active = true)
    (hstate : σ.currentState = .teardown) :
    σ.core.failedCore = { σ.core with terminal := .fail, active := false } :=
  if_pos ⟨hactive, hstate, h.follows.running hactive⟩

/-- Every step of the worker behind the first state record. -/
theorem Heard.work (h : Heard s t σ) (hw : Works s a s') (ha : a.queued = true) :
    Continues s.out t s' := by
  have hb := h.behind
  -- a step either leaves the tracker as it is, or queues the record of the run state it reached
  cases hw with
  | wake _ hsem => cases h.sem.symm.trans hsem
  | enter hpc => exact (hpc ▸ hb).not_entry.elim
  | moves hmove hcore =>
    exact .inl ⟨rfl, .inr ⟨σ, h.sem, h.follows, h.sane, hb.moves hmove hcore⟩⟩
  | checked hcheck _ => exact .inl ⟨rfl, .inr ⟨σ, h.sem, h.follows, h.sane, hb.checks hcheck⟩⟩
  | @emitted k hpc =>
    rw [hpc] at hb
    -- the record of a state, or the first one of a new segment
    rcases hb.of_emit with ⟨hcore, hactive, hindex⟩ | ⟨rfl, hcore, hactive, hstate, hnot, hused⟩
    · have hk : s.run.currentState = k :=
        State.of_core hcore State.currentState State.core_currentState
      rw [hk]
      exact h.state hcore hactive hindex fun _ => Behind.after
    · exact h.segment hcore hactive hstate hnot hused
  | unemitted _ hne => exact absurd (of_decide_eq_true ha) hne
  | advanced hpc hactive hindex =>
    obtain ⟨hnew, hσ, hnext⟩ := Behind.advance_core (hb.of_level (hpc ▸ rfl)).1 hactive hindex
    exact .inl ⟨rfl, .inr ⟨σ, h.sem, h.follows, h.sane, .state hnew hσ hnext⟩⟩
  | unadvanced hpc =>
    obtain ⟨hcore, hactive⟩ := hb.of_level (hpc ▸ rfl)
    exact .inl ⟨rfl, .inr ⟨σ, h.sem, h.follows, h.sane, .level rfl hcore hactive⟩⟩
  | connecting hpc hactive hindex =>
    rcases (hpc ▸ hb).of_top with ⟨hcore, -, -⟩ | ⟨hstate, -⟩
    · obtain ⟨hnew, hσ, hnext⟩ := Behind.advance_core hcore hactive hindex
      exact .inl ⟨rfl, .inr ⟨σ, h.sem, h.follows, h.sane, .state hnew hσ hnext⟩⟩
    · rw [hstate] at hindex
      cases hindex
  | unconnecting hpc hne =>
    rcases (hpc ▸ hb).of_top with ⟨hcore, hactive, -⟩ | ⟨hstate, -⟩
    · exact .inl ⟨rfl, .inr ⟨σ, h.sem, h.follows, h.sane, .level rfl hcore hactive⟩⟩
    · exact absurd hstate hne
  | reconnecting hpc hstate =>
    rcases (hpc ▸ hb).of_top with ⟨-, -, hconfigured⟩ | ⟨-, hemit⟩
    · cases hconfigured.symm.trans hstate
    · exact .inl ⟨rfl, .inr ⟨σ, h.sem, h.follows, h.sane, hemit⟩⟩
  | scored hpc hactive hindex =>
    obtain ⟨hnew, hσ, hnext⟩ := Behind.advance_core (hb.of_level (hpc ▸ rfl)).1 hactive hindex
    exact h.state hnew hσ hnext fun _ hcore hrun _ => .level rfl hcore hrun
  | unscored _ hne => exact absurd (of_decide_eq_true ha) hne
  | incomplete hpc =>
    obtain ⟨hcore, hactive⟩ := hb.of_level (hpc ▸ rfl)
    exact .inl ⟨rfl, .inr ⟨σ, h.sem, h.follows, h.sane, .level rfl hcore hactive⟩⟩
  | nextSegment hpc _ hactive hstate hnot hused =>
    obtain ⟨hcore, -, -⟩ := hb.of_torn (hpc ▸ rfl)
    have hsegment : σ.segment = s.run.segment := State.eq_of_core hcore _ State.core_segment
    refine .inl ⟨rfl, .inr ⟨σ, h.sem, h.follows, h.sane, .segment (.inl rfl) ?_
      ((State.eq_of_core hcore _ State.core_active).trans hactive)
      ((State.eq_of_core hcore _ State.core_currentState).trans hstate)
      ((State.eq_of_core hcore _ State.core_aborted).trans hnot)
      ((State.eq_of_core hcore _ State.core_reconnectUsed).trans hused)⟩⟩
    rw [hsegment, hcore]
    rfl
  | noSegment hpc _ =>
    obtain ⟨hcore, hactive, -⟩ := hb.of_torn (hpc ▸ rfl)
    exact .inl ⟨rfl, .inr ⟨σ, h.sem, h.follows, h.sane, .level rfl hcore hactive⟩⟩
  | last hpc _ =>
    obtain ⟨hcore, hactive, hstate⟩ := hb.of_torn (hpc ▸ rfl)
    exact .inl ⟨rfl, .inr ⟨σ, h.sem, h.follows, h.sane, .torn rfl hcore hactive hstate⟩⟩
  | passed hpc hactive hstate hnone hpasses =>
    obtain ⟨hcore, -, -⟩ := hb.of_torn (hpc ▸ rfl)
    -- a run that passes was not aborted
    have hnot : s.run.aborted = false := by
      unfold State.passes at hpasses
      simp only [Bool.and_eq_true, Bool.not_eq_true'] at hpasses
      exact hpasses.1.1.1
    have hnew : ({ s.run with terminal := .pass, active := false } : State).core =
        { σ.core with terminal := .pass, active := false } := by
      rw [hcore]
      rfl
    exact h.terminal hnew ((State.eq_of_core hcore _ State.core_active).trans hactive)
      ((State.eq_of_core hcore _ State.core_currentState).trans hstate) (by decide)
      fun _ => (State.eq_of_core hcore _ State.core_aborted).trans hnot
  | unpassed raised errored hpc hcore =>
    obtain ⟨hσ, hactive, hstate⟩ := hb.of_torn (hpc ▸ rfl)
    have hrun : σ.active = true := (State.eq_of_core hσ _ State.core_active).trans hactive
    have hteardown : σ.currentState = .teardown :=
      (State.eq_of_core hσ _ State.core_currentState).trans hstate
    -- the PASS was refused, so the FAIL behind it is what the tracker hears
    rw [← hσ, h.failedCore hrun hteardown] at hcore
    have h' : Heard { s with runtimeError := raised, errored := errored } t σ :=
      ⟨h.sem, h.follows, h.sane, h.behind⟩
    obtain ⟨-, hqueued⟩ := Bool.and_eq_true_iff.1 ha
    obtain rfl := of_decide_eq_true hqueued
    exact h'.terminal hcore hrun hteardown (by decide) fun hpass => by cases hpass
  | abortEdge hpc hactive hne hnot hcore =>
    obtain ⟨hσ, -⟩ := hb.of_level (hpc ▸ rfl)
    refine .inl ⟨rfl, .inr ⟨σ, h.sem, h.follows, h.sane, .abort (hcore.trans ?_)
      ((State.eq_of_core hσ _ State.core_active).trans hactive)
      ((State.eq_of_core hσ _ State.core_currentState).trans_ne hne)
      ((State.eq_of_core hσ _ State.core_aborted).trans hnot)⟩⟩
    rw [hσ]
  | lateAbort hpc hlate hcore =>
    obtain ⟨hσ, hactive⟩ := hb.of_level (hpc ▸ rfl)
    have hstate : s.run.currentState = σ.currentState :=
      (State.eq_of_core hσ _ State.core_currentState).symm
    -- an abort that comes too late finds the run in its teardown
    have hteardown : s.run.currentState = .teardown := by
      rcases hlate hactive with hteardown | haborted
      · exact hteardown
      · rw [hstate]
        exact h.sane ((State.eq_of_core hσ _ State.core_aborted).trans haborted)
    refine .inl ⟨rfl, .inr ⟨σ, h.sem, h.follows, h.sane, ?_⟩⟩
    exact (Behind.torn rfl hσ hactive hteardown).congr hcore
  | abortEmitted hpc =>
    obtain ⟨hcore, hactive, hstate, hnot⟩ := (hpc ▸ hb).of_abortEmit
    exact h.abort hcore hactive hstate hnot
  | abortUnemitted _ hne _ => exact absurd (of_decide_eq_true ha) hne
  | terminated hpc hcore =>
    obtain ⟨hσ, hactive, hstate⟩ := hb.of_torn (hpc ▸ rfl)
    refine .inl ⟨rfl, .inr ⟨σ, h.sem, h.follows, h.sane, .terminal (hcore.trans (hσ ▸ rfl))
      ((State.eq_of_core hσ _ State.core_active).trans hactive)
      ((State.eq_of_core hσ _ State.core_currentState).trans hstate)⟩⟩
  | ended hpc =>
    obtain ⟨hcore, hactive, hstate⟩ := (hpc ▸ hb).of_abortEmitTerminal
    rw [h.failedCore hactive hstate] at hcore
    obtain rfl := of_decide_eq_true ha
    exact h.terminal hcore hactive hstate (by decide) fun hpass => by cases hpass
  | done hpc =>
    exact .inl ⟨rfl, .inr ⟨σ, h.sem, h.follows, h.sane, .closed (.inr rfl) (hpc ▸ hb).of_done⟩⟩

end Work

/-! ### The other threads -/

section Others

variable {s s' : App} {t : Tracker}

theorem Listens.congr (h : Listens s t) (hids : s'.ids = s.ids) (hnow : s.now ≤ s'.now)
    (hworker : s'.worker = s.worker) (hsem : s'.semWorker = s.semWorker)
    (hcore : s'.run.core = s.run.core) : Listens s' t := by
  rcases h with h | ⟨σ, h⟩
  · refine .inl ⟨?_, hids ▸ h.fresh.later hnow, ?_⟩
    · unfold Starting
      rw [hworker, hsem]
      exact h.starting
    · obtain ⟨s₀, hs₀⟩ := h.started
      exact ⟨s₀, hcore.trans hs₀⟩
  · refine .inr ⟨σ, hsem.trans h.sem, hids ▸ h.follows.later hnow, h.sane, ?_⟩
    rw [hworker]
    exact h.behind.congr hcore

/-- The answer to a command that names the run. -/
theorem Listens.status (h : Listens s t) {c : Command} {e : Emission}
    (hrun : c.runId = s.configRunId) (hid : c.id ≠ s.asyncCommandId)
    (hapart : s.betweenSegments = false) :
    Continues s.out t (s.emitStatus c s.run.segment.toNat e) := by
  rcases s.emitStatus_cases c s.run.segment.toNat e with ⟨-, heq⟩ | ⟨-, heq | ⟨-, heq⟩⟩
  · rw [heq, hrun]
    rcases h with h | ⟨σ, h⟩
    · obtain ⟨s₀, hs₀⟩ := h.started
      have hsegment : s.run.segment = 0 := State.eq_of_core hs₀ _ State.core_segment
      obtain ⟨t', haccept, hfresh⟩ := h.fresh.quiet (r := s.ids.status c.id s.now 0) rfl rfl rfl rfl
        (.inr ⟨rfl, hid⟩)
      rw [hsegment]
      exact .inr ⟨_, t', rfl, haccept, .inl ⟨h.starting, hfresh, h.started⟩⟩
    · have hsegment : s.run.segment = σ.segment := 
        h.behind.segment_eq (betweenSegments_iff.not.1 (Bool.eq_false_iff.1 hapart))
          h.follows.first
      obtain ⟨t', haccept, hfollows⟩ := h.follows.status hid
      rw [hsegment]
      exact .inr ⟨_, t', rfl, haccept, .inr ⟨σ, h.sem, hfollows, h.sane, h.behind⟩⟩
  · rw [heq]
    exact .inl ⟨rfl, h.congr rfl le_rfl rfl rfl rfl⟩
  · rw [heq]
    exact .inl ⟨rfl, h⟩

end Others

/-! ### Runs -/

/-- An accepted START whose acknowledgement is enqueued has just happened. -/
def Launched (s : App) : Prop :=
  ∃ (s₀ : App) (c : Command) (run : State), s₀.worker = .waiting ∧ s₀.shell = .free ∧
    s₀.names c = true ∧ s₀.run.start = (run, none) ∧ s = s₀.started c run

/-- The coordinator from an accepted START on. -/
def launched : Machine App Action where
  init := Launched
  next := next

theorem names_iff {s : App} {c : Command} :
    s.names c = true ↔ s.haveConfigIds = true ∧ c.runId = s.configRunId := by
  simp [names]

theorem Launched.legal {s : App} (h : Launched s) : Legal s := by
  obtain ⟨s₀, c, run, hworker, hshell, hnames, hstart, rfl⟩ := h
  obtain ⟨hids, -⟩ := names_iff.1 hnames
  have hrun := State.start_eq hstart
  obtain ⟨t, haccept, hfresh⟩ :=
    ((Fresh.new (s₀.started c run).ids).later (Nat.zero_le s₀.now)).quiet
      (r := { data := .ack, firmwareId := firmwareId, monotonicMs := s₀.now, commandId := c.id
              runId := s₀.configRunId, segment := 0 }) rfl rfl rfl rfl (.inl ⟨rfl, rfl⟩)
  refine ⟨hshell, hids, t, ?_, .inl ⟨.inl ⟨hworker, rfl⟩, hfresh, s₀.run, hrun ▸ rfl⟩⟩
  change Tracker.acceptAll (.new _ _) ([] ++ [_]) = _
  exact Tracker.acceptAll_concat rfl haccept

theorem Legal.of_continues {s s' : App} (h : Legal s) (hshell : s'.shell = s.shell)
    (hhave : s'.haveConfigIds = s.haveConfigIds) (hids : s'.ids = s.ids)
    (hstep : ∀ t, Listens s t → Continues s.out t s') : Legal s' := by
  obtain ⟨t, hall, hlistens⟩ := h.tracker
  have hrun : s'.configRunId = s.configRunId := congrArg Ids.runId hids
  have hcommand : s'.asyncCommandId = s.asyncCommandId := congrArg Ids.commandId hids
  refine ⟨hshell.trans h.shell, hhave.trans h.haveConfigIds, ?_⟩
  rw [hrun, hcommand]
  rcases hstep t hlistens with ⟨hout, hlistens'⟩ | ⟨r, t', hout, haccept, hlistens'⟩
  · exact ⟨t, hout ▸ hall, hlistens'⟩
  · exact ⟨t', hout ▸ Tracker.acceptAll_concat hall haccept, hlistens'⟩

theorem Works.frame {s s' : App} {a : Answer} (h : Works s a s') :
    s'.shell = s.shell ∧ s'.haveConfigIds = s.haveConfigIds ∧ s'.ids = s.ids := by
  cases h with
  | @unpassed _ fail => cases fail <;> exact ⟨rfl, rfl, rfl⟩
  | @ended e => cases e <;> exact ⟨rfl, rfl, rfl⟩
  | _ => exact ⟨rfl, rfl, rfl⟩

theorem emitStatus_frame (s : App) (c : Command) (segment : ℕ) (e : Emission) :
    (s.emitStatus c segment e).shell = s.shell ∧
      (s.emitStatus c segment e).haveConfigIds = s.haveConfigIds ∧
      (s.emitStatus c segment e).ids = s.ids := by
  rcases s.emitStatus_cases c segment e with ⟨-, heq⟩ | ⟨-, heq | ⟨-, heq⟩⟩
  all_goals
    rw [heq]
    exact ⟨rfl, rfl, rfl⟩

/-- One step. -/
theorem Legal.next {s s' : App} (h : Legal s) {a : Action} (ha : s.orderly a = true)
    (hapart : s.apart a = true) (hnext : s.next a = some s') : Legal s' := by
  cases a with
  | work a =>
    have hw := works hnext
    obtain ⟨hshell, hhave, hids⟩ := hw.frame
    refine h.of_continues hshell hhave hids fun t hlistens => ?_
    rcases hlistens with hun | ⟨σ, hheard⟩
    · exact hun.work hw ha
    · exact hheard.work hw ha
  | sent i =>
    obtain rfl := Option.some.inj hnext
    obtain ⟨run, pending, outstanding, raised, hcore, -, heq⟩ := s.sent_cases i
    rw [heq]
    exact h.of_continues rfl rfl rfl fun t hlistens =>
      .inl ⟨rfl, hlistens.congr rfl le_rfl rfl rfl hcore⟩
  | tick ms =>
    obtain rfl := Option.some.inj hnext
    exact h.of_continues rfl rfl rfl fun t hlistens =>
      .inl ⟨rfl, hlistens.congr rfl (Nat.le_add_right _ _) rfl rfl rfl⟩
  | shell a =>
    have hdispatch : s.dispatch a = some s' := hnext
    unfold dispatch at hdispatch
    rw [h.shell] at hdispatch
    -- no command is answered between `next_segment` and the record of the connection
    have hbetween : s.betweenSegments = false := by simpa [apart] using hapart
    cases a with
    | status c e =>
      obtain ⟨hnames, hrest⟩ := Bool.and_eq_true_iff.1 ha
      have hid : c.id ≠ s.asyncCommandId := of_decide_eq_true (Bool.and_eq_true_iff.1 hrest).1
      obtain rfl := Option.some.inj hdispatch
      unfold handleStatus
      rw [if_pos hnames]
      obtain ⟨hshell, hhave, hids⟩ := s.emitStatus_frame c s.run.segment.toNat e
      exact h.of_continues hshell hhave hids fun t hlistens =>
        hlistens.status (names_iff.1 hnames).2 hid hbetween
    | stop c e =>
      obtain ⟨hnames, hrest⟩ := Bool.and_eq_true_iff.1 ha
      have hid : c.id ≠ s.asyncCommandId := of_decide_eq_true (Bool.and_eq_true_iff.1 hrest).1
      obtain rfl := Option.some.inj hdispatch
      -- the request to stop is outside of the core
      have hcore : (s.count .stopRequest).run.core = s.run.core := s.run.core_call rfl
      have hsegment : (s.count .stopRequest).run.segment = s.run.segment :=
        State.eq_of_core hcore _ State.core_segment
      unfold handleStop
      rw [if_neg (by simp [hnames])]
      obtain ⟨hshell, hhave, hids⟩ := (s.count .stopRequest).emitStatus_frame c
        (s.count .stopRequest).run.segment.toNat e
      refine h.of_continues hshell hhave hids fun t hlistens => ?_
      have hstop : Listens (s.count .stopRequest) t :=
        hlistens.congr rfl le_rfl rfl rfl hcore
      refine hstop.status (names_iff.1 hnames).2 hid ?_
      unfold betweenSegments at hbetween ⊢
      rw [hsegment]
      exact hbetween
    | _ => cases ha

/-- **The record stream of a run is legal.**  From an accepted START on, whatever the backend
answers, and with STATUS and STOP at any time but between the change of the segment and the first
record of the new one, the tracker accepts every record. -/
theorem stays_legal {s : App}
    (h : launched.ReachableBy (fun s a => s.orderly a ∧ s.apart a) s) :
    ∃ t, (Tracker.new s.configRunId s.asyncCommandId).acceptAll s.out = some t := by
  have hlegal : Legal s := h.invariant (fun _ => Launched.legal)
    fun s a s' hs ha hnext => hs.next ha.1 ha.2 hnext
  obtain ⟨t, hall, -⟩ := hlegal.tracker
  exact ⟨t, hall⟩

/-- A launched run of one stream. -/
def launchedMono (policy : ReconnectPolicy) : App :=
  let s := configured (monoConfig policy)
  s.started ⟨"cmd-0001", "run-1"⟩ s.run.started

theorem launchedMono_reachable {ok : App → Action → Prop} (policy : ReconnectPolicy) :
    launched.ReachableBy ok (launchedMono policy) :=
  .init ⟨configured (monoConfig policy), _, _, rfl, rfl, rfl, rfl, rfl⟩

/-- A STATUS behind the first record, and a STOP while the backend connects. -/
theorem stays_legal_stopped :
    ∃ s : App, s.run.terminal = .fail ∧ s.out.length = 8 ∧
      ∃ t, (Tracker.new s.configRunId s.asyncCommandId).acceptAll s.out = some t := by
  have hrun : (launched.runBy (fun s a => s.orderly a ∧ s.apart a) (launchedMono .once)
      (opening ++ [.shell (.status ⟨"cmd-0002", "run-1"⟩ .queued), go, emits, go, returns,
        .shell (.stop ⟨"cmd-0003", "run-1"⟩ .queued), go, go, go, emits, go, returns, go,
        emits, go])).map (fun s => (s.run.terminal, s.out.length)) = some (.fail, 8) := by
    decide +kernel
  obtain ⟨s, hs, hend⟩ := Option.map_eq_some_iff.1 hrun
  obtain ⟨hterminal, hlength⟩ := Prod.mk.inj hend
  exact ⟨s, hterminal, hlength, stays_legal ((launchedMono_reachable .once).runBy hs)⟩

/-- A STATUS between the change of the segment and the first record of the new one carries the
segment that the tracker does not know yet. -/
theorem status_between_segments :
    ¬∀ s : App, launched.ReachableBy (fun s a => s.orderly a) s →
      ∃ t, (Tracker.new s.configRunId s.asyncCommandId).acceptAll s.out = some t := by
  intro h
  have hrun : (launched.runBy (fun s a => s.orderly a) (launchedMono .once)
      (opening ++ transmission ++ closing ++
        [go, .shell (.status ⟨"cmd-0002", "run-1"⟩ .queued)])).map
      (fun s => (Tracker.new s.configRunId s.asyncCommandId).acceptAll s.out) = some none := by
    decide +kernel
  obtain ⟨s, hs, hnone⟩ := Option.map_eq_some_iff.1 hrun
  obtain ⟨t, ht⟩ := h s ((launchedMono_reachable .once).runBy hs)
  rw [hnone] at ht
  cases ht

end App

end Hil

end LeAudioReceiver
