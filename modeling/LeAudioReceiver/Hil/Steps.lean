import LeAudioReceiver.Hil.App

/-!
# The steps of the coordinator

What one step of `Hil.App` can do, said once.  Most steps of the worker only move it through the
graph `Pc.Moves` and touch counters and the transmit stage; the others are the constructors of
`Works`.

* `State.core` : the run state without counters, errors and the stop flag;
* `Works` : the steps of the worker by what they change;
* `works` : **every step of the worker is one of them**;
* `sent_cases`, `emitStatus_cases` : the sent callback and the answer to a command.
-/

namespace LeAudioReceiver

namespace Hil

/-! ### The core of the run state -/

/-- The calls that change counters, the first error or the stop flag only. -/
def Op.minor : Op → Bool
  | stopRequest | counterSubmit _ | counterSubmitScored _ | counterSendFailure _
  | counterSentCallback _ | errorReport _ => true
  | _ => false

namespace State

/-- A run state without its counters, its first error and its stop flag. -/
def core (s : State) : State :=
  { s with stopRequested := false, firstError := 0, counters := fun _ => ⟨0, 0, 0, 0⟩
           scoredBaseline := fun _ => 0 }

@[simp] theorem core_config (s : State) : s.core.config = s.config := rfl
@[simp] theorem core_active (s : State) : s.core.active = s.active := rfl
@[simp] theorem core_reconnectUsed (s : State) : s.core.reconnectUsed = s.reconnectUsed := rfl
@[simp] theorem core_aborted (s : State) : s.core.aborted = s.aborted := rfl
@[simp] theorem core_abortCause (s : State) : s.core.abortCause = s.abortCause := rfl
@[simp] theorem core_segment (s : State) : s.core.segment = s.segment := rfl
@[simp] theorem core_currentState (s : State) : s.core.currentState = s.currentState := rfl
@[simp] theorem core_terminal (s : State) : s.core.terminal = s.terminal := rfl

theorem of_core {β : Type*} {s τ : State} (h : s.core = τ) (f : State → β)
    (hf : ∀ s : State, f s.core = f s) : f s = f τ := by
  rw [← hf s, h]

theorem eq_of_core {β : Type*} {s t : State} (h : s.core = t.core) (f : State → β)
    (hf : ∀ s : State, f s.core = f s) : f s = f t :=
  (of_core h f hf).trans (hf t)

theorem core_call (s : State) {op : Op} (hop : op.minor = true) :
    (s.call op).1.core = s.core := by
  rcases s.call_cases op with ⟨e, he⟩ | ⟨s', hs', hacc⟩
  · rw [he]
  · rw [hs']
    cases hacc <;> first | rfl | cases hop

/-- The core after an abort. -/
def abortedCore (s : State) (cause : AbortCause) : State :=
  { s with currentState := .teardown, aborted := true, abortCause := cause }

/-- A state after FAIL, where it is accepted. -/
def failedCore (s : State) : State :=
  if s.active = true ∧ s.currentState = .teardown ∧ s.terminal = .none then
    { s with terminal := .fail, active := false }
  else s

theorem core_call_fail (s : State) :
    (s.call (.terminal (some .fail))).1.core = s.core.failedCore := by
  by_cases h : s.active = true ∧ s.currentState = .teardown ∧ s.terminal = .none
  · have hcall : s.call (.terminal (some .fail)) =
        ({ s with terminal := .fail, active := false }, none) := by
      simp [call, acceptTerminal, h]
    rw [hcall]
    exact (if_pos h).symm
  · have hsame : s.core.failedCore = s.core := if_neg h
    rw [hsame]
    rcases s.call_cases (.terminal (some .fail)) with ⟨e, he⟩ | ⟨s', hs', hacc⟩
    · rw [he]
    · cases hacc with
      | fail hactive hstate hnone => exact absurd ⟨hactive, hstate, hnone⟩ h

@[simp] theorem failedCore_segment (s : State) : s.failedCore.segment = s.segment := by
  unfold failedCore
  split_ifs <;> rfl

@[simp] theorem failedCore_reconnectUsed (s : State) :
    s.failedCore.reconnectUsed = s.reconnectUsed := by
  unfold failedCore
  split_ifs <;> rfl

theorem advance_cases (s : State) (k : RunState) :
    (∃ e, s.advance (some k) = (s, some e)) ∨
      s.active = true ∧ k.index = s.currentState.index + 1 ∧
        s.advance (some k) = ({ s with currentState := k }, none) := by
  rcases s.call_cases (.advance (some k)) with ⟨e, he⟩ | ⟨s', hs', hacc⟩
  · exact .inl ⟨e, he⟩
  · cases hacc with
    | advance hactive hindex _ => exact .inr ⟨hactive, hindex, hs'⟩

end State

/-- Every record of the worker is enqueued. -/
def Answer.queued : Answer → Bool
  | .emitted e | .tx (.scoredComplete e) => e = .queued
  | .published pass fail => pass = .queued && fail = .queued
  | _ => true

/-! ### Moves -/

/-- The places from which an error leads to the abort at once. -/
def Pc.fallible : Pc → Bool
  | .kick _ | .retry _ | .sample _ | .wait _ | .txStart | .tx | .cleanupRest false => true
  | _ => false

/-- The moves that neither emit nor change the core of the run state. -/
inductive Pc.Moves : Pc → Pc → Prop
  | shape : Moves .shape (.kick .connect)
  | kicked {o : BackendOp} : Moves (.kick o) (.sample o)
  | kickAgain {o : BackendOp} : Moves (.kick o) (.retry o)
  | slice {o : BackendOp} : Moves (.wait o) (.sample o)
  | nextStream {o : BackendOp} : Moves (.wait o) (.kick o)
  | retryStream {o : BackendOp} : Moves (.wait o) (.retry o)
  | finished {o : BackendOp} : Moves (.wait o) (App.afterOp o)
  | txStarted : Moves .txStart (.advance .streaming)
  | txReset : Moves .txReset .tx
  | tx : Moves .tx .tx
  | drained : Moves .drained (.advance .teardown)
  | cleanup {aborting : Bool} : Moves (.cleanup aborting) (.cleanupRest aborting)
  | cleaned : Moves (.cleanupRest false) .decide
  | cleanedUp : Moves (.cleanupRest true) .abortTerminal
  | uncleaned {err : ℤ} : Moves (.cleanupRest true) (.abortReport err)
  | abortRead {err : ℤ} {stop : Bool} : Moves (.abortRead err) (.abortEdge err stop)
  | abortReport {err : ℤ} : Moves (.abortReport err) .abortTerminal
  | fails {pc : Pc} {err : ℤ} : pc.fallible = true → Moves pc (.abortRead err)

/-- The moves behind a sample of the stop and error flags. -/
inductive Pc.Checks : Pc → Pc → Prop
  | retry {o : BackendOp} : Checks (.retry o) (.kick o)
  | sample {o : BackendOp} : Checks (.sample o) (.wait o)
  | tx : Checks .tx .tx
  | drained : Checks .tx .drained

namespace App

/-- The steps of the worker. -/
inductive Works (s : App) : Answer → App → Prop
  | wake : s.worker = .waiting → s.semWorker = true →
      Works s .go { s with semWorker := false, workerRun := s.runNo, worker := .entry }
  | enter : s.worker = .entry →
      Works s .go { s with runtimeError := false, reconnectDone := false, worker := .emit .idle }
  | moves {a : Answer} {pc : Pc} {run : State} {active pending : Bool} {outstanding : Fin 2 → ℕ} :
      s.worker.Moves pc → run.core = s.run.core →
      Works s a { s with run := run, txActive := active, txAnchorPending := pending
                         txOutstanding := outstanding, worker := pc }
  | checked {a : Answer} {pc : Pc} : s.worker.Checks pc → s.runtimeError = false →
      Works s a (s.goto pc)
  | emitted {k : RunState} : s.worker = .emit k →
      Works s (.emitted .queued)
        ((s.enqueue (s.record (.state s.run.currentState))).goto (afterEmit k))
  | unemitted {k : RunState} {e : Emission} : s.worker = .emit k → e ≠ .queued →
      Works s (.emitted e) (s.raise.goto (.abortRead (-eio)))
  | advanced {k : RunState} : s.worker = .advance k → s.run.active = true →
      k.index = s.run.currentState.index + 1 →
      Works s .go { s with run := { s.run with currentState := k }, worker := .emit k }
  | unadvanced {k : RunState} {err : ℤ} : s.worker = .advance k →
      Works s .go (s.raise.goto (.abortRead err))
  | connecting : s.worker = .top → s.run.active = true →
      RunState.connecting.index = s.run.currentState.index + 1 →
      Works s .go { s with seg := s.run.segment, run := { s.run with currentState := .connecting }
                           worker := .emit .connecting }
  | unconnecting {err : ℤ} : s.worker = .top → s.run.currentState ≠ .connecting →
      Works s .go ({ s with seg := s.run.segment }.raise.goto (.abortRead err))
  | reconnecting : s.worker = .top → s.run.currentState = .connecting →
      Works s .go { s with seg := s.run.segment, worker := .emit .connecting }
  | scored : s.worker = .tx → s.run.active = true →
      RunState.scoredComplete.index = s.run.currentState.index + 1 →
      Works s (.tx (.scoredComplete .queued))
        (({ s with run := { s.run with currentState := .scoredComplete } }.enqueue
          (s.record (.state .scoredComplete))).goto .tx)
  | unscored {e : Emission} : s.worker = .tx → e ≠ .queued → s.run.active = true →
      RunState.scoredComplete.index = s.run.currentState.index + 1 →
      Works s (.tx (.scoredComplete e))
        ({ s with run := { s.run with currentState := .scoredComplete } }.raise.goto
          (.abortRead (-eio)))
  | incomplete {e : Emission} : s.worker = .tx →
      Works s (.tx (.scoredComplete e)) (s.raise.goto (.abortRead (-eio)))
  | nextSegment : s.worker = .decide → s.reconnectNow = true → s.run.active = true →
      s.run.currentState = .teardown → s.run.aborted = false → s.run.reconnectUsed = false →
      Works s .go { s with run := s.run.reconnected, reconnectDone := true, worker := .top }
  | noSegment {err : ℤ} : s.worker = .decide → s.reconnectNow = true →
      Works s .go { s with reconnectDone := true, worker := .abortRead err }
  | last : s.worker = .decide → s.reconnectNow = false → Works s .go (s.goto .publish)
  | passed {fail : Emission} : s.worker = .publish → s.run.active = true →
      s.run.currentState = .teardown → s.run.terminal = .none → s.run.passes = true →
      Works s (.published .queued fail)
        { s.enqueue (s.record (.terminal .pass)) with
            run := { s.run with terminal := .pass, active := false }, worker := .done }
  | unpassed {pass fail : Emission} {run : State} (raised errored : Bool) :
      s.worker = .publish → run.core = s.run.core.failedCore →
      Works s (.published pass fail)
        (({ s with run := run, runtimeError := raised, errored := errored }.emit
          (.terminal .fail) fail).goto .done)
  | abortEdge {err : ℤ} {stop : Bool} {cause : AbortCause} {run : State} :
      s.worker = .abortEdge err stop → s.run.active = true → s.run.currentState ≠ .teardown →
      s.run.aborted = false → run.core = s.run.core.abortedCore cause →
      Works s .go { s with run := run, worker := .abortEmit cause 0 }
  | lateAbort {err : ℤ} {stop : Bool} {run : State} : s.worker = .abortEdge err stop →
      (s.run.active = true → s.run.currentState = .teardown ∨ s.run.aborted = true) →
      run.core = s.run.core → Works s .go { s with run := run, worker := .cleanup true }
  | abortEmitted {cause : AbortCause} {attempts : ℕ} : s.worker = .abortEmit cause attempts →
      Works s (.emitted .queued) ((s.enqueue (s.record (.abort cause))).goto (.cleanup true))
  | abortUnemitted {cause : AbortCause} {attempts : ℕ} {e : Emission} {pc : Pc} :
      s.worker = .abortEmit cause attempts → e ≠ .queued →
      pc = .abortEmit cause (attempts + 1) ∨ pc = .cleanup true →
      Works s (.emitted e) (s.raise.goto pc)
  | terminated {run : State} : s.worker = .abortTerminal → run.core = s.run.core.failedCore →
      Works s .go { s with run := run, worker := .abortEmitTerminal }
  | ended {e : Emission} : s.worker = .abortEmitTerminal →
      Works s (.emitted e) ((s.emit (.terminal .fail) e).goto .done)
  | done : s.worker = .done →
      Works s .go { s with semRunDone := true, tokenRun := s.workerRun, worker := .waiting }

/-! ### Every step -/

theorem emit_of_ne (s : App) (data : RecordData) {e : Emission} (h : e ≠ .queued) :
    s.emit data e = s.raise := by
  cases e with
  | queued => exact absurd rfl h
  | unformatted => rfl
  | refused => rfl

section Works

variable {s s' : App}

theorem Works.returned {a : Answer} {ret : ℤ} {pc : Pc} (hpc : s.worker.Moves pc)
    (hfallible : s.worker.fallible = true) : Works s a (s.returned ret pc) := by
  unfold App.returned
  split_ifs
  · exact .moves hpc rfl
  · exact .moves (.fails hfallible) rfl

theorem Works.checkStop {a : Answer} {pc : Pc} (hpc : s.worker.Checks pc)
    (hfallible : s.worker.fallible = true) : Works s a (s.checkStop pc) := by
  unfold App.checkStop
  split_ifs with hstop herror
  · exact .moves (.fails hfallible) rfl
  · exact .moves (.fails hfallible) rfl
  · exact .checked hpc (Bool.eq_false_iff.2 herror)

/-- An advance of its own. -/
theorem Works.advance {k : RunState} (hpc : s.worker = .advance k) :
    Works s .go (s.advance k) := by
  unfold App.advance
  rcases s.run.advance_cases k with ⟨e, he⟩ | ⟨hactive, hindex, hs⟩
  · rw [he]
    exact .unadvanced hpc
  · rw [hs]
    exact .advanced hpc hactive hindex

theorem Works.top (hpc : s.worker = .top) (h : s.work .go = some s') : Works s .go s' := by
  unfold work at h
  rw [hpc] at h
  dsimp only at h
  split_ifs at h with hstate
  · obtain rfl := Option.some.inj h
    unfold App.advance
    rcases s.run.advance_cases .connecting with ⟨e, he⟩ | ⟨hactive, hindex, hs⟩
    · dsimp only
      rw [he]
      exact .unconnecting hpc hstate
    · dsimp only
      rw [hs]
      exact .connecting hpc hactive hindex
  · obtain rfl := Option.some.inj h
    exact .reconnecting hpc (not_not.1 hstate)

theorem Works.tx {t : TxStep} (hpc : s.worker = .tx) (h : s.txWork t = some s') :
    Works s (.tx t) s' := by
  have hstay : s.worker.Moves s.worker := by
    rw [hpc]
    exact .tx
  have hfallible : s.worker.fallible = true := by rw [hpc]; rfl
  have hcount (op : Op) (hop : op.minor = true) : (s.run.call op).1.core = s.run.core :=
    s.run.core_call hop
  unfold txWork at h
  cases t with
  | bootstrap =>
    obtain rfl := Option.some.inj h
    exact .moves hstay rfl
  | bootstrapFailed err =>
    dsimp only at h
    split_ifs at h
    obtain rfl := Option.some.inj h
    exact .moves (.fails hfallible) (hcount _ rfl)
  | anchored =>
    obtain rfl := Option.some.inj h
    exact .moves hstay rfl
  | send i scored =>
    -- both counters are outside of the core
    have hop : (if scored = true then Op.counterSubmitScored i else .counterSubmit i).minor =
        true := by
      split_ifs <;> rfl
    have hcore := hcount _ hop
    dsimp only at h
    cases hcall : s.run.call
        (if scored = true then Op.counterSubmitScored i else .counterSubmit i) with
    | mk run ret =>
      rw [hcall] at h hcore
      cases ret with
      | none =>
        obtain rfl := Option.some.inj h
        exact .moves hstay hcore
      | some e =>
        obtain rfl := Option.some.inj h
        exact .moves (.fails hfallible) rfl
  | sendFailed i err =>
    dsimp only at h
    split_ifs at h
    obtain rfl := Option.some.inj h
    exact .moves (.fails hfallible) (hcount _ rfl)
  | scoredComplete e =>
    dsimp only at h
    -- the boundary is reported only where the run has advanced
    rcases s.run.advance_cases .scoredComplete with ⟨e', he⟩ | ⟨hactive, hindex, hs⟩
    · rw [he] at h
      obtain rfl := Option.some.inj h
      exact .incomplete hpc
    · rw [hs] at h
      obtain rfl := Option.some.inj h
      by_cases hqueued : e = .queued
      · subst hqueued
        exact .scored hpc hactive hindex
      · rw [emit_of_ne _ _ hqueued, if_neg hqueued]
        exact .unscored hpc hqueued hactive hindex
  | check =>
    obtain rfl := Option.some.inj h
    exact .checkStop (hpc ▸ .tx) hfallible
  | fail err =>
    dsimp only at h
    split_ifs at h
    obtain rfl := Option.some.inj h
    exact .moves (.fails hfallible) rfl
  | drain =>
    obtain rfl := Option.some.inj h
    refine .checkStop ?_ hfallible
    rw [hpc]
    split_ifs
    · exact .drained
    · exact .tx

theorem Works.decide (hpc : s.worker = .decide) (h : s.work .go = some s') : Works s .go s' := by
  unfold work at h
  rw [hpc] at h
  dsimp only at h
  split_ifs at h with hnow
  · rcases s.run.call_cases .nextSegment with ⟨e, he⟩ | ⟨run, hrun, hacc⟩
    · rw [show s.run.nextSegment = (s.run, some e) from he] at h
      obtain rfl := Option.some.inj h
      exact .noSegment hpc hnow
    · rw [show s.run.nextSegment = (run, none) from hrun] at h
      obtain rfl := Option.some.inj h
      cases hacc with
      | nextSegment hactive hstate haborted _ hused =>
        exact .nextSegment hpc hnow hactive hstate haborted hused
  · obtain rfl := Option.some.inj h
    exact .last hpc (Bool.eq_false_iff.2 hnow)

theorem Works.publish {pass fail : Emission} (hpc : s.worker = .publish) :
    Works s (.published pass fail) (s.publish pass fail) := by
  have hfail (err : ℤ) : (((s.run.call (.errorReport err)).1.call
      (.terminal (some .fail))).1).core = s.run.core.failedCore := by
    rw [State.core_call_fail, State.core_call _ rfl]
  unfold App.publish
  rcases s.run.call_cases (.terminal (some .pass)) with ⟨e, he⟩ | ⟨run, hrun, hacc⟩
  · rw [show s.run.acceptTerminal (some .pass) = (s.run, some e) from he]
    exact .unpassed s.runtimeError s.errored hpc (hfail _)
  · rw [show s.run.acceptTerminal (some .pass) = (run, none) from hrun]
    dsimp only
    split_ifs with hqueued
    · subst hqueued
      cases hacc with
      | pass hactive hstate hnone hpasses => exact .passed hpc hactive hstate hnone hpasses
    · rw [emit_of_ne _ _ hqueued]
      exact .unpassed true (s.run.active || s.errored) hpc (hfail _)

theorem Works.edge {err : ℤ} {stop : Bool} (hpc : s.worker = .abortEdge err stop)
    (h : s.work .go = some s') : Works s .go s' := by
  have of_core {run run' : State} {r : Option Errno} (hcore : run.core = s.run.core)
      (hrun : run.abortToTeardown (some (abortCause err stop)) = (run', r))
      (h : s' =
        if r = none then { s with run := run', worker := .abortEmit (abortCause err stop) 0 }
        else { s with run := run, worker := .cleanup true }) : Works s .go s' := by
    have hactive : run.active = s.run.active := State.eq_of_core hcore _ State.core_active
    have hstate : run.currentState = s.run.currentState :=
      State.eq_of_core hcore _ State.core_currentState
    have haborted : run.aborted = s.run.aborted := State.eq_of_core hcore _ State.core_aborted
    subst h
    rcases run.call_cases (.abortToTeardown (some (abortCause err stop))) with
      ⟨e, he⟩ | ⟨run'', hrun'', hacc⟩
    · obtain ⟨rfl, rfl⟩ := Prod.mk.inj (hrun.symm.trans he)
      refine .lateAbort hpc (fun hrunning => ?_) hcore
      rw [← hactive] at hrunning
      rw [← hstate, ← haborted]
      by_contra hother
      obtain ⟨hne, hnot⟩ := not_or.1 hother
      simp [State.abortToTeardown, hrunning, hne, hnot] at hrun
    · obtain ⟨rfl, rfl⟩ := Prod.mk.inj (hrun.symm.trans hrun'')
      cases hacc with
      | abortToTeardown hrunning hne hnot =>
        refine .abortEdge hpc (hactive ▸ hrunning) (hstate ▸ hne) (haborted ▸ hnot) ?_
        exact congrArg (State.abortedCore · (abortCause err stop)) hcore
  unfold work at h
  rw [hpc] at h
  dsimp only at h
  split_ifs at h
  all_goals
    split at h
    all_goals
      next hrun =>
        exact of_core (by first | exact s.run.core_call rfl | rfl) hrun (Option.some.inj h).symm

/-- **Every step of the worker is one of these.** -/
theorem works {a : Answer} (h : s.work a = some s') : Works s a s' := by
  have hwork := h
  unfold work at h
  split at h
  -- one case for every question of the worker, in the order of `work`
  · next hpc =>
    split_ifs at h with hsem
    obtain rfl := Option.some.inj h
    exact .wake hpc hsem
  · next hpc =>
    obtain rfl := Option.some.inj h
    exact .enter hpc
  · next k e hpc =>
    obtain rfl := Option.some.inj h
    by_cases hqueued : e = .queued
    · subst hqueued
      exact .emitted hpc
    · rw [emit_of_ne _ _ hqueued, if_neg hqueued]
      exact .unemitted hpc hqueued
  · next k hpc =>
    obtain rfl := Option.some.inj h
    exact .advance hpc
  · next hpc => exact .top hpc hwork
  · next hpc =>
    obtain rfl := Option.some.inj h
    exact .moves (hpc ▸ .shape) rfl
  · next hpc =>
    obtain rfl := Option.some.inj h
    exact .returned (hpc ▸ .kicked) (hpc ▸ rfl)
  · next hpc =>
    obtain rfl := Option.some.inj h
    exact .moves (hpc ▸ .kickAgain) rfl
  · next hpc =>
    obtain rfl := Option.some.inj h
    exact .checkStop (hpc ▸ .retry) (hpc ▸ rfl)
  · next hpc =>
    obtain rfl := Option.some.inj h
    exact .checkStop (hpc ▸ .sample) (hpc ▸ rfl)
  · next hpc =>
    obtain rfl := Option.some.inj h
    exact .moves (hpc ▸ .slice) rfl
  · next hpc =>
    obtain rfl := Option.some.inj h
    exact .moves (hpc ▸ .nextStream) rfl
  · next hpc =>
    obtain rfl := Option.some.inj h
    exact .moves (hpc ▸ .retryStream) rfl
  · next hpc =>
    obtain rfl := Option.some.inj h
    exact .returned (hpc ▸ .finished) (hpc ▸ rfl)
  · next hpc =>
    obtain rfl := Option.some.inj h
    exact .returned (hpc ▸ .txStarted) (hpc ▸ rfl)
  · next hpc =>
    obtain rfl := Option.some.inj h
    exact .moves (hpc ▸ .txReset) rfl
  · next hpc => exact .tx hpc h
  · next hpc =>
    obtain rfl := Option.some.inj h
    exact .moves (hpc ▸ .drained) rfl
  · next hpc =>
    obtain rfl := Option.some.inj h
    exact .moves (hpc ▸ .cleanup) rfl
  · next hpc =>
    obtain rfl := Option.some.inj h
    exact .returned (hpc ▸ .cleaned) (hpc ▸ rfl)
  · next ret hpc =>
    obtain rfl := Option.some.inj h
    split_ifs
    · exact .moves (hpc ▸ .cleanedUp) rfl
    · exact .moves (hpc ▸ .uncleaned) rfl
  · next hpc => exact .decide hpc hwork
  · next hpc =>
    obtain rfl := Option.some.inj h
    exact .publish hpc
  · next hpc =>
    obtain rfl := Option.some.inj h
    exact .moves (hpc ▸ .abortRead) rfl
  · next hpc => exact .edge hpc hwork
  · next cause attempts e hpc =>
    obtain rfl := Option.some.inj h
    by_cases hqueued : e = .queued
    · subst hqueued
      exact .abortEmitted hpc
    · rw [emit_of_ne _ _ hqueued, if_neg hqueued]
      refine .abortUnemitted hpc hqueued ?_
      split_ifs
      · exact .inl rfl
      · exact .inr rfl
  · next hpc =>
    obtain rfl := Option.some.inj h
    exact .moves (hpc ▸ .abortReport) (s.run.core_call rfl)
  · next hpc =>
    obtain rfl := Option.some.inj h
    exact .terminated hpc s.run.core_call_fail
  · next hpc =>
    obtain rfl := Option.some.inj h
    exact .ended hpc
  · next hpc =>
    obtain rfl := Option.some.inj h
    exact .done hpc
  · cases h

end Works

/-! ### The other threads -/

/-- The sent callback counts, and takes an SDU off or finds nothing outstanding. -/
theorem sent_cases (s : App) (i : Fin 2) :
    ∃ run pending outstanding, ∃ raised : Bool, run.core = s.run.core ∧
      (raised = true → s.run.active = true ∧ s.run.currentState ≠ .teardown ∧
        s.txActive = true ∧ s.txOutstanding i = 0) ∧
      s.sent i = { s with run := run, runtimeError := raised || s.runtimeError
                          errored := raised || s.errored, txAnchorPending := pending
                          txOutstanding := outstanding } := by
  have hcount : (s.count (.counterSentCallback i)).run.core = s.run.core := s.run.core_call rfl
  have raise_eq {t : App} (hactive : t.run.active = true) :
      t.raise = { t with runtimeError := true, errored := true } := by
    unfold raise
    rw [hactive]
    rfl
  unfold App.sent
  cases hstale : s.stale with
  | true =>
    simp only [if_true]
    split_ifs
    · exact ⟨_, _, _, false, hcount, (fun h => by cases h), rfl⟩
    · exact ⟨_, _, _, false, rfl, (fun h => by cases h), rfl⟩
  | false =>
    have hcurrent : s.run.active = true ∧ s.run.currentState ≠ .teardown ∧ s.txActive = true := by
      simpa [App.stale, and_assoc] using hstale
    simp only [Bool.false_eq_true, if_false]
    split_ifs with hzero hcounted hcounted
    · exact ⟨_, _, _, true, hcount, fun _ => ⟨hcurrent.1, hcurrent.2.1, hcurrent.2.2, hzero⟩,
        raise_eq ((State.eq_of_core hcount _ State.core_active).trans hcurrent.1)⟩
    · exact ⟨_, _, _, true, rfl, fun _ => ⟨hcurrent.1, hcurrent.2.1, hcurrent.2.2, hzero⟩,
        raise_eq hcurrent.1⟩
    · exact ⟨_, _, _, false, hcount, (fun h => by cases h), rfl⟩
    · exact ⟨_, _, _, false, rfl, (fun h => by cases h), rfl⟩

/-- The answer to a command is enqueued, or the error flag may be raised. -/
theorem emitStatus_cases (s : App) (c : Command) (segment : ℕ) (e : Emission) :
    (e = .queued ∧ s.emitStatus c segment e =
      s.enqueue { data := .status, firmwareId := firmwareId, monotonicMs := s.now
                  commandId := c.id, runId := c.runId, segment := segment }) ∨
    e ≠ .queued ∧ (s.emitStatus c segment e = s.raise ∨
      s.run.active = false ∧ s.emitStatus c segment e = s) := by
  cases e with
  | queued => exact .inl ⟨rfl, rfl⟩
  | refused => exact .inr ⟨by decide, .inl rfl⟩
  | unformatted =>
    refine .inr ⟨by decide, ?_⟩
    unfold emitStatus
    split_ifs with hactive
    · exact .inl rfl
    · exact .inr ⟨Bool.eq_false_iff.2 hactive, rfl⟩

end App

end Hil

end LeAudioReceiver
