import LeAudioReceiver.Hil.Progress

/-!
# Who owns the run

START hands the run to the worker through `sem_worker`; the worker gives it back through
`sem_run_done`.  IDLE stops a run, waits for its end and cleans up.  Both decide from the active
flag alone, which falls before the terminal record and the token are out.

* `paired` : the acknowledgements and terminal records alternate;
* `Owned` : the invariant;
* `ownership` : **without a START or an IDLE while an inactive run is not given back, every START
  has its terminal record, IDLE cleans up alone, and its token is of the run it stopped**;
* `start_before_terminal` : a START in that window takes the terminal record of the run before it.
-/

namespace LeAudioReceiver

namespace Hil

/-! ### Acknowledgements and terminal records -/

/-- One more acknowledgement or terminal record.  Kept are the ids of a START whose terminal record
is not out; a terminal record has to have them. -/
def pair : Option (String × String) → Record → Option (Option (String × String))
  | none, r =>
    match r.data with
    | .ack => some (some (r.commandId, r.runId))
    | _ => none
  | some ids, r =>
    match r.data with
    | .terminal _ => if ids = (r.commandId, r.runId) then some none else none
    | _ => none

/-- The acknowledgements and the terminal records alternate, with the same ids in every pair. -/
def paired (log : List Record) : Option (Option (String × String)) := log.foldlM pair none

theorem paired_concat {log : List Record} {p : Option (String × String)} (h : paired log = some p)
    (r : Record) : paired (log ++ [r]) = pair p r := by
  unfold paired at h ⊢
  rw [List.foldlM_append, h]
  cases hr : pair p r <;> simp [List.foldlM, hr]

/-! ### Places -/

/-- IDLE is about to clean up, cleans up or is about to reset the run state. -/
def Shell.cleaning : Shell → Bool
  | .idleCleanup _ | .idleCleanupRest _ | .idleFailed _ | .idleReset _ => true
  | _ => false

namespace App

/-- START is accepted. -/
def admits (s : App) (c : Command) : Bool := s.names c && s.run.start.2 = none

/-- The records of the run and the acknowledgement of an accepted START are enqueued. -/
def delivers (s : App) : Action → Bool
  | .work a => a.queued
  | .shell (.start c e _ _) => e = .queued || !s.admits c
  | _ => true

/-- START and IDLE find the run active, or the worker at rest. -/
def settled (s : App) : Action → Bool
  | .shell (.start _ _ _ _) | .shell (.idle _ _) => s.run.active || s.worker = .waiting
  | _ => true

/-! ### The invariant -/

/-- What START and IDLE rely on. -/
structure Owned (s : App) : Prop where
  busy : s.worker ≠ .waiting →
    s.semWorker = false ∧ s.semRunDone = false ∧ s.workerRun = s.runNo
  woken : s.semWorker = true → s.run.active = true ∧ s.semRunDone = false
  token : s.semRunDone = true → s.tokenRun = s.runNo
  cleaning : s.shell.cleaning = true → s.worker = .waiting ∧ s.semWorker = false
  asked : ∀ c n, s.shell = .idleWait c n → n = s.runNo
  log : paired s.log =
    some (if s.inProgress then some (s.asyncCommandId, s.configRunId) else none)

/-- Neither the semaphores nor the numbers and ids of the runs differ. -/
structure SameOwner (s s' : App) : Prop where
  semWorker : s'.semWorker = s.semWorker
  semRunDone : s'.semRunDone = s.semRunDone
  workerRun : s'.workerRun = s.workerRun
  tokenRun : s'.tokenRun = s.tokenRun
  runNo : s'.runNo = s.runNo
  asyncCommandId : s'.asyncCommandId = s.asyncCommandId
  configRunId : s'.configRunId = s.configRunId

section Work

variable {s s' : App} {a : Answer}

theorem Works.owner (h : Works s a s') (ha : a.queued = true) :
    (s.worker = .waiting ∧ s.semWorker = true ∧
      s' = { s with semWorker := false, workerRun := s.runNo, worker := .entry }) ∨
    (s.worker.inside = true ∧ s'.worker.inside = true ∧ s'.log = s.log ∧ s'.shell = s.shell ∧
      SameOwner s s') ∨
    (s.worker.inside = true ∧ s'.worker = .done ∧ s'.shell = s.shell ∧ SameOwner s s' ∧
      ∃ verdict, s'.log = s.log ++ [s.record (.terminal verdict)]) ∨
    (s.worker = .done ∧
      s' = { s with semRunDone := true, tokenRun := s.workerRun, worker := .waiting }) := by
  have hinside {pc : Pc} (hpc : s.worker = pc) (h : pc.inside = true) :
      s.worker.inside = true := hpc ▸ h
  cases h with
  | wake hpc hsem => exact .inl ⟨hpc, hsem, rfl⟩
  | done hpc => exact .inr (.inr (.inr ⟨hpc, rfl⟩))
  | passed hpc =>
    exact .inr (.inr (.inl ⟨hinside hpc rfl, rfl, rfl, ⟨rfl, rfl, rfl, rfl, rfl, rfl, rfl⟩,
      .pass, rfl⟩))
  | unpassed raised errored hpc hcore =>
    obtain ⟨-, hqueued⟩ := Bool.and_eq_true_iff.1 ha
    obtain rfl := of_decide_eq_true hqueued
    have hsegment : _ = s.run.segment :=
      (State.of_core hcore State.segment State.core_segment).trans (State.failedCore_segment _)
    refine .inr (.inr (.inl ⟨hinside hpc rfl, rfl, rfl, ⟨rfl, rfl, rfl, rfl, rfl, rfl, rfl⟩,
      .fail, ?_⟩))
    unfold App.record
    rw [← hsegment]
    rfl
  | ended hpc =>
    obtain rfl := of_decide_eq_true ha
    exact .inr (.inr (.inl ⟨hinside hpc rfl, rfl, rfl, ⟨rfl, rfl, rfl, rfl, rfl, rfl, rfl⟩,
      .fail, rfl⟩))
  | moves hmove =>
    exact .inr (.inl ⟨hmove.inside.1, hmove.inside.2, rfl, rfl, rfl, rfl, rfl, rfl, rfl, rfl, rfl⟩)
  | checked hcheck =>
    have hplaces : s.worker.inside = true ∧ _ := hcheck.inside
    exact .inr (.inl ⟨hplaces.1, hplaces.2, rfl, rfl, rfl, rfl, rfl, rfl, rfl, rfl, rfl⟩)
  | @emitted k hpc =>
    refine .inr (.inl ⟨hinside hpc rfl, ?_, rfl, rfl, rfl, rfl, rfl, rfl, rfl, rfl, rfl⟩)
    cases k <;> rfl
  | abortUnemitted _ hne => exact absurd (of_decide_eq_true ha) hne
  | _ => exact .inr (.inl ⟨hinside ‹_› rfl, rfl, rfl, rfl, rfl, rfl, rfl, rfl, rfl, rfl, rfl⟩)

theorem Owned.of_inside (h : Owned s) (hpc : s.worker.inside = true) (hshell : s'.shell = s.shell)
    (hsame : SameOwner s s')
    (hlog : paired s'.log =
      some (if s'.inProgress then some (s'.asyncCommandId, s'.configRunId) else none)) :
    Owned s' := by
  have hbusy := h.busy (Pc.ne_waiting hpc)
  refine ⟨fun _ => ?_, fun hsem => ?_, fun hdone => ?_, fun hclean => ?_, fun c n hwait => ?_, hlog⟩
  · rw [hsame.semWorker, hsame.semRunDone, hsame.workerRun, hsame.runNo]
    exact hbusy
  · rw [hsame.semWorker, hbusy.1] at hsem
    cases hsem
  · rw [hsame.semRunDone, hbusy.2.1] at hdone
    cases hdone
  · rw [hshell] at hclean
    exact absurd (h.cleaning hclean).1 (Pc.ne_waiting hpc)
  · rw [hshell] at hwait
    exact (h.asked c n hwait).trans hsame.runNo.symm

/-- A step of the worker. -/
theorem Owned.work (h : Owned s) (hw : Works s a s') (ha : a.queued = true) : Owned s' := by
  rcases hw.owner ha with ⟨hpc, hsem, rfl⟩ | ⟨hpc, hpc', hlog, hshell, hsame⟩ |
    ⟨hpc, hpc', hshell, hsame, verdict, hlog⟩ | ⟨hpc, rfl⟩
  · -- the worker wakes up
    obtain ⟨hactive, hnone⟩ := h.woken hsem
    have hlog := h.log
    have hprogress : s.inProgress = true := by simp [inProgress, hpc, hsem]
    rw [hprogress] at hlog
    exact
      { busy := fun _ => ⟨rfl, hnone, rfl⟩
        woken := fun h => by cases h
        token := h.token
        cleaning := fun hclean => by cases hsem.symm.trans (h.cleaning hclean).2
        asked := h.asked
        log := hlog }
  · -- inside of the run
    have hlog' := h.log
    have hprogress : s.inProgress = true := by simp [inProgress, hpc]
    have hprogress' : s'.inProgress = true := by simp [inProgress, hpc']
    rw [hprogress] at hlog'
    refine h.of_inside hpc hshell hsame ?_
    rw [hprogress', hlog, hsame.asyncCommandId, hsame.configRunId]
    exact hlog'
  · -- the terminal record
    have hlog' := h.log
    have hprogress : s.inProgress = true := by simp [inProgress, hpc]
    have hprogress' : s'.inProgress = false := by simp [inProgress, hpc', Pc.inside]
    rw [hprogress] at hlog'
    refine h.of_inside hpc hshell hsame ?_
    rw [hprogress', hlog, paired_concat hlog']
    exact if_pos rfl
  · -- the token
    have hbusy := h.busy (by rw [hpc]; decide)
    have hlog := h.log
    have hprogress : s.inProgress = false := by simp [inProgress, hpc, Pc.inside]
    rw [hprogress] at hlog
    refine ⟨fun hne => absurd rfl hne, fun hsem => ?_, fun _ => hbusy.2.2, fun hclean => ?_,
      h.asked, ?_⟩
    · cases hbusy.1.symm.trans hsem
    · exact ⟨rfl, hbusy.1⟩
    · have hprogress' : ({ s with semRunDone := true, tokenRun := s.workerRun
                                  worker := .waiting } : App).inProgress = false := by
        simp [inProgress, hbusy.1, Pc.inside]
      rw [hprogress']
      exact hlog

end Work

/-! ### The other threads -/

section Others

variable {s s' : App}

theorem Owned.congr (h : Owned s) (hsame : SameOwner s s') (hworker : s'.worker = s.worker)
    (hactive : s.semWorker = true → s'.run.active = s.run.active) (hlog : s'.log = s.log)
    (hclean : s'.shell.cleaning = true → s.worker = .waiting ∧ s.semWorker = false)
    (hasked : ∀ c n, s'.shell = .idleWait c n → n = s.runNo) : Owned s' := by
  have hprogress : s'.inProgress = s.inProgress := by
    unfold inProgress
    rw [hworker, hsame.semWorker]
  refine ⟨fun hne => ?_, fun hsem => ?_, fun hdone => ?_, fun hcleaning => ?_,
    fun c n hwait => ?_, ?_⟩
  · rw [hsame.semWorker, hsame.semRunDone, hsame.workerRun, hsame.runNo]
    exact h.busy (hworker ▸ hne)
  · rw [hsame.semWorker] at hsem
    rw [hactive hsem, hsame.semRunDone]
    exact h.woken hsem
  · rw [hsame.tokenRun, hsame.runNo]
    exact h.token (hsame.semRunDone ▸ hdone)
  · rw [hworker, hsame.semWorker]
    exact hclean hcleaning
  · exact (hasked c n hwait).trans hsame.runNo.symm
  · rw [hlog, hprogress, hsame.asyncCommandId, hsame.configRunId]
    exact h.log

theorem Owned.emitStatus (h : Owned s) (c : Command) (segment : ℕ) (e : Emission) :
    Owned (s.emitStatus c segment e) := by
  rcases s.emitStatus_cases c segment e with ⟨-, heq⟩ | ⟨-, heq | ⟨-, heq⟩⟩
  all_goals
    rw [heq]
    exact h.congr ⟨rfl, rfl, rfl, rfl, rfl, rfl, rfl⟩ rfl (fun _ => rfl) rfl h.cleaning h.asked

/-- The shell thread is free again. -/
theorem Owned.free (h : Owned s) : Owned { s with shell := .free } :=
  h.congr ⟨rfl, rfl, rfl, rfl, rfl, rfl, rfl⟩ rfl (fun _ => rfl) rfl (fun h => by cases h)
    fun _ _ h => by cases h

theorem Owned.count (h : Owned s) {op : Op} (hop : op.minor = true) : Owned (s.count op) :=
  h.congr ⟨rfl, rfl, rfl, rfl, rfl, rfl, rfl⟩ rfl
    (fun _ => State.eq_of_core (s.run.core_call hop) _ State.core_active) rfl h.cleaning h.asked

/-- START finds an inactive run: the worker is at rest. -/
theorem Owned.rest (h : Owned s) (hsettled : (s.run.active || s.worker = .waiting) = true)
    (hactive : s.run.active = false) : s.worker = .waiting ∧ s.semWorker = false := by
  have hworker : s.worker = .waiting := by simpa [hactive] using hsettled
  refine ⟨hworker, Bool.eq_false_iff.2 fun hsem => ?_⟩
  cases (h.woken hsem).1.symm.trans hactive

theorem Owned.start (h : Owned s) {c : Command} {e abort terminal : Emission}
    (hshell : s.shell = .free) (hsettled : (s.run.active || s.worker = .waiting) = true)
    (hdelivers : (e = .queued || !s.admits c) = true) :
    Owned (s.handleStart c e abort terminal) := by
  unfold handleStart
  cases hnames : s.names c with
  | false => exact h.emitStatus c 0 e
  | true =>
    simp only [Bool.not_true, Bool.false_eq_true, if_false]
    rcases s.run.call_cases .start with ⟨err, he⟩ | ⟨run, hrun, hacc⟩
    · rw [show s.run.start = (s.run, some err) from he]
      exact h.emitStatus c 0 e
    · have hstart : s.run.start = (run, none) := hrun
      have hqueued : e = .queued := by simpa [admits, hnames, hstart] using hdelivers
      rw [hstart]
      dsimp only
      rw [if_pos hqueued]
      cases hacc with
      | start _ hactive =>
        obtain ⟨hworker, hsem⟩ := h.rest hsettled hactive
        have hlog := h.log
        have hprogress : s.inProgress = false := by simp [inProgress, hworker, hsem, Pc.inside]
        rw [hprogress] at hlog
        have hprogress' : (s.started c s.run.started).inProgress = true := by
          simp [inProgress, started, hworker]
        refine ⟨fun hne => absurd hworker hne, fun _ => ⟨rfl, rfl⟩, (fun hdone => by cases hdone),
          fun hclean => ?_, fun c' n hwait => ?_, ?_⟩
        · rw [show (s.started c s.run.started).shell = s.shell from rfl, hshell] at hclean
          cases hclean
        · rw [show (s.started c s.run.started).shell = s.shell from rfl, hshell] at hwait
          cases hwait
        · rw [hprogress']
          exact paired_concat hlog _

theorem Owned.idle (h : Owned s) {c : Command} {e : Emission}
    (hsettled : (s.run.active || s.worker = .waiting) = true) : Owned (s.handleIdle c e) := by
  unfold handleIdle
  split_ifs with hother hactive
  · exact h.emitStatus c 0 e
  · have hcount : Owned (s.count .stopRequest) := h.count rfl
    refine hcount.congr ⟨rfl, rfl, rfl, rfl, rfl, rfl, rfl⟩ rfl (fun _ => rfl) rfl
      (fun hclean => by cases hclean) fun c' n hwait => ?_
    exact (Shell.idleWait.inj hwait).2.symm
  · have hrest := h.rest hsettled (Bool.eq_false_iff.2 hactive)
    exact h.congr ⟨rfl, rfl, rfl, rfl, rfl, rfl, rfl⟩ rfl (fun _ => rfl) rfl (fun _ => hrest)
      fun _ _ hwait => by cases hwait

theorem Owned.take (h : Owned s) {c : Command} (hdone : s.semRunDone = true) :
    Owned { s with semRunDone := false, shell := .idleCleanup c } := by
  have hworker : s.worker = .waiting := by
    by_contra hne
    cases (h.busy hne).2.1.symm.trans hdone
  have hsem : s.semWorker = false := by
    refine Bool.eq_false_iff.2 fun hsem => ?_
    cases (h.woken hsem).2.symm.trans hdone
  exact
    { busy := fun hne => absurd hworker hne
      woken := fun hwoken => by cases hsem.symm.trans hwoken
      token := fun hnone => by cases hnone
      cleaning := fun _ => ⟨hworker, hsem⟩
      asked := fun _ _ hwait => by cases hwait
      log := h.log }

theorem Owned.reset (h : Owned s) (hrest : s.worker = .waiting ∧ s.semWorker = false) :
    Owned { s with run := .zero, haveConfigIds := false, asyncCommandId := "" } := by
  have hlog := h.log
  have hprogress : s.inProgress = false := by simp [inProgress, hrest.1, hrest.2, Pc.inside]
  rw [hprogress] at hlog
  refine
    { busy := h.busy
      woken := fun hwoken => by cases hrest.2.symm.trans hwoken
      token := h.token
      cleaning := h.cleaning
      asked := h.asked
      log := ?_ }
  have hprogress' : ({ s with run := .zero, haveConfigIds := false
                              asyncCommandId := "" } : App).inProgress = false := hprogress
  rw [hprogress']
  exact hlog

/-- A step of the shell thread. -/
theorem Owned.dispatch (h : Owned s) {a : ShellStep} (hd : s.delivers (.shell a) = true)
    (hs : s.settled (.shell a) = true) (hstep : s.dispatch a = some s') : Owned s' := by
  unfold App.dispatch at hstep
  split at hstep
  · next hshell =>
    obtain rfl := Option.some.inj hstep
    exact h.start hshell hs hd
  · next c e hshell =>
    obtain rfl := Option.some.inj hstep
    exact h.emitStatus c _ e
  · next c e hshell =>
    obtain rfl := Option.some.inj hstep
    unfold handleStop
    split_ifs
    · exact h.emitStatus c 0 e
    · exact (h.count rfl).emitStatus c _ e
  · next c e hshell =>
    obtain rfl := Option.some.inj hstep
    exact h.emitStatus c 0 e
  · next c e hshell =>
    obtain rfl := Option.some.inj hstep
    exact h.idle hs
  · next c n hshell =>
    -- the token is there: the run is given back
    split_ifs at hstep with hdone
    obtain rfl := Option.some.inj hstep
    exact h.take hdone
  · next c n e hshell =>
    split_ifs at hstep
    obtain rfl := Option.some.inj hstep
    exact (h.emitStatus c 0 e).free
  · next c hshell =>
    obtain rfl := Option.some.inj hstep
    refine h.congr ⟨rfl, rfl, rfl, rfl, rfl, rfl, rfl⟩ rfl (fun _ => rfl) rfl
      (fun _ => h.cleaning (hshell ▸ rfl)) fun _ _ hwait => by cases hwait
  · next c ret hshell =>
    obtain rfl := Option.some.inj hstep
    refine h.congr ⟨rfl, rfl, rfl, rfl, rfl, rfl, rfl⟩ rfl (fun _ => rfl) rfl
      (fun _ => h.cleaning (hshell ▸ rfl)) fun _ _ hwait => ?_
    dsimp only at hwait
    split_ifs at hwait
  · next c e hshell =>
    obtain rfl := Option.some.inj hstep
    exact (h.emitStatus c 0 e).free
  · next c e hshell =>
    obtain rfl := Option.some.inj hstep
    exact ((h.reset (h.cleaning (hshell ▸ rfl))).emitStatus c 0 e).free
  · cases hstep

end Others

/-! ### Runs -/

theorem Configured.owned {s : App} (h : Configured s) : Owned s where
  busy hne := absurd h.worker hne
  woken hsem := by cases h.semWorker.symm.trans hsem
  token hdone := by cases h.semRunDone.symm.trans hdone
  cleaning hclean := by
    rw [h.shell] at hclean
    cases hclean
  asked c n hwait := by cases h.shell.symm.trans hwait
  log := by
    have hprogress : s.inProgress = false := by simp [inProgress, h.worker, h.semWorker, Pc.inside]
    rw [h.log, hprogress]
    rfl

/-- One step. -/
theorem Owned.next {s s' : App} (h : Owned s) {a : Action} (hd : s.delivers a = true)
    (hs : s.settled a = true) (hnext : s.next a = some s') : Owned s' := by
  cases a with
  | work a => exact h.work (works hnext) hd
  | shell a => exact h.dispatch hd hs hnext
  | tick ms =>
    obtain rfl := Option.some.inj hnext
    exact h.congr ⟨rfl, rfl, rfl, rfl, rfl, rfl, rfl⟩ rfl (fun _ => rfl) rfl h.cleaning h.asked
  | sent i =>
    obtain rfl := Option.some.inj hnext
    obtain ⟨run, pending, outstanding, raised, hcore, -, heq⟩ := s.sent_cases i
    rw [heq]
    exact h.congr ⟨rfl, rfl, rfl, rfl, rfl, rfl, rfl⟩ rfl
      (fun _ => State.eq_of_core hcore _ State.core_active) rfl h.cleaning h.asked

/-- What START, the worker and IDLE owe one another. -/
structure Ownership (s : App) : Prop where
  /-- Every accepted START has one terminal record with its ids, but the last one while its run is
  in progress. -/
  terminal : paired s.log =
    some (if s.inProgress then some (s.asyncCommandId, s.configRunId) else none)
  /-- The worker of a run in progress is never stuck, and each of its steps is a turn of a wait, a
  retry or the transmit stage, or leaves less ahead. -/
  ends : s.inProgress = true → (∃ a, (s.work a).isSome = true) ∧
    ∀ a s', a.queued = true → s.work a = some s' →
      s.worker.turn s'.worker = true ∨ s'.ahead < s.ahead
  /-- IDLE cleans up and resets while the worker is at rest. -/
  alone : s.shell.cleaning = true → s.worker = .waiting ∧ s.semWorker = false
  /-- The token that IDLE can take is of the run it asked to stop. -/
  token : ∀ c n, s.shell = .idleWait c n → s.semRunDone = true → s.tokenRun = n

/-- **The worker owns its run.**  Where no START and no IDLE begins while an inactive run is not
given back, whatever else the shell thread, the backend and the sent callback do. -/
theorem ownership {s : App} (h : machine.ReachableBy (fun s a => s.delivers a ∧ s.settled a) s) :
    Ownership s := by
  have howned : Owned s := h.invariant (fun _ => Configured.owned)
    fun s a s' hs ha hnext => hs.next ha.1 ha.2 hnext
  exact
    { terminal := howned.log
      ends := fun hprogress => ⟨work_enabled hprogress, fun a s' ha hwork =>
        (works hwork).progress ha fun hne => (howned.busy hne).1⟩
      alone := howned.cleaning
      token := fun c n hwait hdone => (howned.token hdone).trans (howned.asked c n hwait).symm }

/-- A configuration of one stream. -/
def monoArg : ConfigArg :=
  ⟨some .mono, some .p48_4_1, fun _ => 0, some .pub, 1, 1, some .none⟩

/-- The run of one stream, configured. -/
def configuredMono : App := configured (monoConfig .none)

theorem configuredMono_reachable {ok : App → Action → Prop} :
    machine.ReachableBy ok configuredMono :=
  .init ⟨⟨monoArg, _, rfl, rfl⟩, rfl, rfl, rfl, rfl, rfl, rfl, rfl, rfl⟩

/-- START, then IDLE while the backend connects, up to the token. -/
theorem ownership_stopped :
    ∃ s : App, s.shell = .idleWait ⟨"cmd-0002", "run-1"⟩ 1 ∧ s.semRunDone = true ∧
      s.tokenRun = 1 := by
  have hrun : (machine.runBy (fun s a => s.delivers a ∧ s.settled a) configuredMono
      ([.shell (.start ⟨"cmd-0001", "run-1"⟩ .queued .queued .queued)] ++ opening ++
        [go, emits, go, returns, .shell (.idle ⟨"cmd-0002", "run-1"⟩ .queued), go, go, go, emits,
          go, returns, go, emits, go])).map (fun s => (s.shell, s.semRunDone)) =
      some (.idleWait ⟨"cmd-0002", "run-1"⟩ 1, true) := by
    decide +kernel
  obtain ⟨s, hs, hend⟩ := Option.map_eq_some_iff.1 hrun
  obtain ⟨hshell, hdone⟩ := Prod.mk.inj hend
  have howned := ownership (configuredMono_reachable.runBy hs)
  exact ⟨s, hshell, hdone, howned.token _ _ hshell hdone⟩

/-- A START between the end of a stopped run and its terminal record takes that record: it has the
ids of the second START, and the first one has none. -/
theorem start_before_terminal :
    ¬∀ s : App, machine.ReachableBy (fun s a => s.delivers a) s → Ownership s := by
  intro h
  have hrun : (machine.runBy (fun s a => s.delivers a) configuredMono
      ([.shell (.start ⟨"cmd-0001", "run-1"⟩ .queued .queued .queued)] ++ opening ++
        [go, emits, go, returns, .shell (.stop ⟨"cmd-0002", "run-1"⟩ .queued), go, go, go, emits,
          go, returns, go, .shell (.start ⟨"cmd-0003", "run-1"⟩ .queued .queued .queued),
          emits])).map (fun s => paired s.log) = some none := by
    decide +kernel
  obtain ⟨s, hs, hnone⟩ := Option.map_eq_some_iff.1 hrun
  have hterminal := (h s (configuredMono_reachable.runBy hs)).terminal
  rw [hnone] at hterminal
  cases hterminal

end App

end Hil

end LeAudioReceiver
