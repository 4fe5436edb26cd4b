import LeAudioReceiver.Pairing.Run
import Mathlib.Logic.Relation

/-!
# The moves of the controller

What a part of a pass or a delayed work does to a controller that is not fatal, said once: either
every operation it calls succeeds, and the controller makes `Move`s, or one fails, and `Crashed`
describes the log.  `Calls` relates two logs by the successful calls between them, so that an
invariant reads a transition off its list of operations.

* `Ctl.stage_ends`, `Ctl.blinkHandler_ends`, `Ctl.feedbackHandler_ends` : the code makes moves or
  crashes;
* `Sys.Kept.next`, `Sys.kept_of_reachable` : an invariant that every move keeps holds until a
  crash, and after the crash nothing is called.
-/

namespace LeAudioReceiver

namespace Pairing

/-! ### Logs -/

/-- The entry is a note, or an operation other than a cold reboot that succeeded. -/
def Entry.clean : Entry → Bool
  | .op o r => o != .coldReboot && decide (0 ≤ r.ret)
  | _ => true

/-- `log'` is `log` after the successful calls of `os`, latest first. -/
inductive Calls (log : List Entry) : List Op → List Entry → Prop
  | nil : Calls log [] log
  | op {os : List Op} {log' : List Entry} {o : Op} {r : Reply} (h : Calls log os log')
      (ho : o ≠ .coldReboot) (hr : 0 ≤ r.ret) : Calls log (o :: os) (.op o r :: log')

/-- `log'` is `log` after a failed operation, with what `fatal_finalize` does about it. -/
def Crashed (log log' : List Entry) : Prop :=
  ∃ es o r r₁ r₂, log' = .op .coldReboot r₂ :: .op (.ledSet false) r₁ :: .op o r :: (es ++ log) ∧
    o ≠ .coldReboot ∧ r.ret < 0 ∧ ∀ e ∈ es, Entry.clean e = true

/-- The argument of a successful operation, as far as `f` reads one. -/
def Entry.done {α : Type*} (f : Op → Option α) : Entry → Option α
  | .op o r => if 0 ≤ r.ret then f o else none
  | _ => none

/-- The argument of the last successful operation that `f` reads. -/
def lastDone {α : Type*} (f : Op → Option α) (log : List Entry) : Option α :=
  log.findSome? (Entry.done f)

theorem Calls.lastDone_eq {α : Type*} (f : Op → Option α) {log log' : List Entry} {os : List Op}
    (h : Calls log os log') : lastDone f log' = (os.findSome? f).or (lastDone f log) := by
  induction h with
  | nil => simp
  | @op os log' o r _ _ hr ih =>
    rw [lastDone, List.findSome?_cons, List.findSome?_cons, Entry.done, if_pos hr]
    cases f o with
    | none => exact ih
    | some a => rfl

theorem Calls.clean {log log' : List Entry} {os : List Op} (h : Calls log os log') :
    ∃ es, log' = es ++ log ∧ ∀ e ∈ es, Entry.clean e = true := by
  induction h with
  | nil => exact ⟨[], rfl, List.forall_mem_nil _⟩
  | op _ ho hr ih =>
    obtain ⟨es, rfl, hes⟩ := ih
    exact ⟨_ :: es, rfl, List.forall_mem_cons.2 ⟨by simp [Entry.clean, ho, hr], hes⟩⟩

theorem Crashed.of_cons {log log' : List Entry} {e : Entry} (he : e.clean = true)
    (h : Crashed (e :: log) log') : Crashed log log' := by
  obtain ⟨es, o, r, r₁, r₂, rfl, ho, hr, hes⟩ := h
  refine ⟨es ++ [e], o, r, r₁, r₂, by simp, ho, hr, ?_⟩
  simpa [or_imp, forall_and] using ⟨hes, he⟩

namespace Ctl

variable {W : Type*}

/-! ### Moves -/

/-- The operations of a new transition, latest first. -/
def suspendOps : List Op := [.disconnectPeer, .setAccessMode .suspended, .advertisingSuspend]

/-- The operations of `finish_bonding_entry`. -/
def entryOps : List Op :=
  [.advertisingStart, .schedule .blink, .ledSet true, .setAccessMode .bonding]

/-- The operations of `start_reset_feedback`. -/
def feedbackOps : List Op := [.schedule .feedback, .schedule .blink, .ledSet true, .deleteAllBonds]

/-- `finish_bonding_entry` where nothing fails. -/
def entered (c : Ctl W) (w : W) (log : List Entry) : Ctl W :=
  { c with
    status := { c.status with mode := .bonding, phase := .idle, accessMode := .bonding,
                              ledActive := true }
    blink := ⟨true, c.status.generation, false, 0⟩
    world := w
    log := log }

/-- `start_reset_feedback` where nothing fails. -/
def fedBack (c : Ctl W) (w : W) (log : List Entry) : Ctl W :=
  { c with
    status := { c.status with mode := .resetting, phase := .resetFeedback, ledActive := true }
    blink := ⟨true, c.status.generation, true, 0⟩
    feedback := ⟨true, c.status.generation⟩
    world := w
    log := log }

/-- An operation outside of the transitions. -/
def Quiet (o : Op) : Prop :=
  o = .advertisingSuspend ∨ o = .advertisingStart ∨ o = .disconnectPeer ∨ o = .requestSecurity

/-- The blink work has nothing to do. -/
def BlinkLapses (c : Ctl W) : Prop :=
  c.blink.gen ≠ c.status.generation ∨
    (if c.blink.rapid then c.status.phase ≠ .resetFeedback else c.bondingIdle = false)

/-- The code that runs: a part of a pass, or a delayed work. -/
inductive Cause where
  | part (st : Stage)
  | work (w : Work)
  deriving DecidableEq, Repr

/-- What a controller does while no operation fails. -/
inductive Move : Cause → Ctl W → Ctl W → Prop
  | quiet {k : Cause} {c : Ctl W} {os : List Op} {w : W} {log : List Entry}
      (hl : Calls c.log os log) (ho : ∀ o ∈ os, Quiet o) :
      Move k c { c with world := w, log := log }
  | connected {c : Ctl W} : Move (.part .connected) c { c with status.connected := true }
  | disconnected {c : Ctl W} :
      Move (.part .disconnected) c ({ c with status.connected := false }.note .disconnected)
  /-- `do_start`. -/
  | start {k : Cause} {c : Ctl W} {w : W} {log : List Entry} (hs : c.started = false)
      (hl : Calls c.log [.advertisingStart, .ledSet false, .setAccessMode .normal] log) :
      Move k c { c with
        status := { c.status with mode := .normal, phase := .idle, accessMode := .normal,
                                  ledActive := false }
        started := true
        world := w
        log := log }
  /-- `do_bonding` while a disconnect is pending. -/
  | awaitBonding {c : Ctl W} {w : W} {log : List Entry} (hs : c.started = true)
      (hp : c.resetInProgress = false) (hl : Calls (.bonding :: c.log) suspendOps log) :
      Move (.part .bonding) c { c with
        status := { c.status with mode := .bonding, phase := .waitDisconnectForBonding,
                                  generation := c.status.generation + 1 }
        resetTransition := false
        world := w
        log := log }
  /-- `do_bonding` otherwise. -/
  | bond {c : Ctl W} {w : W} {log : List Entry} (hs : c.started = true)
      (hp : c.resetInProgress = false)
      (hl : Calls (.bonding :: c.log) (entryOps ++ suspendOps) log) :
      Move (.part .bonding) c ({ c.bumpGeneration with resetTransition := false }.entered w log)
  /-- The disconnect that a bonding request waits for. -/
  | endBondingWait {c : Ctl W} {w : W} {log : List Entry} (hs : c.started = true)
      (hp : c.status.phase = .waitDisconnectForBonding) (hl : Calls c.log entryOps log) :
      Move (.part .disconnected) c (c.entered w log)
  /-- `do_reset` while a disconnect is pending. -/
  | awaitReset {c : Ctl W} {w : W} {log : List Entry} (hs : c.started = true)
      (hp : c.resetInProgress = false) (hl : Calls (.initiated :: c.log) suspendOps log) :
      Move (.part .reset) c { c with
        status := { c.status with mode := .resetting, phase := .waitDisconnectForReset,
                                  accessMode := .suspended, generation := c.status.generation + 1 }
        resetTransition := true
        world := w
        log := log }
  /-- `do_reset` otherwise. -/
  | reset {c : Ctl W} {w : W} {log : List Entry} (hs : c.started = true)
      (hp : c.resetInProgress = false)
      (hl : Calls (.initiated :: c.log) (feedbackOps ++ suspendOps) log) :
      Move (.part .reset) c ({ c.bumpGeneration with
        status.accessMode := .suspended, resetTransition := true }.fedBack w log)
  /-- The disconnect that a reset waits for. -/
  | endResetWait {c : Ctl W} {w : W} {log : List Entry} (hs : c.started = true)
      (hp : c.status.phase = .waitDisconnectForReset) (hl : Calls c.log feedbackOps log) :
      Move (.part .disconnected) c (c.fedBack w log)
  /-- `do_complete_to_normal`. -/
  | complete {k : Cause} {c : Ctl W} {w : W} {log : List Entry} (hs : c.started = true)
      (hb : c.bondingIdle = true) (hl : Calls c.log [.ledSet false, .setAccessMode .normal] log) :
      Move k c { c with
        status := { c.status with mode := .normal, accessMode := .normal, ledActive := false }
        blink.pending := false
        world := w
        log := log }
  | blinkLapse {c : Ctl W} (h : c.BlinkLapses) :
      Move (.work .blink) c { c with blink.pending := false }
  /-- A toggle of the rapid pattern; the last one does not schedule the work again. -/
  | rapidToggle {c : Ctl W} {w : W} {log : List Entry} {active : Bool} (again : Bool)
      (hg : c.blink.gen = c.status.generation) (hr : c.blink.rapid = true)
      (hp : c.status.phase = .resetFeedback)
      (hl : Calls c.log ((if again then [.schedule .blink] else []) ++ [.ledSet active]) log) :
      Move (.work .blink) c { c with
        status.ledActive := active
        blink := { c.blink with pending := again, toggles := c.blink.toggles + 1 }
        world := w
        log := log }
  /-- A toggle of the slow pattern. -/
  | slowToggle {c : Ctl W} {w : W} {log : List Entry} {active : Bool}
      (hg : c.blink.gen = c.status.generation) (hr : c.blink.rapid = false)
      (hb : c.bondingIdle = true) (hl : Calls c.log [.schedule .blink, .ledSet active] log) :
      Move (.work .blink) c { c with
        status.ledActive := active, blink.pending := true, world := w, log := log }
  | feedbackLapse {c : Ctl W}
      (h : c.feedback.gen ≠ c.status.generation ∨ c.status.phase ≠ .resetFeedback) :
      Move (.work .feedback) c { c with feedback.pending := false }
  /-- The end of the reset feedback. -/
  | expire {c : Ctl W} {w : W} {log : List Entry} (hg : c.feedback.gen = c.status.generation)
      (hp : c.status.phase = .resetFeedback) (hl : Calls (.expiry :: c.log) entryOps log) :
      Move (.work .feedback) c ({ c with feedback.pending := false }.entered w (.syncDone :: log))

/-- Any number of moves. -/
abbrev Moves (k : Cause) : Ctl W → Ctl W → Prop := Relation.ReflTransGen (Move k)

variable {k : Cause} {c c' : Ctl W}

theorem Move.log (h : Move k c c') :
    ∃ es, c'.log = es ++ c.log ∧ ∀ e ∈ es, Entry.clean e = true := by
  have hnote : ∀ {e : Entry} {os : List Op} {log : List Entry}, e.clean = true →
      Calls (e :: c.log) os log →
      ∃ es, log = es ++ c.log ∧ ∀ e ∈ es, Entry.clean e = true := by
    intro e os log he hl
    obtain ⟨es, rfl, hes⟩ := hl.clean
    exact ⟨es ++ [e], by simp, List.forall_mem_append.2 ⟨hes, by simpa using he⟩⟩
  cases h with
  | connected | blinkLapse | feedbackLapse => exact ⟨[], rfl, List.forall_mem_nil _⟩
  | disconnected => exact ⟨[.disconnected], rfl, by simp [Entry.clean]⟩
  | quiet hl | start _ hl | endBondingWait _ _ hl | endResetWait _ _ hl | complete _ _ hl
  | rapidToggle _ _ _ _ hl | slowToggle _ _ _ hl => exact hl.clean
  | awaitBonding _ _ hl | bond _ _ hl | awaitReset _ _ hl | reset _ _ hl => exact hnote rfl hl
  | expire _ _ hl =>
    obtain ⟨es, heq, hes⟩ := hnote rfl hl
    exact ⟨.syncDone :: es, congrArg _ heq, List.forall_mem_cons.2 ⟨rfl, hes⟩⟩

/-- No move touches the fatal latch. -/
theorem Move.fatal (h : Move k c c') : c'.fatal = c.fatal := by
  cases h <;> rfl

theorem Move.started (h : Move k c c') (hs : c.started = true) : c'.started = true := by
  cases h <;> first | exact hs | rfl

theorem Moves.flags (h : Moves k c c') :
    c'.fatal = c.fatal ∧ (c.started = true → c'.started = true) := by
  induction h with
  | refl => exact ⟨rfl, id⟩
  | tail _ hm ih => exact ⟨hm.fatal.trans ih.1, fun hs => hm.started (ih.2 hs)⟩

theorem Moves.keep {I : Ctl W → Prop} (hI : ∀ c c', c.fatal = false → Move k c c' → I c → I c')
    (h : Moves k c c') (hf : c.fatal = false) (hc : I c) : I c' := by
  induction h with
  | refl => exact hc
  | tail hms hm ih => exact hI _ _ ((Moves.flags hms).1.trans hf) hm ih

/-! ### How a piece of code ends -/

section Ends

variable {exec : Exec W}

/-- The code ends in a controller with `P`, or a failed operation has ended it. -/
def Ends (log : List Entry) (P : Ctl W → Prop) (c' : Ctl W) : Prop :=
  P c' ∨ c'.fatal = true ∧ Crashed log c'.log

theorem Ends.of_note {P : Ctl W → Prop} {log : List Entry} {e : Entry} (he : e.clean = true)
    (h : Ends (e :: log) P c) : Ends log P c :=
  h.imp_right fun hc => ⟨hc.1, hc.2.of_cons he⟩

theorem Ends.of_live {P : Ctl W → Prop} {log : List Entry} (h : Ends log P c)
    (hf : c.fatal = false) : P c :=
  h.resolve_right fun hdead => Bool.noConfusion (hf.symm.trans hdead.1)

variable {P : Ctl W → Prop} {base : List Entry} {os : List Op}

theorem attempt_ends {o : Op} {k : Reply → Ctl W → Ctl W} (hf : c.fatal = false)
    (hl : Calls base os c.log) (ho : o ≠ .coldReboot)
    (hk : Calls base (o :: os) (c.call exec o).2.log →
      Ends base P (k (exec o c.world).1 (c.call exec o).2)) :
    Ends base P (c.attempt exec o k) := by
  refine attempt_cases (fun hr => .inr ⟨fatalFinalize_fatal, ?_⟩) fun hr => hk (hl.op ho hr)
  obtain ⟨es, hlog, hes⟩ := hl.clean
  refine ⟨es, o, (exec o c.world).1, ?_, ?_, ?_, ho, hr, hes⟩
  rotate_left 2
  · simp only [fatalFinalize, call, hf, hlog]
    rfl

theorem ledSetActive_ends {active : Bool} {k : Ctl W → Ctl W} (hf : c.fatal = false)
    (hl : Calls base os c.log)
    (hk : ∀ w log, Calls base (.ledSet active :: os) log →
      Ends base P (k { c with status.ledActive := active, world := w, log := log })) :
    Ends base P (c.ledSetActive exec active k) :=
  attempt_ends hf hl (by simp) fun h => hk _ _ h

theorem restartBlink_ends {rapid : Bool} {k : Ctl W → Ctl W} (hf : c.fatal = false)
    (hl : Calls base os c.log)
    (hk : ∀ w log, Calls base (.schedule .blink :: os) log →
      Ends base P (k { c with
        blink := ⟨true, c.status.generation, rapid, 0⟩, world := w, log := log })) :
    Ends base P (c.restartBlink exec rapid k) := by
  unfold restartBlink
  exact attempt_ends hf hl (by simp) fun h => hk _ _ h

/-! ### Transitions -/

theorem finishBondingEntry_ends (hf : c.fatal = false) (hl : Calls base os c.log)
    (hk : ∀ w log, Calls base (entryOps ++ os) log → P (c.entered w log)) :
    Ends base P (c.finishBondingEntry exec) := by
  refine attempt_ends hf hl (by simp) fun h₁ => ?_
  refine ledSetActive_ends hf h₁ fun w₂ log₂ h₂ => ?_
  refine restartBlink_ends hf h₂ fun w₃ log₃ h₃ => ?_
  exact attempt_ends hf h₃ (by simp) fun h₄ => .inl (hk _ _ h₄)

theorem startResetFeedback_ends (hf : c.fatal = false) (hl : Calls base os c.log)
    (hk : ∀ w log, Calls base (feedbackOps ++ os) log → P (c.fedBack w log)) :
    Ends base P (c.startResetFeedback exec) := by
  refine attempt_ends hf hl (by simp) fun h₁ => ?_
  refine ledSetActive_ends hf h₁ fun w₂ log₂ h₂ => ?_
  refine restartBlink_ends hf h₂ fun w₃ log₃ h₃ => ?_
  exact attempt_ends hf h₃ (by simp) fun h₄ => .inl (hk _ _ h₄)

theorem doStart_ends (hf : c.fatal = false) (hs : c.started = false) :
    Ends c.log (Moves k c) (c.doStart exec) := by
  refine attempt_ends hf .nil (by simp) fun h₁ => ?_
  refine ledSetActive_ends hf h₁ fun w₂ log₂ h₂ => ?_
  exact attempt_ends hf h₂ (by simp) fun h₃ => .inl (.single (.start hs h₃))

theorem doBonding_ends (hf : c.fatal = false) (hs : c.started = true)
    (hp : c.resetInProgress = false) :
    Ends c.log (Moves (.part .bonding) c) ((c.bumpGeneration.note .bonding).doBonding exec) := by
  refine Ends.of_note (e := .bonding) rfl ?_
  refine attempt_ends hf .nil (by simp) fun h₁ => ?_
  refine attempt_ends hf h₁ (by simp) fun h₂ => ?_
  refine attempt_ends hf h₂ (by simp) fun h₃ => ?_
  dsimp only
  split
  · exact .inl (.single (.awaitBonding hs hp h₃))
  · exact finishBondingEntry_ends hf h₃ fun w log h => .single (.bond hs hp h)

theorem doReset_ends (hf : c.fatal = false) (hs : c.started = true) :
    Ends c.log (Moves (.part .reset) c) (c.doReset exec) := by
  unfold doReset
  split_ifs with hp
  · exact .inl .refl
  · replace hp : c.resetInProgress = false := by simpa using hp
    refine Ends.of_note (e := .initiated) rfl ?_
    refine attempt_ends hf .nil (by simp) fun h₁ => ?_
    refine attempt_ends hf h₁ (by simp) fun h₂ => ?_
    refine attempt_ends hf h₂ (by simp) fun h₃ => ?_
    dsimp only
    split
    · exact .inl (.single (.awaitReset hs hp h₃))
    · exact startResetFeedback_ends hf h₃ fun w log h => .single (.reset hs hp h)

theorem doCompleteToNormal_ends (hf : c.fatal = false) (hs : c.started = true)
    (hb : c.bondingIdle = true) : Ends c.log (Moves k c) (c.doCompleteToNormal exec) := by
  unfold doCompleteToNormal
  refine attempt_ends hf .nil (by simp) fun h₁ => ?_
  exact ledSetActive_ends hf h₁ fun w log h₂ => .inl (.single (.complete hs hb h₂))

/-! ### Passes and delayed works -/

/-- Each part of a pass makes moves or crashes. -/
theorem stage_ends (hf : c.fatal = false) (ev : Finset Event) {st : Stage}
    (hs : st ≠ .entry → c.started = true) :
    Ends c.log (Moves (.part st) c) (c.stage exec ev st).1 := by
  -- a part ends at its first operation that fails, or has made the moves of its branch
  cases st with
  | entry =>
    simp only [stage, stageEntry]
    split_ifs with hstart
    · exact .inl .refl
    · exact doStart_ends hf (by simpa using hstart)
    · exact .inl .refl
  | reset =>
    simp only [stage, stageReset]
    split_ifs
    · exact doReset_ends hf (hs (by decide))
    · exact .inl .refl
  | bonding =>
    simp only [stage, stageBonding]
    split_ifs with _ hp
    · exact .inl .refl
    · exact .inl .refl
    · exact doBonding_ends hf (hs (by decide)) (by simpa using hp)
    · exact .inl .refl
  | connected =>
    simp only [stage, stageConnected]
    split_ifs <;> dsimp only
    · refine attempt_ends hf .nil (by simp) fun h => .inl (.head .connected (.single ?_))
      exact .quiet h (by simp [Quiet])
    · exact .inl (.single .connected)
    · refine attempt_ends hf .nil (by simp) fun h₁ => ?_
      refine attempt_ends hf h₁ (by simp) fun h₂ => .inl (.head .connected (.single ?_))
      exact .quiet h₂ (by simp [Quiet])
    · exact .inl .refl
  | disconnected =>
    simp only [stage, stageDisconnected]
    split_ifs with _ h₁ h₂ <;> dsimp only
    · refine Ends.of_note (e := .disconnected) rfl (finishBondingEntry_ends hf .nil ?_)
      exact fun w log h => .head .disconnected (.single (.endBondingWait (hs (by decide)) h₁ h))
    · refine Ends.of_note (e := .disconnected) rfl (startResetFeedback_ends hf .nil ?_)
      exact fun w log h => .head .disconnected (.single (.endResetWait (hs (by decide)) h₂ h))
    · refine Ends.of_note (e := .disconnected) rfl (attempt_ends hf .nil (by simp) fun h => ?_)
      exact .inl (.head .disconnected (.single (.quiet h (by simp [Quiet]))))
    · exact .inl (.single .disconnected)
    · exact .inl (.single .disconnected)
    · exact .inl .refl
  | pairingComplete =>
    simp only [stage, stagePairingComplete]
    split_ifs with hcond
    · exact doCompleteToNormal_ends hf (hs (by decide)) hcond.2.2
    · exact .inl .refl
  | securityChanged =>
    simp only [stage, stageSecurityChanged]
    split_ifs with hcond
    · exact doCompleteToNormal_ends hf (hs (by decide)) hcond.2.2.2
    · exact .inl .refl
  | start =>
    simp only [stage, stageStart]
    split_ifs with hcond
    · exact doStart_ends hf (by simpa using hcond.2)
    · exact .inl .refl

/-- After a failure the works do nothing. -/
theorem blinkHandler_fatal (hf : c.fatal = true) :
    { c with blink.pending := false }.blinkHandler exec = { c with blink.pending := false } :=
  if_pos hf

theorem feedbackHandler_fatal (hf : c.fatal = true) :
    { c with feedback.pending := false }.feedbackHandler exec =
      { c with feedback.pending := false } :=
  if_pos hf

theorem blinkHandler_ends (hf : c.fatal = false) :
    Ends c.log (Moves (.work .blink) c) ({ c with blink.pending := false }.blinkHandler exec) := by
  unfold blinkHandler
  split_ifs with h₁ hg hr hp hb
  · exact Bool.noConfusion (hf.symm.trans h₁)
  · exact .inl (.single (.blinkLapse (.inl hg)))
  · exact .inl (.single (.blinkLapse (.inr (by rw [if_pos hr]; exact hp))))
  · refine ledSetActive_ends hf .nil fun w log h => ?_
    dsimp only
    split
    · refine attempt_ends hf h (by simp) fun h' => .inl (.single ?_)
      exact .rapidToggle true (not_not.1 hg) hr (not_not.1 hp) h'
    · exact .inl (.single (.rapidToggle false (not_not.1 hg) hr (not_not.1 hp) h))
  · refine ledSetActive_ends hf .nil fun w log h => ?_
    refine attempt_ends hf h (by simp) fun h' => .inl (.single ?_)
    exact .slowToggle (not_not.1 hg) (by simpa using hr) hb h'
  · exact .inl (.single (.blinkLapse (.inr (by rw [if_neg hr]; exact eq_false_of_ne_true hb))))

/-- The waiters are signalled only where the entry of BONDING has not failed. -/
theorem feedbackHandler_ends (hf : c.fatal = false) :
    Ends c.log (Moves (.work .feedback) c)
      ({ c with feedback.pending := false }.feedbackHandler exec) := by
  have hentry : Ends (.expiry :: c.log)
      (fun c' => ∃ w log, Calls (.expiry :: c.log) entryOps log ∧
        c' = { c with feedback.pending := false, blink.pending := false }.entered w log)
      (finishBondingEntry exec (note
        { c with feedback.pending := false, blink.pending := false } .expiry)) :=
    finishBondingEntry_ends hf .nil fun w log h => ⟨w, log, h, rfl⟩
  unfold feedbackHandler
  dsimp only
  split_ifs with h₁ hg hp hfatal
  · exact Bool.noConfusion (hf.symm.trans h₁)
  · exact .inl (.single (.feedbackLapse (.inl hg)))
  · exact .inl (.single (.feedbackLapse (.inr hp)))
  · rcases hentry with ⟨w, log, -, heq⟩ | ⟨-, hcrash⟩
    · rw [heq] at hfatal
      exact Bool.noConfusion (hf.symm.trans hfatal)
    · exact .inr ⟨hfatal, hcrash.of_cons rfl⟩
  · rcases hentry with ⟨w, log, hl, heq⟩ | ⟨hfatal', -⟩
    · rw [heq]
      exact .inl (.single (.expire (not_not.1 hg) (not_not.1 hp) hl))
    · exact absurd hfatal' hfatal

theorem blinkHandler_moves
    (hf : ({ c with blink.pending := false }.blinkHandler exec).fatal = false) :
    c.fatal = false ∧
      Moves (.work .blink) c ({ c with blink.pending := false }.blinkHandler exec) := by
  by_cases hc : c.fatal = true
  · rw [blinkHandler_fatal hc] at hf
    exact Bool.noConfusion (hc.symm.trans hf)
  · replace hc := eq_false_of_ne_true hc
    exact ⟨hc, (blinkHandler_ends hc).of_live hf⟩

theorem feedbackHandler_moves
    (hf : ({ c with feedback.pending := false }.feedbackHandler exec).fatal = false) :
    c.fatal = false ∧
      Moves (.work .feedback) c ({ c with feedback.pending := false }.feedbackHandler exec) := by
  by_cases hc : c.fatal = true
  · rw [feedbackHandler_fatal hc] at hf
    exact Bool.noConfusion (hc.symm.trans hf)
  · replace hc := eq_false_of_ne_true hc
    exact ⟨hc, (feedbackHandler_ends hc).of_live hf⟩

end Ends

end Ctl

/-! ### Runs -/

namespace Sys

section Runs

variable {W : Type*} {exec : Exec W} {arrive : Input → W → W} {I : Ctl W → Prop} {s s' : Sys W}

/-- After a failure no pass begins, and no step calls an operation. -/
theorem next_fatal {a : Action} (hf : s.ctl.fatal = true) (hw : s.work = [])
    (hnext : s.next exec arrive a = some s') :
    s'.ctl.fatal = true ∧ s'.work = [] ∧ s'.ctl.log = s.ctl.log := by
  cases a with
  | input i =>
    obtain rfl := Option.some.inj hnext
    exact ⟨(receive_fatal _ i).trans hf, hw, by cases i <;> rfl⟩
  | begin => simp [Sys.next, hf] at hnext
  | stage => simp [Sys.next, hw] at hnext
  | blink =>
    simp only [Sys.next, Ctl.blinkHandler_fatal hf] at hnext
    split_ifs at hnext
    obtain rfl := Option.some.inj hnext
    exact ⟨hf, hw, rfl⟩
  | feedback =>
    simp only [Sys.next, Ctl.feedbackHandler_fatal hf] at hnext
    split_ifs at hnext
    obtain rfl := Option.some.inj hnext
    exact ⟨hf, hw, rfl⟩

/-- The controller has `I`, or it crashed when it had `I`. -/
inductive Kept (I : Ctl W → Prop) (s : Sys W) : Prop
  | live (hf : s.ctl.fatal = false) (hi : I s.ctl)
      (hw : s.work = [] ∨ s.work = Stage.all ∨ s.ctl.started = true)
  | dead (hf : s.ctl.fatal = true) (hw : s.work = []) (c : Ctl W) (hc : c.fatal = false) (hi : I c)
      (hlog : Crashed c.log s.ctl.log)

theorem Kept.of_fatal (h : s.Kept I) (hf : s.ctl.fatal = false) : I s.ctl := by
  cases h with
  | live _ hi _ => exact hi
  | dead hf' _ _ _ _ _ => exact Bool.noConfusion (hf.symm.trans hf')

theorem Kept.of_work (h : s.Kept I) {st : Stage} {sts : List Stage} (hwork : s.work = st :: sts) :
    s.ctl.fatal = false ∧ (st ≠ .entry → s.ctl.started = true) := by
  cases h with
  | dead _ hw _ _ _ _ => simp [hwork] at hw
  | live hf _ hw =>
    refine ⟨hf, fun hst => ?_⟩
    rcases hw with hw | hw | hw
    · simp [hwork] at hw
    · rw [hwork] at hw
      exact absurd (List.cons.inj hw).1 hst
    · exact hw

theorem started_of_stage {c : Ctl W} {ev : Finset Event} (hr : (c.stage exec ev .entry).2 = true) :
    (c.stage exec ev .entry).1.started = true := by
  simp only [Ctl.stage, Ctl.stageEntry] at hr ⊢
  split_ifs at hr ⊢ with h
  exact h

theorem kept_of_ends (hmove : ∀ k c c', c.fatal = false → Ctl.Move k c c' → I c → I c')
    {k : Ctl.Cause} {c : Ctl W} (hf : c.fatal = false) (hi : I c)
    (he : Ctl.Ends c.log (Ctl.Moves k c) s.ctl)
    (hdead : s.ctl.fatal = true → s.work = [])
    (hw : s.ctl.fatal = false → s.work = [] ∨ s.work = Stage.all ∨ s.ctl.started = true) :
    s.Kept I := by
  rcases he with hm | ⟨hf', hlog⟩
  · have hf' : s.ctl.fatal = false := (Ctl.Moves.flags hm).1.trans hf
    exact .live hf' (hm.keep (hmove k) hf hi) (hw hf')
  · exact .dead hf' (hdead hf') c hf hi hlog

/-- Every step keeps what the moves and the inputs keep; a crashed controller stays as it is. -/
theorem Kept.next (hreceive : ∀ c i, I c → I (c.receive arrive i))
    (hmove : ∀ k c c', c.fatal = false → Ctl.Move k c c' → I c → I c') {a : Action} (h : s.Kept I)
    (hnext : s.next exec arrive a = some s') : s'.Kept I := by
  cases h with
  | dead hf hw c hc hi hlog =>
    obtain ⟨hf', hw', hlog'⟩ := next_fatal hf hw hnext
    exact .dead hf' hw' c hc hi (hlog'.symm ▸ hlog)
  | live hf hi hw =>
    cases a with
    | input i =>
      obtain rfl := Option.some.inj hnext
      have hstarted : (s.ctl.receive arrive i).started = s.ctl.started := by cases i <;> rfl
      exact .live ((receive_fatal _ i).trans hf) (hreceive _ i hi) (by rwa [hstarted])
    | begin =>
      simp only [Sys.next] at hnext
      split_ifs at hnext
      obtain rfl := Option.some.inj hnext
      exact .live hf hi (.inr (.inl rfl))
    | stage =>
      simp only [Sys.next] at hnext
      cases hwork : s.work with
      | nil => simp only [hwork] at hnext; cases hnext
      | cons st sts =>
        simp only [hwork] at hnext
        obtain rfl := Option.some.inj hnext
        obtain ⟨-, hs⟩ := Kept.of_work (.live hf hi hw) hwork
        have hends : Ctl.Ends s.ctl.log (Ctl.Moves (.part st) s.ctl)
            (s.ctl.stage exec s.mask st).1 := Ctl.stage_ends hf s.mask hs
        refine kept_of_ends hmove hf hi hends (fun hf' => ?_) fun hf' => ?_
        · refine if_neg fun hr => ?_
          exact Bool.noConfusion ((stage_continues hf hr).symm.trans hf')
        · by_cases hr : (s.ctl.stage exec s.mask st).2 = true
          · by_cases hst : st = .entry
            · subst hst
              exact .inr (.inr (started_of_stage hr))
            · exact .inr (.inr ((Ctl.Moves.flags (hends.of_live hf')).2 (hs hst)))
          · exact .inl (if_neg hr)
    | blink =>
      simp only [Sys.next] at hnext
      split_ifs at hnext with hcond
      obtain rfl := Option.some.inj hnext
      exact kept_of_ends hmove hf hi (Ctl.blinkHandler_ends hf) (fun _ => hcond.1)
        fun _ => .inl hcond.1
    | feedback =>
      simp only [Sys.next] at hnext
      split_ifs at hnext with hcond
      obtain rfl := Option.some.inj hnext
      exact kept_of_ends hmove hf hi (Ctl.feedbackHandler_ends hf) (fun _ => hcond.1)
        fun _ => .inl hcond.1

theorem Kept.grows {a : Action} (h : s.Kept I) (hnext : s.next exec arrive a = some s') :
    s.ctl.log <:+ s'.ctl.log := by
  cases h with
  | dead hf hw _ _ _ _ =>
    rw [(next_fatal hf hw hnext).2.2]
  | live hf hi hw =>
    have hstep : s'.Kept fun c => s.ctl.log <:+ c.log := by
      refine Kept.next ?_ ?_ (.live hf (List.suffix_refl _) hw) hnext
      · intro c i hc
        cases i <;> exact hc
      · intro k c c' _ hm hc
        obtain ⟨es, heq, -⟩ := hm.log
        exact hc.trans (heq ▸ List.suffix_append es c.log)
    cases hstep with
    | live _ hgrows _ => exact hgrows
    | dead _ _ c _ hgrows hlog =>
      obtain ⟨es, o, r, r₁, r₂, heq, -⟩ := hlog
      rw [heq]
      exact hgrows.trans ⟨_ :: _ :: _ :: es, rfl⟩

theorem kept_init (hinit : ∀ w, I (Ctl.init w)) {start : W → Prop}
    (h : (machine exec arrive start).init s) : s.Kept I := by
  obtain ⟨w, -, rfl⟩ := h
  exact .live rfl (hinit w) (.inl rfl)

/-- An invariant of the moves in every state reached. -/
theorem kept_of_reachable {start : W → Prop} (h : (machine exec arrive start).Reachable s)
    (hinit : ∀ w, I (Ctl.init w)) (hreceive : ∀ c i, I c → I (c.receive arrive i))
    (hmove : ∀ k c c', c.fatal = false → Ctl.Move k c c' → I c → I c') : s.Kept I :=
  h.invariant (fun _ hs => kept_init hinit hs) fun _ _ _ hs hnext => hs.next hreceive hmove hnext

end Runs

end Sys

end Pairing

end LeAudioReceiver
