import LeAudioReceiver.AudioPath.Basic
import LeAudioReceiver.Machine.Basic

/-!
# The gate and the streams that have started

The callbacks of `src/bt_bap.c` as whole calls, one after the other: what they do to the lifecycle
gate of `src/stream_lifecycle.c` and to the flags of the session that guard a release.  Beside the
state stands which slots have had a started callback since they were last configured, stopped or
disabled.

A close of the gate leaves the flags `sink_started` as they are.  So a flag can be older than the
last stop of its stream, and the gate can open on it.

* `Starts.good_iff` : along a sequence of callbacks an open gate means that every occupied slot has
  started since, **exactly if no Config comes while the gate is open and no started callback
  completes the set with a flag of a stream that was stopped**;
* `Starts.stale_open` : one channel of a pair starts again, and the gate opens on the flag of the
  other one.
-/

namespace LeAudioReceiver

namespace AudioPath

namespace Gate

variable {g : Gate}

theorem shouldOpen_iff :
    g.shouldOpen = true ↔
      (∃ i, g.occupied i = true) ∧ ∀ i, g.occupied i = true → g.started i = true := by
  have hfin : List.finRange maxSinkAse = [0, 1] := rfl
  have hex : (∃ i, g.occupied i = true) ↔ g.occupied 0 = true ∨ g.occupied 1 = true :=
    Fin.exists_fin_two
  have hall : (∀ i, g.occupied i = true → g.started i = true) ↔
      (g.occupied 0 = true → g.started 0 = true) ∧ (g.occupied 1 = true → g.started 1 = true) :=
    Fin.forall_fin_two
  rw [hex, hall, shouldOpen, totalAse, startedAse, hfin]
  simp only [List.countP_cons, List.countP_nil]
  cases g.occupied 0 <;> cases g.occupied 1 <;> cases g.started 0 <;> cases g.started 1 <;> decide

end Gate

/-- The callbacks, and the forced close of the shell. -/
inductive Event where
  /-- `lc3_config`, once it is accepted. -/
  | config (idx : Fin maxSinkAse)
  /-- `stream_started`, and whether `audio_sink_stream_open` would succeed. -/
  | started (idx : Fin maxSinkAse) (sinkOpens : Bool)
  /-- `lc3_stop`, `stream_stopped`. -/
  | stop (idx : Fin maxSinkAse)
  /-- `lc3_disable`. -/
  | disable (idx : Fin maxSinkAse)
  /-- `stream_disabled_cb`. -/
  | disabled (idx : Fin maxSinkAse)
  | release (idx : Fin maxSinkAse)
  | disconnected
  | forced
  deriving DecidableEq, Repr

/-- The gate, the session, and the slots with a started callback since they were last configured,
stopped or disabled. -/
structure Starts where
  gate : Gate
  session : Session
  fresh : Fin maxSinkAse → Bool

namespace Starts

variable (s : Starts)

/-- At boot. -/
def init : Starts := ⟨Gate.reset, Session.init, fun _ => false⟩

/-- `teardown_close_path`. -/
def close (forced : Bool) : Starts :=
  { s with
    gate := (if forced then s.gate.forceClose else s.gate.audioPathClose).1
    session := s.session.rxClose }

/-- `stream_started`. -/
def onStarted (idx : Fin maxSinkAse) (sinkOpens : Bool) : Starts :=
  let g := s.gate.sinkStarted idx
  let fresh := Function.update s.fresh idx true
  if !g.2 then { s with gate := g.1, fresh := fresh }
  -- the gate is rolled back
  else if !sinkOpens then { s with gate := g.1.audioPathClose.1, fresh := fresh }
  else { gate := g.1, session := s.session.rxOpen, fresh := fresh }

/-- A callback. -/
def step : Event → Starts
  | .config idx =>
    { gate := s.gate.sinkConfigured idx
      session := s.session.config idx
      fresh := Function.update s.fresh idx false }
  | .started idx sinkOpens => s.onStarted idx sinkOpens
  | .stop idx | .disabled idx =>
    { s.close false with fresh := Function.update s.fresh idx false }
  | .disable _ => s
  | .release idx =>
    -- a duplicate release does nothing
    if !s.session.isConfigured idx then s
    else
      let s := s.close false
      { s with gate := s.gate.sinkRelease idx, session := s.session.release idx }
  | .disconnected =>
    { s.close false with gate := Gate.reset, session := s.session.rxClose.resetAll }
  | .forced => s.close true

/-- While the gate is open, every occupied slot has started since it was last configured, stopped
or disabled. -/
def Good : Prop := s.gate.isOpen = true → ∀ i, s.gate.occupied i = true → s.fresh i = true

/-- No Config comes while the gate is open, and a started callback that could open the gate finds
no flag of another slot that is older than the last stop of its stream. -/
def Ok : Event → Prop
  | .config _ => s.gate.isOpen = false
  | .started idx true =>
    s.gate.forceClosed = false → s.gate.isOpen = false →
      ∀ i, i ≠ idx → s.gate.occupied i = true → s.gate.started i = true → s.fresh i = true
  | _ => True

variable {s}

theorem good_of_closed (h : s.gate.isOpen = false) : s.Good := by
  intro hopen
  rw [h] at hopen
  cases hopen

@[simp]
theorem close_isOpen (forced : Bool) : (s.close forced).gate.isOpen = false := by
  cases forced <;> rfl

/-- A Config is fine exactly while the gate is closed. -/
theorem good_config_iff (idx : Fin maxSinkAse) :
    (s.step (.config idx)).Good ↔ s.gate.isOpen = false := by
  have hocc : (s.step (.config idx)).gate.occupied idx = true := by
    simp [step, Gate.sinkConfigured, setAt]
  have hfresh : (s.step (.config idx)).fresh idx = false := Function.update_self ..
  constructor
  · intro h
    cases hopen : s.gate.isOpen with
    | false => rfl
    | true => exact absurd (h hopen idx hocc) (by rw [hfresh]; simp)
  · intro h
    exact good_of_closed h

/-- The gate after a started callback, which sets the flag unless the gate is latched. -/
theorem sinkStarted_cases (idx : Fin maxSinkAse) :
    (s.gate.sinkStarted idx = (s.gate, false) ∧ s.gate.forceClosed = true) ∨
      s.gate.forceClosed = false ∧
        (s.gate.sinkStarted idx).1.occupied = s.gate.occupied ∧
        ((s.gate.sinkStarted idx).2 = true ↔
          s.gate.isOpen = false ∧ (∃ i, s.gate.occupied i = true) ∧
            ∀ i, i ≠ idx → s.gate.occupied i = true → s.gate.started i = true) := by
  have hidx : ¬ maxSinkAse ≤ (idx : ℕ) := by omega
  cases hforced : s.gate.forceClosed with
  | true => exact .inl ⟨by simp [Gate.sinkStarted, hidx, hforced], rfl⟩
  | false =>
    refine .inr ⟨rfl, ?_, ?_⟩
    · simp only [Gate.sinkStarted, if_neg hidx, hforced]
      split_ifs <;> rfl
    · have hset : setAt s.gate.started idx true = Function.update s.gate.started idx true := by
        simp [setAt]
      have hflags : (∀ i, s.gate.occupied i = true → setAt s.gate.started idx true i = true) ↔
          ∀ i, i ≠ idx → s.gate.occupied i = true → s.gate.started i = true := by
        rw [hset]
        refine forall_congr' fun i => ?_
        by_cases hi : i = idx
        · subst hi
          simp
        · simp [hi]
      simp only [Gate.sinkStarted, if_neg hidx, hforced, Bool.false_eq_true, if_false,
        Bool.and_eq_true, Bool.not_eq_true', Gate.shouldOpen_iff, hflags]
      exact ⟨fun h => ⟨h.2, h.1⟩, fun h => ⟨h.2, h.1⟩⟩

/-- A started callback that does not open the gate keeps what holds of an open one. -/
theorem good_started_of_not_edge (h : s.Good) (idx : Fin maxSinkAse) (sinkOpens : Bool)
    (hedge : (s.gate.sinkStarted idx).2 = false) : (s.step (.started idx sinkOpens)).Good := by
  have hstep : s.step (.started idx sinkOpens) =
      { s with gate := (s.gate.sinkStarted idx).1, fresh := Function.update s.fresh idx true } := by
    simp [step, onStarted, hedge]
  have hocc : (s.gate.sinkStarted idx).1.occupied = s.gate.occupied := by
    rcases s.sinkStarted_cases idx with ⟨heq, -⟩ | ⟨-, hocc, -⟩
    · rw [heq]
    · exact hocc
  rw [hstep]
  intro hopen i hi
  have hopen' : s.gate.isOpen = true := by
    have := s.gate.sinkStarted_isOpen idx
    rw [hedge, Bool.or_false] at this
    exact this ▸ hopen
  by_cases hidx : i = idx
  · subst hidx
    exact Function.update_self ..
  · show Function.update s.fresh idx true i = true
    rw [Function.update_of_ne hidx]
    exact h hopen' i (hocc ▸ hi)

/-- A started callback is fine exactly if it does not open the gate on an old flag. -/
theorem good_started_iff (h : s.Good) (idx : Fin maxSinkAse) (sinkOpens : Bool) :
    (s.step (.started idx sinkOpens)).Good ↔ s.Ok (.started idx sinkOpens) := by
  -- without the edge nothing opens, and with it the flags of the other slots have to be fresh
  cases hedge : (s.gate.sinkStarted idx).2 with
  | false =>
    refine iff_of_true (good_started_of_not_edge h idx sinkOpens hedge) ?_
    cases sinkOpens with
    | false => exact trivial
    | true =>
      intro hforced hclosed i hne hocc hstarted
      rcases s.sinkStarted_cases idx with ⟨-, hlatched⟩ | ⟨-, -, hiff⟩
      · rw [hforced] at hlatched
        cases hlatched
      · -- with two slots the flag of the other one would have completed the set
        refine absurd (hiff.2 ⟨hclosed, ⟨i, hocc⟩, fun j hj _ => ?_⟩) (by rw [hedge]; simp)
        have hij : j = i := by
          have := i.isLt
          have := j.isLt
          have := idx.isLt
          have hne' := Fin.val_ne_of_ne hne
          have hj' := Fin.val_ne_of_ne hj
          have : maxSinkAse = 2 := rfl
          exact Fin.ext (by omega)
        exact hij ▸ hstarted
  | true =>
    cases sinkOpens with
    | false =>
      have hgate : (s.step (.started idx false)).gate.isOpen = false := by
        simp [step, onStarted, hedge, Gate.audioPathClose]
      exact iff_of_true (good_of_closed hgate) trivial
    | true =>
      have hstep : s.step (.started idx true) =
          { gate := (s.gate.sinkStarted idx).1
            session := s.session.rxOpen
            fresh := Function.update s.fresh idx true } := by
        simp [step, onStarted, hedge]
      have hopen : (s.gate.sinkStarted idx).1.isOpen = true := by
        rw [s.gate.sinkStarted_isOpen idx, hedge, Bool.or_true]
      rcases s.sinkStarted_cases idx with ⟨heq, -⟩ | ⟨hforced, hocc, hiff⟩
      · rw [heq] at hedge
        cases hedge
      obtain ⟨hclosed, -, hflags⟩ := hiff.1 hedge
      rw [hstep]
      constructor
      · intro hgood _ _ i hne hi _
        have hi' : (s.gate.sinkStarted idx).1.occupied i = true := hocc ▸ hi
        have hfresh : Function.update s.fresh idx true i = true := hgood hopen i hi'
        rwa [Function.update_of_ne hne] at hfresh
      · intro hok _ i hi
        have hi' : s.gate.occupied i = true := hocc ▸ hi
        by_cases hidx : i = idx
        · subst hidx
          exact Function.update_self ..
        · show Function.update s.fresh idx true i = true
          rw [Function.update_of_ne hidx]
          exact hok hforced hclosed i hidx hi' (hflags i hidx hi')

/-- What a callback needs, exactly, to keep what holds of an open gate. -/
theorem good_step_iff (h : s.Good) (e : Event) : (s.step e).Good ↔ s.Ok e := by
  cases e with
  | config idx => exact good_config_iff idx
  | started idx sinkOpens => exact good_started_iff h idx sinkOpens
  | stop idx | disabled idx => exact iff_of_true (good_of_closed (close_isOpen false)) trivial
  | disable idx => exact iff_of_true h trivial
  | release idx =>
    refine iff_of_true ?_ trivial
    cases hconf : s.session.isConfigured idx with
    | false => simpa [step, hconf] using h
    | true => exact good_of_closed (by simp [step, hconf])
  | disconnected => exact iff_of_true (good_of_closed rfl) trivial
  | forced => exact iff_of_true (good_of_closed (close_isOpen true)) trivial

/-- In every state of a sequence of callbacks in which the gate is open, every occupied slot has
started since it was last configured, stopped or disabled: exactly if no Config comes while the
gate is open and no started callback finds an old flag. -/
theorem good_iff (events : List Event) :
    (∀ events', events' <+: events → (events'.foldl step init).Good) ↔
      ∀ events' e, events' ++ [e] <+: events → (events'.foldl step init).Ok e := by
  refine Machine.forall_prefix_iff ?_ ?_ events
  · intro s e h
    exact good_step_iff h e
  · exact good_of_closed rfl

/-- Both channels of a pair start and stop, and one of them starts again. -/
theorem stale_open :
    let s := [Event.config 0, .config 1, .started 0 true, .started 1 true, .stop 1, .stop 0,
      .started 0 true].foldl step init
    s.gate.isOpen = true ∧ s.gate.occupied 1 = true ∧ s.fresh 1 = false := by
  decide

end Starts

end AudioPath

end LeAudioReceiver
