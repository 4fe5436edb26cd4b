import LeAudioReceiver.AudioPath.SinkSafety
import LeAudioReceiver.Drift.System

/-!
# Measurements across a stop

`audio_sink_stop` resets the drift controller before it bumps the generation that makes queued
measurements stale, and the work handler tests the generation before it tells the controller.  A
measurement of the old stream can come in between.

* `ClockLoop.Inv` : what the controller has been told since its reset, and what is still on its
  way to it;
* `ClockLoop.isolated` : **in every run in which no old measurement comes in between, a stop leaves
  the filter reset until the next measurement is captured**;
* `ClockLoop.old_measurement` : the run in which one does.
-/

namespace LeAudioReceiver

namespace Timing

namespace State

variable {s t : State} {a : Action}

/-! ### What a step of the timing can do -/

theorem mem_accepted {c : Capture} (hc : c ∈ s.accepted) :
    ∃ p ∈ s.published, p.accepted = true ∧ p.capture = c := by
  obtain ⟨p, hp, rfl⟩ := List.mem_map.1 hc
  exact ⟨p, (List.mem_filter.1 hp).1, (List.mem_filter.1 hp).2, rfl⟩

theorem mem_accepted_publish {c : Capture} {d : DiagPayload}
    (hc : c ∈ (s.diagPublish d).accepted) :
    c ∈ s.accepted ∨ c = ⟨d, s.resets⟩ ∧ s.diagFifo.count < diagFifoCapacity := by
  rcases diagPublish_cases s d with ⟨hcount, heq⟩ | ⟨-, heq⟩
  · rw [heq, accepted, stored_append] at hc
    rcases List.mem_append.1 hc with hold | hnew
    · exact .inl hold
    · exact .inr ⟨List.mem_singleton.1 hnew, hcount⟩
  · rw [heq, accepted, stored_append] at hc
    exact .inl (by simpa [accepted] using hc)

theorem accepted_subset_publish (s : State) (d : DiagPayload) :
    s.accepted ⊆ (s.diagPublish d).accepted := by
  intro c hc
  rcases diagPublish_cases s d with ⟨-, heq⟩ | ⟨-, heq⟩
  all_goals
    rw [heq, accepted, stored_append]
    exact List.mem_append_left _ hc

/-- An interrupt accepts what it captures in the current session; and a measurement only when it
measures. -/
theorem mem_accepted_isr {c : Capture} {ccValue now : UInt64} {cap : UInt32} {ret : ℤ}
    (hc : c ∈ (s.grtcCcHandler ccValue now cap ret).accepted) :
    c ∈ s.accepted ∨
      c.session = s.resets ∧ (c.measured = true → s.measures ccValue ret = true) := by
  rcases isr_cases s ccValue now cap ret with
    heq | ⟨-, heq⟩ | ⟨hactive, hret, nextCmp, heq | ⟨hlast, heq⟩⟩
  · rw [heq] at hc
    exact .inl hc
  · rw [heq] at hc
    rcases mem_accepted_publish hc with hold | ⟨rfl, -⟩
    · exact .inl hold
    · exact .inr ⟨rfl, fun hm => absurd hm (by simp [errorPayload, DiagPayload.measured])⟩
  · rw [heq] at hc
    exact .inl hc
  · rw [heq] at hc
    rcases mem_accepted_publish hc with hold | ⟨rfl, hcount⟩
    · exact .inl hold
    · refine .inr ⟨rfl, fun hm => ?_⟩
      have helapsed : (ccValue - s.lastCompareUs).toUInt32 ≠ 0 := by
        simpa [payload, DiagPayload.measured] using hm
      simp only [measures, Bool.and_eq_true, decide_eq_true_eq]
      exact ⟨⟨⟨⟨hactive, hret⟩, hlast⟩, hcount⟩, helapsed⟩

theorem accepted_subset_isr (s : State) (ccValue now : UInt64) (cap : UInt32) (ret : ℤ) :
    s.accepted ⊆ (s.grtcCcHandler ccValue now cap ret).accepted := by
  intro c hc
  rcases isr_cases s ccValue now cap ret with heq | ⟨-, heq⟩ | ⟨-, -, nextCmp, heq | ⟨-, heq⟩⟩
  · rw [heq]
    exact hc
  · rw [heq]
    exact accepted_subset_publish { s with active := false } _ hc
  · rw [heq]
    exact hc
  · rw [heq]
    exact accepted_subset_publish { s with compare := nextCmp, diagSeq := s.diagSeq + 1 } _ hc

/-- The handler counts no reset, and what it holds as current has passed its test. -/
theorem work_unsent (hs : s.diagWorkHandler = some t) :
    t.resets = s.resets ∧ ∀ c ∈ t.workPc.unsent,
      s.workPc = .popped c ∧ c.gen = s.generation ∧ c.measured = true := by
  have hnone : ∀ pc : WorkPc, pc.unsent = [] → t.workPc = pc →
      ∀ c ∈ t.workPc.unsent, s.workPc = .popped c ∧ c.gen = s.generation ∧ c.measured = true := by
    intro pc hpc heq c hc
    rw [heq, hpc] at hc
    cases hc
  cases hpc : s.workPc with
  | idle =>
    simp only [diagWorkHandler, hpc] at hs
    split_ifs at hs
    obtain rfl := Option.some.inj hs
    exact ⟨rfl, hpc ▸ hnone .loop rfl rfl⟩
  | loop =>
    simp only [diagWorkHandler, hpc] at hs
    split_ifs at hs <;> obtain rfl := Option.some.inj hs
    · exact ⟨rfl, hpc ▸ hnone .report rfl rfl⟩
    · exact ⟨rfl, hpc ▸ hnone (.popped s.diagFifo.oldest) rfl rfl⟩
  | popped d =>
    simp only [diagWorkHandler, hpc] at hs
    obtain rfl := Option.some.inj hs
    refine ⟨rfl, fun c hc => ?_⟩
    by_cases hgen : d.gen = s.generation
    · simp only [State.check, if_pos hgen, WorkPc.unsent] at hc
      split_ifs at hc with hm
      · obtain rfl := List.mem_singleton.1 hc
        exact ⟨rfl, hgen, hm⟩
      · cases hc
    · simp only [State.check, if_neg hgen, WorkPc.unsent] at hc
      cases hc
  | current d =>
    simp only [diagWorkHandler, hpc] at hs
    obtain rfl := Option.some.inj hs
    exact ⟨rfl, hpc ▸ hnone .loop rfl rfl⟩
  | report =>
    simp only [diagWorkHandler, hpc] at hs
    split_ifs at hs <;> obtain rfl := Option.some.inj hs
    · exact ⟨rfl, hpc ▸ hnone .clear rfl rfl⟩
    · exact ⟨rfl, hpc ▸ hnone .idle rfl rfl⟩
  | clear =>
    simp only [diagWorkHandler, hpc] at hs
    obtain rfl := Option.some.inj hs
    exact ⟨rfl, hpc ▸ hnone .idle rfl rfl⟩

theorem other_frame (hs : s.next a = some t) (hreset : a ≠ .reset) (hwork : a ≠ .work) :
    t.resets = s.resets ∧ t.workPc = s.workPc := by
  have hpublish : ∀ (u : State) (d : DiagPayload),
      (u.diagPublish d).resets = u.resets ∧ (u.diagPublish d).workPc = u.workPc := by
    intro u d
    rcases diagPublish_cases u d with ⟨-, heq⟩ | ⟨-, heq⟩
    all_goals
      rw [heq]
      exact ⟨rfl, rfl⟩
  cases a with
  | isr ccValue now cap ret =>
    obtain rfl := Option.some.inj hs
    rcases isr_cases s ccValue now cap ret with heq | ⟨-, heq⟩ | ⟨-, -, nextCmp, heq | ⟨-, heq⟩⟩
    · rw [heq]
      exact ⟨rfl, rfl⟩
    · rw [heq]
      exact hpublish { s with active := false } _
    · rw [heq]
      exact ⟨rfl, rfl⟩
    · rw [heq]
      exact hpublish { s with compare := nextCmp, diagSeq := s.diagSeq + 1 } _
  | work => exact absurd rfl hwork
  | reset => exact absurd rfl hreset
  | sduRefUpdate sduTsUs pdUs now ret =>
    simp only [next] at hs
    split_ifs at hs
    obtain rfl := Option.some.inj hs
    rcases sduRefUpdate_cases s sduTsUs pdUs now ret with heq | ⟨-, cmp, heq⟩
    all_goals
      rw [heq]
      exact ⟨rfl, rfl⟩
  | ctlRun =>
    simp only [next, State.ctlRun] at hs
    split at hs
    · cases hs
    all_goals
      obtain rfl := Option.some.inj hs
      exact ⟨rfl, rfl⟩

/-- What a step accepts is of the current session. -/
theorem mem_accepted_next (hs : s.next a = some t) {c : Capture} (hc : c ∈ t.accepted) :
    c ∈ s.accepted ∨ c.session = s.resets ∧ (c.measured = true → a.measures s = true) := by
  have hsame : t.published = s.published → c ∈ s.accepted := by
    intro heq
    rwa [accepted, heq] at hc
  cases a with
  | isr ccValue now cap ret =>
    obtain rfl := Option.some.inj hs
    exact mem_accepted_isr hc
  | work | sduRefUpdate sduTsUs pdUs now ret | reset | ctlRun =>
    exact .inl (hsame (published_frame hs (by simp)))

theorem accepted_subset_next (hs : s.next a = some t) : s.accepted ⊆ t.accepted := by
  intro c hc
  have hsame : t.published = s.published → c ∈ t.accepted := by
    intro heq
    rwa [accepted, heq]
  cases a with
  | isr ccValue now cap ret =>
    obtain rfl := Option.some.inj hs
    exact accepted_subset_isr s ccValue now cap ret hc
  | work | sduRefUpdate sduTsUs pdUs now ret | reset | ctlRun =>
    exact hsame (published_frame hs (by simp))

/-! ### What the handler holds -/

theorem QueueInv.of_untested (h : QueueInv s) {c : Capture} (hc : c ∈ s.workPc.untested) :
    c ∈ s.accepted := by
  rw [h.order, h.tested]
  exact List.mem_append_left _ (List.mem_append_right _ hc)

/-- What it has found current and not yet handed on are accepted measurements. -/
theorem QueueInv.of_unsent (h : QueueInv s) {c : Capture} (hc : c ∈ s.workPc.unsent) :
    c ∈ s.accepted ∧ c.measured = true := by
  have hmem : c ∈ measurements s.checked := by
    rw [h.handed]
    exact List.mem_append_right _ hc
  obtain ⟨p, hp, rfl⟩ := List.mem_map.1 hmem
  obtain ⟨hchecked, hcurrent⟩ := List.mem_filter.1 hp
  rw [Bool.and_eq_true] at hcurrent
  refine ⟨?_, hcurrent.2⟩
  rw [h.order, h.tested]
  exact List.mem_append_left _ (List.mem_append_left _ (List.mem_map_of_mem hchecked))

/-- Fewer than `2 ^ 32` resets later, a current generation is that of the current session. -/
theorem SessionInv.session_eq (h : SessionInv s) {c : Capture} (hc : c ∈ s.accepted)
    (hgen : c.gen = s.generation) (hrecent : s.resets < c.session + 2 ^ 32) :
    c.session = s.resets := by
  obtain ⟨p, hp, -, rfl⟩ := mem_accepted hc
  have hle := h.sessions p hp
  have heq : UInt32.ofNat p.capture.session = UInt32.ofNat s.resets := by
    rw [← h.gens p hp, hgen, h.generation]
  have hmod : p.capture.session % 2 ^ 32 = s.resets % 2 ^ 32 := by
    simpa using congrArg UInt32.toNat heq
  omega

end State

end Timing

namespace Drift

open AudioPath Timing

namespace ClockLoop

variable {ι : Type*} [DecidableEq ι] {cfg : Config} {s s' : ClockLoop ι} {t : SinkSys ι}
  {b : SinkAction ι} {a : Action ι}

/-! ### What a step at the sink can do -/

/-- An owner behind its drain stays one until it finalizes. -/
theorem drained_of_step {u t : SinkSys ι} (h : SinkSys.Step u b t) {j : ι}
    (hj : (u.pc j).drained = true) :
    (t.pc j).drained = true ∨ b = .run j ∧ u.pc j = .stop .finalize := by
  have hmove : ∀ {i : ι} {pc : ThreadPc}, (u.pc i).drained = false →
      (Function.update u.pc i pc j).drained = true := by
    intro i pc hi
    by_cases hij : j = i
    · subst hij
      rw [hj] at hi
      cases hi
    · simpa [hij] using hj
  cases h with
  | refuse | close | wait => exact .inl hj
  | enterPush i hpc | callStop i hpc | callOpen i hpc | exit i hpc | exitLast i hpc | own i hpc
  | join i hpc | beginReset i hpc | leave i hpc | leaveLast i hpc | openFail i hpc
  | openOk i hpc => exact .inl (hmove (by rw [hpc]; rfl))
  | endReset i hpc =>
    left
    by_cases hij : j = i
    · subst hij
      simp [SinkSys.goto, ThreadPc.drained]
    · simpa [SinkSys.goto, hij] using hj
  | finalize i hpc =>
    by_cases hij : j = i
    · subst hij
      exact .inr ⟨rfl, hpc⟩
    · left
      simpa [SinkSys.goto, SinkSys.broadcast, hij] using hj

theorem finalize_of_step {u t : SinkSys ι} (h : SinkSys.Step u b t) {j : ι}
    (hj : t.pc j = .stop .finalize) :
    u.pc j = .stop .finalize ∨ b = .run j ∧ u.pc j = .stop .reset := by
  have hmove : ∀ {i : ι} {pc : ThreadPc}, pc ≠ .stop .finalize →
      Function.update u.pc i pc j = .stop .finalize → u.pc j = .stop .finalize := by
    intro i pc hpc hupd
    by_cases hij : j = i
    · subst hij
      exact absurd (by simpa using hupd) hpc
    · simpa [hij] using hupd
  cases h with
  | refuse | close | wait => exact .inl hj
  | enterPush i hpc | callStop i hpc | callOpen i hpc | exit i hpc | exitLast i hpc | own i hpc
  | join i hpc | beginReset i hpc | leave i hpc | leaveLast i hpc | openFail i hpc
  | openOk i hpc | finalize i hpc => exact .inl (hmove (by simp) hj)
  | endReset i hpc =>
    by_cases hij : j = i
    · subst hij
      exact .inr ⟨rfl, hpc⟩
    · left
      simpa [SinkSys.goto, hij] using hj

/-! ### The invariant -/

/-- Every measurement accepted is older than the last bump. -/
def Unmeasured (s : ClockLoop ι) : Prop :=
  ∀ c ∈ s.timing.accepted, c.measured = true → c.session < s.timing.resets

/-- What the controller has been told since its reset is of the current session, and so is what
the handler is about to tell it; between the two resets there is neither. -/
structure Inv [Fintype ι] (s : ClockLoop ι) : Prop where
  sink : s.sink.Inv
  queue : s.timing.QueueInv
  session : s.timing.SessionInv
  owner : s.resetPc ≠ .none → ∃ i, (s.sink.pc i).drained = true
  finalizing : ∀ i, s.sink.pc i = .stop .finalize → s.resetPc = .done
  window : s.resetPc = .timing → s.received = [] ∧ s.timing.workPc.unsent = []
  held : ∀ c ∈ s.timing.workPc.unsent, c.session = s.timing.resets
  told : ∀ c ∈ s.received, c.session = s.timing.resets
  source : ∀ c ∈ s.received, c ∈ s.timing.accepted ∧ c.measured = true
  filter : s.received = [] → s.drift.freqFiltered = 0 ∧ s.drift.freqOnceReceived = false
  whole : s.received = [] → s.updated = false → s.drift = .reset
  updates : s.updated = true → s.resetPc = .none
  clean : s.quiet = true ∨ s.pastBump = true → s.Unmeasured

variable [Fintype ι]

omit [DecidableEq ι] in
theorem inv_start (configured : Bool) (timerNominalHz : UInt32) :
    Inv (start configured timerNominalHz : ClockLoop ι) where
  sink := SinkSys.inv_start configured
  queue := State.queueInv_init timerNominalHz
  session := State.sessionInv_init timerNominalHz
  owner h := absurd rfl h
  finalizing _ h := nomatch h
  window h := nomatch h
  held _ hc := absurd hc List.not_mem_nil
  told _ hc := absurd hc List.not_mem_nil
  source _ hc := absurd hc List.not_mem_nil
  filter _ := ⟨rfl, rfl⟩
  whole _ _ := rfl
  updates h := nomatch h
  clean _ _ hc := absurd hc List.not_mem_nil

omit [DecidableEq ι] [Fintype ι] in
theorem pastBump_iff : s.pastBump = true ↔ s.resetPc = .resetting ∨ s.resetPc = .done ∨
    s.resetPc = .none ∧ s.sink.sink.stopCallers ≠ 0 ∧ s.sink.sink.stopFinalizing = false := by
  cases hpc : s.resetPc <;> simp [pastBump, hpc]

omit [DecidableEq ι] in
theorem Inv.stopFinalizing (h : Inv s) (hpc : s.resetPc ≠ .none) :
    s.sink.sink.stopFinalizing = true := by
  obtain ⟨i, hi⟩ := h.owner hpc
  have hle := (h.sink.counts.pos (i := i)).2.2
  rw [ThreadPc.owning_of_drained hi] at hle
  cases hfin : s.sink.sink.stopFinalizing with
  | true => rfl
  | false =>
    rw [hfin] at hle
    exact absurd hle (by decide)

omit [DecidableEq ι] in
/-- No push is active while the resets are under way. -/
theorem Inv.not_push (h : Inv s) (hpc : s.resetPc ≠ .none) (j : ι) : s.sink.pc j ≠ .push := by
  intro hj
  obtain ⟨i, hi⟩ := h.owner hpc
  have hle := (h.sink.counts.pos (i := j)).1
  rw [(h.sink.drained i hi).1, hj] at hle
  exact absurd hle (by decide)

theorem Inv.pastBump_of_returns (h : Inv s) (hstep : SinkSys.Step s.sink b t)
    (hret : stopReturns s.sink t b = true) : s.pastBump = true := by
  rw [pastBump_iff]
  have hleave : ∀ i, s.sink.pc i = .stop .join → s.sink.sink.stopFinalizing = false →
      s.resetPc = .resetting ∨ s.resetPc = .done ∨ s.resetPc = .none ∧
        s.sink.sink.stopCallers ≠ 0 ∧ s.sink.sink.stopFinalizing = false := by
    intro i hi hfin
    have hcallers := (h.sink.counts.pos (i := i)).2.1
    rw [hi] at hcallers
    have hnone : s.resetPc = .none := by
      by_contra hne
      rw [h.stopFinalizing hne] at hfin
      cases hfin
    exact .inr (.inr ⟨hnone, Nat.ne_of_gt hcallers, hfin⟩)
  cases hstep with
  | refuse | close | enterPush | callStop | callOpen => cases hret
  | exit i hpc | exitLast i hpc | own i hpc | openFail i hpc | openOk i hpc =>
    simp [stopReturns, hpc, ThreadPc.stopping] at hret
  | join i hpc =>
    simp [stopReturns, hpc, ThreadPc.stopping] at hret
  | wait i hwait =>
    have hidle : s.sink.pc i = .idle := of_decide_eq_true (Bool.and_eq_true_iff.1 hret).2
    simp [stopReturns, hidle, ThreadPc.stopping] at hret
  | beginReset i | endReset i => simp [stopReturns, SinkSys.goto] at hret
  | finalize i hpc => exact .inr (.inl (h.finalizing i hpc))
  | leave i hpc hfin | leaveLast i hpc hfin => exact hleave i hpc hfin

theorem Inv.pastBump_of_sink (h : Inv s) (hstep : SinkSys.Step s.sink b t) {quiet : Bool}
    (hbump : ClockLoop.pastBump
      { s with sink := t, resetPc := s.afterSink b, quiet := quiet } = true) :
    s.pastBump = true := by
  have hkeep : s.afterSink b = s.resetPc →
      (t.sink.stopCallers ≠ 0 → t.sink.stopFinalizing = false →
        s.sink.sink.stopCallers ≠ 0 ∧ s.sink.sink.stopFinalizing = false) →
      s.pastBump = true := by
    intro hafter hcounts
    rw [pastBump_iff] at hbump ⊢
    rw [hafter] at hbump
    exact hbump.imp_right fun h' => h'.imp_right fun ⟨hpc, hcallers, hfin⟩ =>
      ⟨hpc, hcounts hcallers hfin⟩
  cases hstep with
  | refuse | close | enterPush | callStop | callOpen => exact hkeep rfl fun h₁ h₂ => ⟨h₁, h₂⟩
  | exit i hpc | exitLast i hpc | beginReset i hpc | endReset i hpc | openFail i hpc
  | openOk i hpc => exact hkeep (by simp [afterSink, hpc]) fun h₁ h₂ => ⟨h₁, h₂⟩
  | own i hpc => exact hkeep (by simp [afterSink, hpc]) fun _ h₂ => nomatch h₂
  | join i hpc hne => exact hkeep (by simp [afterSink, hpc]) fun _ h₂ => ⟨hne, h₂⟩
  | wait i hwait =>
    refine hkeep ?_ fun h₁ h₂ => ⟨h₁, h₂⟩
    have hne : s.sink.pc i ≠ .stop .finalize := by
      intro hpc
      rw [hpc] at hwait
      cases hwait
    simp [afterSink, hne]
  | finalize i hpc =>
    rw [pastBump_iff]
    exact .inr (.inl (h.finalizing i hpc))
  | leave i hpc | leaveLast i hpc =>
    refine hkeep (by simp [afterSink, hpc]) fun h₁ h₂ => ⟨?_, h₂⟩
    intro h₀
    exact h₁ (by simp [SinkSys.goto, SinkSys.broadcast, h₀])

theorem Inv.sinkStep (h : Inv s) (hmay : s.mayRun b = true) (hnext : s.sink.next b = some t) :
    Inv { s with
      sink := t
      resetPc := s.afterSink b
      quiet := s.quiet || stopReturns s.sink t b } := by
  have hstep := SinkSys.step_of_next hnext
  have hsink : t.Inv := h.sink.step hstep
  -- only a finalization moves the place of the resets
  have hafter : s.afterSink b = s.resetPc ∨
      s.afterSink b = .none ∧ ∃ i, b = .run i ∧ s.sink.pc i = .stop .finalize := by
    cases b with
    | run i =>
      by_cases hpc : s.sink.pc i = .stop .finalize
      · exact .inr ⟨if_pos hpc, i, rfl, hpc⟩
      · exact .inl (if_neg hpc)
    | callPush i | callStop i | callOpen i | callClose i => exact .inl rfl
  have hpc : s.afterSink b ≠ .none → s.afterSink b = s.resetPc := by
    intro hne
    exact hafter.resolve_right fun hnone => hne hnone.1
  refine { h with
    sink := hsink
    owner := ?_
    finalizing := ?_
    window := ?_
    updates := ?_
    clean := ?_ }
  · intro hne
    have hne : s.afterSink b ≠ .none := hne
    -- the owner stays behind its drain until it finalizes
    obtain ⟨i, hi⟩ := h.owner (hpc hne ▸ hne)
    rcases drained_of_step hstep hi with hi | ⟨rfl, hfin⟩
    · exact ⟨i, hi⟩
    · exact absurd (if_pos hfin) hne
  · intro i hi
    change s.afterSink b = .done
    -- an owner finalizes behind its resets
    have hdone : s.resetPc = .done := by
      rcases finalize_of_step hstep hi with hold | ⟨rfl, hreset⟩
      · exact h.finalizing i hold
      · simpa [mayRun, hreset] using hmay
    rcases hafter with hsame | ⟨-, j, rfl, hj⟩
    · exact hsame.trans hdone
    · -- behind a finalization there is no owner left
      exfalso
      have hfin : t.sink.stopFinalizing = false := by
        cases hstep with
        | finalize => rfl
        | wait _ hwait =>
          rw [hj] at hwait
          cases hwait
        | exit _ hpc | exitLast _ hpc | own _ hpc | join _ hpc | beginReset _ hpc
        | endReset _ hpc | leave _ hpc | leaveLast _ hpc | openFail _ hpc | openOk _ hpc =>
          rw [hpc] at hj
          cases hj
      have hown := (hsink.counts.pos (i := i)).2.2
      rw [hi, hfin] at hown
      exact absurd hown (by decide)
  · intro hw
    have hw : s.afterSink b = .timing := hw
    refine h.window ((hpc ?_).symm.trans hw)
    rw [hw]
    decide
  · intro hupdated
    rcases hafter with hsame | ⟨hnone, -⟩
    · exact hsame.trans (h.updates hupdated)
    · exact hnone
  · rintro (hquiet | hbump)
    · rcases Bool.or_eq_true_iff.1 hquiet with hquiet | hret
      · exact h.clean (.inl hquiet)
      · exact h.clean (.inr (h.pastBump_of_returns hstep hret))
    · exact h.clean (.inr (h.pastBump_of_sink hstep hbump))

omit [DecidableEq ι] in
theorem Inv.driftReset (h : Inv s) {i : ι} (hi : s.sink.pc i = .stop .reset)
    (hpc : s.resetPc = .none) (hunsent : s.timing.workPc.unsent = []) :
    Inv { s with drift := .reset, received := [], updated := false, resetPc := .timing } where
  sink := h.sink
  queue := h.queue
  session := h.session
  owner _ := ⟨i, by rw [hi]; rfl⟩
  finalizing j hj := by
    have hdone := h.finalizing j hj
    rw [hpc] at hdone
    cases hdone
  window _ := ⟨rfl, hunsent⟩
  held := h.held
  told _ hc := absurd hc List.not_mem_nil
  source _ hc := absurd hc List.not_mem_nil
  filter _ := ⟨rfl, rfl⟩
  whole _ _ := rfl
  updates hupdated := nomatch hupdated
  clean := by
    rintro (hquiet | hbump)
    · exact h.clean (.inl hquiet)
    · cases hbump

omit [DecidableEq ι] in
/-- The bump makes everything accepted old, and the controller has been told nothing. -/
theorem Inv.timingReset (h : Inv s) {i : ι} (hi : s.sink.pc i = .stop .reset)
    (hpc : s.resetPc = .timing) {u : Timing.State} (hu : s.timing.next .reset = some u) :
    Inv { s with timing := u, resetPc := .resetting } := by
  have hqueue := h.queue.next hu
  have hsession := h.session.next hu
  obtain ⟨hreceived, hunsent⟩ := h.window hpc
  simp only [Timing.State.next] at hu
  split_ifs at hu
  obtain rfl := Option.some.inj hu
  refine { h with
    queue := hqueue
    session := hsession
    owner := fun _ => ⟨i, by rw [hi]; rfl⟩
    finalizing := ?_
    window := ?_
    held := ?_
    told := ?_
    updates := ?_
    clean := ?_ }
  · intro j hj
    have hdone := h.finalizing j hj
    rw [hpc] at hdone
    cases hdone
  · intro hwindow
    cases hwindow
  · intro c hc
    have hc : c ∈ s.timing.workPc.unsent := hc
    rw [hunsent] at hc
    cases hc
  · intro c hc
    have hc : c ∈ s.received := hc
    rw [hreceived] at hc
    cases hc
  · intro hupdated
    have hnone := h.updates hupdated
    rw [hpc] at hnone
    cases hnone
  · intro _ c hc _
    obtain ⟨p, hp, -, rfl⟩ := State.mem_accepted hc
    exact Nat.lt_succ_of_le (h.session.sessions p hp)

omit [DecidableEq ι] in
theorem Inv.update (h : Inv s) {i : ι} (hi : s.sink.pc i = .push) (slabFreeCount : ℤ) :
    Inv { s with drift := s.drift.controllerUpdate cfg slabFreeCount, updated := true } := by
  obtain ⟨hfiltered, honce⟩ := Controller.controllerUpdate_frame cfg slabFreeCount (c := s.drift)
  refine { h with
    filter := ?_
    whole := fun _ hupdated => nomatch hupdated
    updates := ?_ }
  · intro hreceived
    change (s.drift.controllerUpdate cfg slabFreeCount).freqFiltered = 0 ∧
      (s.drift.controllerUpdate cfg slabFreeCount).freqOnceReceived = false
    rw [hfiltered, honce]
    exact h.filter hreceived
  · intro _
    by_contra hpc
    exact h.not_push hpc i hi

omit [DecidableEq ι] in
/-- What the handler finds current is of the current session, and it finds nothing current between
the two resets. -/
theorem Inv.unsent_next (h : Inv s) {x : Timing.Action} (hx : x ≠ .reset)
    (hgood : s.separated (.timing x) = true) {u : Timing.State} (hu : s.timing.next x = some u) :
    u.resets = s.timing.resets ∧
      ∀ c ∈ u.workPc.unsent, c.session = s.timing.resets ∧ s.resetPc ≠ .timing := by
  by_cases hwork : x = .work
  · subst hwork
    obtain ⟨hresets, hunsent⟩ := State.work_unsent hu
    refine ⟨hresets, fun c hc => ?_⟩
    obtain ⟨hpc, hgen, hm⟩ := hunsent c hc
    have hmem : c ∈ s.timing.workPc.untested := by
      rw [hpc]
      exact List.mem_singleton_self c
    have hgood : s.resetPc ≠ .timing ∧ s.timing.resets < c.session + 2 ^ 32 := by
      simpa [separated, passes, hpc, hgen, hm, WorkPc.untested] using hgood
    exact ⟨h.session.session_eq (h.queue.of_untested hmem) hgen hgood.2, hgood.1⟩
  · obtain ⟨hresets, hpc⟩ := State.other_frame hu hx hwork
    rw [hpc]
    refine ⟨hresets, fun c hc => ⟨h.held c hc, fun hw => ?_⟩⟩
    rw [(h.window hw).2] at hc
    cases hc

omit [DecidableEq ι] [Fintype ι] in
theorem mem_unsent_of_handed {x : Timing.Action} {c : Capture} (hc : c ∈ s.handed x) :
    c ∈ s.timing.workPc.unsent := by
  cases x with
  | work => exact hc
  | isr | sduRefUpdate | reset | ctlRun => cases hc

omit [DecidableEq ι] [Fintype ι] in
theorem not_measures {x : Timing.Action} (hgood : s.separated (.timing x) = true)
    (hbump : s.pastBump = true) : x.measures s.timing = false := by
  cases x with
  | isr => simpa [separated, hbump] using hgood
  | work | sduRefUpdate | reset | ctlRun => rfl

omit [DecidableEq ι] in
theorem Inv.timingStep (h : Inv s) {x : Timing.Action} (hx : x ≠ .reset)
    (hgood : s.separated (.timing x) = true) {u : Timing.State} (hu : s.timing.next x = some u) :
    Inv { s.receive (s.handed x) with
      timing := u
      resetPc := if s.resetPc = .resetting ∧ u.ctlPc = .free then .done else s.resetPc
      quiet := s.quiet && !x.measures s.timing } := by
  obtain ⟨hresets, hunsent⟩ := h.unsent_next hx hgood hu
  have hpc : ∀ {r : ResetPc}, r ≠ .done →
      (if s.resetPc = .resetting ∧ u.ctlPc = .free then .done else s.resetPc) = r →
      s.resetPc = r := by
    intro r hr heq
    split_ifs at heq
    · exact absurd heq.symm hr
    · exact heq
  have hempty : s.received ++ s.handed x = [] → s.received = [] ∧ s.handed x = [] :=
    List.append_eq_nil_iff.1
  have hdrift : s.handed x = [] → (s.receive (s.handed x)).drift = s.drift := by
    intro hhanded
    rw [hhanded]
    rfl
  exact {
    sink := h.sink
    queue := h.queue.next hu
    session := h.session.next hu
    owner := by
      intro hne
      refine h.owner fun hnone => hne ?_
      simp [hnone]
    finalizing := by
      intro i hi
      simp [h.finalizing i hi]
    window := by
      intro hw
      -- in the window the handler holds nothing current, so nothing can be handed over
      have hw := hpc (by decide) hw
      obtain ⟨hreceived, hsent⟩ := h.window hw
      have hhanded : s.handed x = [] := by
        refine List.eq_nil_iff_forall_not_mem.2 fun c hc => ?_
        have hc := mem_unsent_of_handed hc
        rw [hsent] at hc
        cases hc
      refine ⟨?_, List.eq_nil_iff_forall_not_mem.2 fun c hc => (hunsent c hc).2 hw⟩
      change s.received ++ s.handed x = []
      rw [hreceived, hhanded]
      rfl
    held := by
      intro c hc
      exact (hunsent c hc).1.trans hresets.symm
    told := by
      intro c hc
      refine Eq.trans ?_ hresets.symm
      rcases List.mem_append.1 hc with hold | hnew
      · exact h.told c hold
      · exact h.held c (mem_unsent_of_handed hnew)
    source := by
      intro c hc
      have hold : c ∈ s.timing.accepted ∧ c.measured = true := by
        rcases List.mem_append.1 hc with hold | hnew
        · exact h.source c hold
        · exact h.queue.of_unsent (mem_unsent_of_handed hnew)
      exact ⟨State.accepted_subset_next hu hold.1, hold.2⟩
    filter := by
      intro hnone
      obtain ⟨hreceived, hhanded⟩ := hempty hnone
      have hfilter := h.filter hreceived
      rwa [← hdrift hhanded] at hfilter
    whole := by
      intro hnone hupdated
      obtain ⟨hreceived, hhanded⟩ := hempty hnone
      exact (hdrift hhanded).trans (h.whole hreceived hupdated)
    updates := by
      intro hupdated
      simp [h.updates hupdated]
    clean := by
      intro hquiet c hc hm
      have hbefore : x.measures s.timing = false ∧ (s.quiet = true ∨ s.pastBump = true) := by
        rcases hquiet with hquiet | hbump
        · obtain ⟨hquiet, hmeasures⟩ := Bool.and_eq_true_iff.1 hquiet
          exact ⟨by simpa using hmeasures, .inl hquiet⟩
        · have hbump' : s.pastBump = true := by
            rw [pastBump_iff] at hbump ⊢
            rcases hbump with hbump | hbump | ⟨hnone, hcounts⟩
            · exact .inl (hpc (by decide) hbump)
            · by_cases hresetting : s.resetPc = .resetting
              · exact .inl hresetting
              · exact .inr (.inl (by simpa [hresetting] using hbump))
            · exact .inr (.inr ⟨hpc (by decide) hnone, hcounts⟩)
          exact ⟨not_measures hgood hbump', .inr hbump'⟩
      refine Nat.lt_of_lt_of_eq ?_ hresets.symm
      -- a new capture is no measurement while the timing is quiet
      rcases State.mem_accepted_next hu hc with hold | ⟨-, hmeasures⟩
      · exact h.clean hbefore.2 c hold hm
      · rw [hbefore.1] at hmeasures
        exact nomatch hmeasures hm }

/-- Every separated step keeps the invariant. -/
theorem Inv.next (h : Inv s) (hgood : s.separated a = true) (hnext : s.next cfg a = some s') :
    Inv s' := by
  cases a with
  | sink b =>
    simp only [ClockLoop.next] at hnext
    split_ifs at hnext with hmay
    obtain ⟨t, ht, rfl⟩ := Option.map_eq_some_iff.1 hnext
    exact h.sinkStep hmay ht
  | driftReset i =>
    simp only [ClockLoop.next] at hnext
    split_ifs at hnext with hi
    obtain rfl := Option.some.inj hnext
    exact h.driftReset hi.1 hi.2 (by simpa [separated] using hgood)
  | timingReset i =>
    simp only [ClockLoop.next] at hnext
    split_ifs at hnext with hi
    obtain ⟨u, hu, rfl⟩ := Option.map_eq_some_iff.1 hnext
    exact h.timingReset hi.1 hi.2 hu
  | timing x =>
    simp only [ClockLoop.next] at hnext
    split_ifs at hnext with hx
    obtain ⟨u, hu, rfl⟩ := Option.map_eq_some_iff.1 hnext
    exact h.timingStep hx hgood hu
  | update i slabFreeCount =>
    simp only [ClockLoop.next] at hnext
    split_ifs at hnext with hi
    obtain rfl := Option.some.inj hnext
    exact h.update hi slabFreeCount

theorem inv_of_reachable
    (h : (machine ι cfg).ReachableBy (fun s a => s.separated a = true) s) : Inv s := by
  refine h.invariant ?_ fun _ _ _ hs hgood hnext => hs.next hgood hnext
  rintro _ ⟨configured, timerNominalHz, rfl⟩
  exact inv_start configured timerNominalHz

/-! ### Isolation -/

/-- From the return of a stop until the next measurement is captured the filter is reset, and the
whole controller unless a push has run it; what the controller has been told since its reset was
captured behind the last bump; and no push runs it before the stop is finalized. -/
def Isolated (s : ClockLoop ι) : Prop :=
  (s.quiet = true →
    s.drift.freqFiltered = 0 ∧ s.drift.freqOnceReceived = false ∧
      (s.updated = false → s.drift = .reset)) ∧
  (∀ c ∈ s.received, c.session = s.timing.resets) ∧
  (s.updated = true → s.resetPc = .none)

/-- **A stop isolates the drift controller** in every run in which no old measurement comes between
the resets. -/
theorem isolated (h : (machine ι cfg).ReachableBy (fun s a => s.separated a = true) s) :
    Isolated s := by
  have hinv := inv_of_reachable h
  refine ⟨fun hquiet => ?_, hinv.told, hinv.updates⟩
  have hreceived : s.received = [] := by
    refine List.eq_nil_iff_forall_not_mem.2 fun c hc => ?_
    obtain ⟨haccepted, hm⟩ := hinv.source c hc
    exact absurd (hinv.told c hc) (Nat.ne_of_lt (hinv.clean (.inl hquiet) c haccepted hm))
  obtain ⟨hfiltered, honce⟩ := hinv.filter hreceived
  exact ⟨hfiltered, honce, hinv.whole hreceived⟩

/-- A measurement is captured, and a stop comes to its resets. -/
def beforeResets : List (Action (Fin 1)) :=
  Timing.State.measuring.map .timing ++ [.sink (.callStop 0), .sink (.run 0), .sink (.run 0)]

/-- The reset of the timing, and the end of the stop. -/
def afterDriftReset : List (Action (Fin 1)) :=
  [.timingReset 0, .timing .ctlRun, .timing .ctlRun, .sink (.run 0), .sink (.run 0)]

/-- The handler takes the measurement and tells it to the controller. -/
def handling : List (Action (Fin 1)) := List.replicate 4 (.timing .work)

theorem isolated_stop :
    ∃ s : ClockLoop (Fin 1), s.quiet = true ∧ s.timing.accepted.length = 1 ∧
      s.drift.freqOnceReceived = false := by
  have hrun : (((machine (Fin 1) ⟨2000, 150⟩).runBy (fun s a => s.separated a = true)
      (start true 16000000) (beforeResets ++ handling ++ [.driftReset 0] ++ afterDriftReset)).map
        fun s => (s.quiet, s.timing.accepted.length)) = some (true, 1) := by
    decide +kernel
  obtain ⟨s, hs, hstate⟩ := Option.map_eq_some_iff.1 hrun
  obtain ⟨hquiet, haccepted⟩ := Prod.mk.inj hstate
  have hstart : (machine (Fin 1) ⟨2000, 150⟩).ReachableBy (fun s a => s.separated a = true)
      (start true 16000000) := .init ⟨true, 16000000, rfl⟩
  exact ⟨s, hquiet, haccepted, ((isolated (hstart.runBy hs)).1 hquiet).2.1⟩

/-- The measurement that was captured before the stop is told to the controller between the two
resets. -/
theorem old_measurement :
    ∃ s : ClockLoop (Fin 1), (machine (Fin 1) ⟨2000, 150⟩).Reachable s ∧ s.quiet = true ∧
      s.drift.freqOnceReceived = true ∧ s.drift.freqFiltered = 1 := by
  have hrun : (((machine (Fin 1) ⟨2000, 150⟩).run (start true 16000000)
      (beforeResets ++ [.driftReset 0] ++ handling ++ afterDriftReset)).map
        fun s => (s.quiet, s.drift.freqOnceReceived, s.drift.freqFiltered)) =
      some (true, true, 1) := by
    decide +kernel
  obtain ⟨s, hs, hstate⟩ := Option.map_eq_some_iff.1 hrun
  obtain ⟨hquiet, hrest⟩ := Prod.mk.inj hstate
  obtain ⟨honce, hfiltered⟩ := Prod.mk.inj hrest
  exact ⟨s, Machine.Reachable.run (.init ⟨true, 16000000, rfl⟩) hs, hquiet, honce, hfiltered⟩

end ClockLoop

end Drift

end LeAudioReceiver
