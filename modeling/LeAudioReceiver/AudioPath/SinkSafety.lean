import LeAudioReceiver.AudioPath.SinkThreads

/-!
# Stopping the sink

The counters of the sink say how many threads are inside, one owner resets the hardware for all
overlapping stop callers, and the admission stays closed until the last of them has left.

* `SinkSys.Step`, `SinkSys.step_of_next` : the steps by what they do;
* `SinkSys.Inv` : the counters, the owner, the closed admission, the sleepers, and the counts of
  admissions;
* `SinkSys.stop_protocol` : **the stop protocol**, for any number of threads and every
  interleaving;
* `SinkSys.exists_awake` : as long as a thread sleeps, another one is inside and awake.
-/

namespace LeAudioReceiver

namespace AudioPath

open Threads ThreadPc

theorem ThreadPc.stopping_of_owning {pc : ThreadPc} (h : owning pc = true) :
    stopping pc = true := by
  rcases pc with _ | _ | pc | _
  · exact h
  · exact h
  · cases pc <;> first | rfl | exact h
  · exact h

theorem ThreadPc.owning_of_drained {pc : ThreadPc} (h : drained pc = true) :
    owning pc = true := by
  rcases pc with _ | _ | pc | _
  · exact h
  · exact h
  · cases pc <;> first | rfl | exact h
  · exact h

namespace SinkSys

variable {ι : Type*} [DecidableEq ι]

/-- The steps by what they do. -/
inductive Step (s : SinkSys ι) : SinkAction ι → SinkSys ι → Prop
  | refuse (i : ι) : Step s (.callPush i) s
  | enterPush (i : ι) : s.pc i = .idle → s.sink.accepting = true →
      Step s (.callPush i)
        ({ s with
            sink := { s.sink with activePushes := s.sink.activePushes + 1 }
            admitted := s.admitted + 1 }.goto i .push)
  | callStop (i : ι) : s.pc i = .idle → Step s (.callStop i) (s.goto i (.stop .enter))
  | callOpen (i : ι) : s.pc i = .idle → Step s (.callOpen i) (s.goto i .opening)
  | close (i : ι) :
      Step s (.callClose i) { s with sink := { s.sink with accepting := false } }
  | exit (i : ι) : s.pc i = .push → s.sink.activePushes - 1 ≠ 0 →
      Step s (.run i)
        ({ s with sink := { s.sink with activePushes := s.sink.activePushes - 1 } }.goto i .idle)
  | exitLast (i : ι) : s.pc i = .push → s.sink.activePushes - 1 = 0 →
      Step s (.run i)
        ({ s with
            sink := { s.sink with activePushes := s.sink.activePushes - 1 } }.goto
          i .idle).broadcast
  | own (i : ι) : s.pc i = .stop .enter → s.sink.stopCallers = 0 →
      Step s (.run i)
        ({ s with
            sink := { s.sink with accepting := false, stopCallers := 1, stopFinalizing := true }
            enteredAt := Function.update s.enteredAt i s.admitted }.goto i (.stop .drain))
  | join (i : ι) : s.pc i = .stop .enter → s.sink.stopCallers ≠ 0 →
      Step s (.run i)
        ({ s with
            sink := { s.sink with accepting := false, stopCallers := s.sink.stopCallers + 1 }
            enteredAt := Function.update s.enteredAt i s.admitted }.goto i (.stop .join))
  | wait (i : ι) : s.waits (s.pc i) = true → Step s (.run i) (s.sleep i)
  | beginReset (i : ι) : s.pc i = .stop .drain → s.sink.activePushes = 0 →
      Step s (.run i) ({ s with resetAt := s.admitted }.goto i (.stop .reset))
  | endReset (i : ι) : s.pc i = .stop .reset → Step s (.run i) (s.goto i (.stop .finalize))
  | finalize (i : ι) : s.pc i = .stop .finalize →
      Step s (.run i)
        ({ s with
            sink := { s.sink with
              stopFinalizing := false, stopCallers := s.sink.stopCallers - 1 }
            finalizedAt := some s.resetAt }.goto i .idle).broadcast
  | leave (i : ι) : s.pc i = .stop .join → s.sink.stopFinalizing = false →
      s.sink.stopCallers - 1 ≠ 0 →
      Step s (.run i)
        ({ s with sink := { s.sink with stopCallers := s.sink.stopCallers - 1 } }.goto i .idle)
  | leaveLast (i : ι) : s.pc i = .stop .join → s.sink.stopFinalizing = false →
      s.sink.stopCallers - 1 = 0 →
      Step s (.run i)
        ({ s with
            sink := { s.sink with stopCallers := s.sink.stopCallers - 1 } }.goto
          i .idle).broadcast
  | openFail (i : ι) : s.pc i = .opening → s.sink.configured = false →
      Step s (.run i) (s.goto i .idle)
  | openOk (i : ι) : s.pc i = .opening → s.sink.stopCallers = 0 →
      Step s (.run i) ({ s with sink := { s.sink with accepting := true } }.goto i .idle)

theorem step_of_stop {s s' : SinkSys ι} {i : ι} {pc : StopPc} (hpc : s.pc i = .stop pc)
    (h : s.step i (.stop pc) = some s') : Step s (.run i) s' := by
  cases pc with
  | enter =>
    by_cases h₀ : s.sink.stopCallers = 0
    · simp only [step, Sink.stop, note, stopBroadcasts, h₀, beq_self_eq_true, if_true,
        Bool.or_true, Bool.false_eq_true, if_false] at h
      exact Option.some.inj h ▸ .own i hpc h₀
    · have hne : (s.sink.stopCallers == 0) = false := by simpa using h₀
      simp only [step, Sink.stop, note, stopBroadcasts, hne, Bool.false_eq_true, if_false,
        Bool.or_false] at h
      exact Option.some.inj h ▸ .join i hpc h₀
  | drain =>
    by_cases h₀ : s.sink.activePushes = 0
    · simp only [step, Sink.stop, note, stopBroadcasts, h₀, if_true, Bool.false_eq_true,
        if_false] at h
      exact Option.some.inj h ▸ .beginReset i hpc h₀
    · simp only [step, Sink.stop, if_neg h₀] at h
      exact Option.some.inj h ▸ .wait i (by simpa [hpc, waits] using h₀)
  | reset =>
    simp only [step, Sink.stop, note, stopBroadcasts, Bool.false_eq_true, if_false] at h
    exact Option.some.inj h ▸ .endReset i hpc
  | finalize =>
    simp only [step, Sink.stop, note, stopBroadcasts, if_true] at h
    exact Option.some.inj h ▸ .finalize i hpc
  | join =>
    by_cases hfin : s.sink.stopFinalizing = true
    · simp only [step, Sink.stop, if_pos hfin] at h
      exact Option.some.inj h ▸ .wait i (by simpa [hpc, waits] using hfin)
    · rw [step, Sink.stop, if_neg hfin] at h
      have hfin : s.sink.stopFinalizing = false := by simpa using hfin
      by_cases hlast : s.sink.stopCallers - 1 = 0
      · simp only [note, stopBroadcasts, hlast, decide_true, if_true] at h
        exact Option.some.inj h ▸ hlast ▸ .leaveLast i hpc hfin hlast
      · simp only [note, stopBroadcasts, hlast, decide_false, Bool.false_eq_true, if_false] at h
        exact Option.some.inj h ▸ .leave i hpc hfin hlast

/-- Every step is one of them. -/
theorem step_of_next {s s' : SinkSys ι} {a : SinkAction ι} (h : s.next a = some s') :
    Step s a s' := by
  cases a with
  | callPush i =>
    simp only [next, Sink.pushEnter] at h
    split_ifs at h with hidle hadmit
    · obtain rfl := Option.some.inj h
      exact .enterPush i hidle (Bool.and_eq_true _ _ ▸ hadmit).2
    · exact Option.some.inj h ▸ .refuse i
  | callStop i =>
    simp only [next] at h
    split_ifs at h with hidle
    exact Option.some.inj h ▸ .callStop i hidle
  | callOpen i =>
    simp only [next] at h
    split_ifs at h with hidle
    exact Option.some.inj h ▸ .callOpen i hidle
  | callClose i =>
    simp only [next] at h
    split_ifs at h with hidle
    exact Option.some.inj h ▸ .close i
  | run i =>
    simp only [next] at h
    split_ifs at h with hawake
    cases hpc : s.pc i with
    | idle => simp [hpc, step] at h
    | push =>
      rw [hpc] at h
      by_cases hlast : s.sink.activePushes - 1 = 0
      · exact (if_pos hlast).symm.trans (Option.some.inj h) ▸ .exitLast i hpc hlast
      · exact (if_neg hlast).symm.trans (Option.some.inj h) ▸ .exit i hpc hlast
    | stop pc =>
      rw [hpc] at h
      exact step_of_stop hpc h
    | opening =>
      rw [hpc] at h
      by_cases hconf : s.sink.configured = true
      · by_cases h₀ : s.sink.stopCallers = 0
        · have hopen : s.sink.streamOpen = some ({ s.sink with accepting := true }, true) := by
            rw [Sink.streamOpen, if_neg (by simp [hconf]), if_pos h₀]
          rw [step, hopen] at h
          exact Option.some.inj h ▸ .openOk i hpc h₀
        · have hopen : s.sink.streamOpen = none := by
            rw [Sink.streamOpen, if_neg (by simp [hconf]), if_neg h₀]
          rw [step, hopen] at h
          exact Option.some.inj h ▸ .wait i (by simpa [hpc, waits, hconf] using h₀)
      · have hopen : s.sink.streamOpen = some (s.sink, false) := by
          rw [Sink.streamOpen, if_pos (by simpa using hconf)]
        rw [step, hopen] at h
        exact Option.some.inj h ▸ .openFail i hpc (by simpa using hconf)

/-! ### The invariant -/

theorem forall_update {Q : Prop} {p : ThreadPc → Bool} {pc : ι → ThreadPc} {i : ι} {a : ThreadPc}
    (hothers : ∀ j, p (pc j) = true → Q) (hi : p a = true → Q) :
    ∀ j, p (Function.update pc i a j) = true → Q := by
  intro j
  by_cases hj : j = i
  · subst hj
    simpa using hi
  · simpa [hj] using hothers j

omit [DecidableEq ι] in
theorem waits_mono {s s' : SinkSys ι} {pc : ThreadPc} (h : s.waits pc = true)
    (hpushes : s.sink.activePushes ≠ 0 → s'.sink.activePushes ≠ 0)
    (hfin : s.sink.stopFinalizing = true → s'.sink.stopFinalizing = true)
    (hconf : s'.sink.configured = s.sink.configured)
    (hcallers : s.sink.stopCallers ≠ 0 → s'.sink.stopCallers ≠ 0) : s'.waits pc = true := by
  rcases pc with _ | _ | pc | _
  · exact h
  · exact h
  · cases pc with
    | drain => simpa [waits] using hpushes (by simpa [waits] using h)
    | join => exact hfin h
    | enter | reset | finalize => exact h
  · simp only [waits, Bool.and_eq_true, decide_eq_true_eq] at h ⊢
    exact ⟨hconf.trans h.1, hcallers h.2⟩

variable [Fintype ι]

/-- The counters count, and the flag says that there is an owner. -/
structure CountInv (s : SinkSys ι) : Prop where
  pushes : s.sink.activePushes = countAt pushing s.pc
  callers : s.sink.stopCallers = countAt stopping s.pc
  owner : s.sink.stopFinalizing.toNat = countAt owning s.pc

/-- A step of thread `i` from `pc` to `pc'` that changes the counters as it should. -/
theorem CountInv.goto {s s' : SinkSys ι} (h : CountInv s) {i : ι} {pc : ThreadPc}
    (hpc : s'.pc = Function.update s.pc i pc)
    (hpush : s'.sink.activePushes + (pushing (s.pc i)).toNat =
      s.sink.activePushes + (pushing pc).toNat)
    (hstop : s'.sink.stopCallers + (stopping (s.pc i)).toNat =
      s.sink.stopCallers + (stopping pc).toNat)
    (hown : s'.sink.stopFinalizing.toNat + (owning (s.pc i)).toNat =
      s.sink.stopFinalizing.toNat + (owning pc).toNat) : CountInv s' := by
  have h₁ := countAt_update pushing s.pc i pc
  have h₂ := countAt_update stopping s.pc i pc
  have h₃ := countAt_update owning s.pc i pc
  have := h.pushes
  have := h.callers
  have := h.owner
  constructor <;> rw [hpc] <;> omega

omit [DecidableEq ι] in
theorem CountInv.pos {s : SinkSys ι} (h : CountInv s) {i : ι} :
    (pushing (s.pc i)).toNat ≤ s.sink.activePushes ∧
    (stopping (s.pc i)).toNat ≤ s.sink.stopCallers ∧
    (owning (s.pc i)).toNat ≤ s.sink.stopFinalizing.toNat := by
  rw [h.pushes, h.callers, h.owner]
  exact ⟨toNat_le_countAt, toNat_le_countAt, toNat_le_countAt⟩

theorem countInv_step {s s' : SinkSys ι} {a : SinkAction ι} (h : CountInv s)
    (hstep : Step s a s') : CountInv s' := by
  -- each counter counts the threads at some points, so it follows the one that moves
  cases hstep with
  | refuse i => exact h
  | close i => exact ⟨h.pushes, h.callers, h.owner⟩
  | wait i _ => exact ⟨h.pushes, h.callers, h.owner⟩
  | enterPush i hpc _ | callStop i hpc | callOpen i hpc | endReset i hpc | openFail i hpc _
  | openOk i hpc _ | beginReset i hpc _ =>
    exact h.goto rfl (by simp [hpc, SinkSys.goto, pushing]) (by simp [hpc, SinkSys.goto, stopping])
      (by simp [hpc, SinkSys.goto, owning])
  | own i hpc h₀ =>
    have hfin : s.sink.stopFinalizing = false := by
      -- an owner is a stop caller, and there is none
      by_contra hfin
      have hown : 0 < countAt owning s.pc := by
        rw [← h.owner, Bool.eq_true_of_not_eq_false hfin]
        decide
      obtain ⟨j, hj⟩ := exists_of_countAt_pos hown
      have := (h.pos (i := j)).2.1
      rw [stopping_of_owning hj, h₀] at this
      exact absurd this (by decide)
    refine h.goto rfl ?_ ?_ ?_
    · simp [hpc, SinkSys.goto, pushing]
    · simp [hpc, SinkSys.goto, stopping, h₀]
    · simp [hpc, SinkSys.goto, owning, hfin]
  | join i hpc _ =>
    exact h.goto rfl (by simp [hpc, SinkSys.goto, pushing]) (by simp [hpc, SinkSys.goto, stopping])
      (by simp [hpc, SinkSys.goto, owning])
  | exit i hpc _ | exitLast i hpc _ =>
    -- the counter counts this thread, so it does not underflow
    have hpos := (h.pos (i := i)).1
    rw [hpc] at hpos
    simp only [pushing, Bool.toNat_true] at hpos
    refine h.goto rfl ?_ ?_ ?_
    · simp only [hpc, SinkSys.goto, broadcast, pushing, Bool.toNat_true, Bool.toNat_false]
      omega
    · simp [hpc, SinkSys.goto, broadcast, stopping]
    · simp [hpc, SinkSys.goto, broadcast, owning]
  | finalize i hpc =>
    obtain ⟨-, hpos, hown⟩ := h.pos (i := i)
    rw [hpc] at hpos hown
    simp only [stopping, owning, Bool.toNat_true] at hpos hown
    have hle := Bool.toNat_le s.sink.stopFinalizing
    refine h.goto rfl ?_ ?_ ?_
    · simp [hpc, SinkSys.goto, broadcast, pushing]
    · simp only [hpc, SinkSys.goto, broadcast, stopping, Bool.toNat_true, Bool.toNat_false]
      omega
    · simp only [hpc, SinkSys.goto, broadcast, owning, Bool.toNat_true, Bool.toNat_false]
      omega
  | leave i hpc _ _ | leaveLast i hpc _ _ =>
    have hpos := (h.pos (i := i)).2.1
    rw [hpc] at hpos
    simp only [stopping, Bool.toNat_true] at hpos
    refine h.goto rfl ?_ ?_ ?_
    · simp [hpc, SinkSys.goto, broadcast, pushing]
    · simp only [hpc, SinkSys.goto, broadcast, stopping, Bool.toNat_true, Bool.toNat_false]
      omega
    · simp [hpc, SinkSys.goto, broadcast, owning]

/-- The invariant of the stop protocol. -/
structure Inv (s : SinkSys ι) : Prop where
  counts : CountInv s
  /-- No admission while a stop is in progress. -/
  closed : s.sink.stopCallers ≠ 0 → s.sink.accepting = false
  /-- An owner that resets has drained the pushes, and none has been admitted since. -/
  drained : ∀ i, drained (s.pc i) = true → s.sink.activePushes = 0 ∧ s.resetAt = s.admitted
  /-- Whoever sleeps has to. -/
  asleep : ∀ i, s.asleep i = true → s.waits (s.pc i) = true
  entered : ∀ i, s.enteredAt i ≤ s.admitted
  /-- Behind the finalization of a cohort, its reset began after the last admission. -/
  finalized : s.sink.stopCallers ≠ 0 → s.sink.stopFinalizing = false →
    s.finalizedAt = some s.admitted

omit [DecidableEq ι] in
theorem inv_start (configured : Bool) : Inv (start configured : SinkSys ι) where
  counts := ⟨(countAt_eq_zero.2 fun _ => rfl).symm, (countAt_eq_zero.2 fun _ => rfl).symm,
    (countAt_eq_zero.2 fun _ => rfl).symm⟩
  closed := fun h => absurd rfl h
  drained := fun _ h => nomatch h
  asleep := fun _ h => nomatch h
  entered := fun _ => le_rfl
  finalized := fun h => absurd rfl h

section Step

variable {s s' : SinkSys ι} {a : SinkAction ι}

omit [DecidableEq ι] in
/-- While the admission is open nobody stops. -/
theorem Inv.not_accepting (h : Inv s) {i : ι} (hi : stopping (s.pc i) = true) :
    s.sink.accepting = false := by
  refine h.closed fun h₀ => ?_
  have := (h.counts.pos (i := i)).2.1
  rw [hi, h₀] at this
  exact absurd this (by decide)

theorem Inv.closed_step (h : Inv s) (hstep : Step s a s') :
    s'.sink.stopCallers ≠ 0 → s'.sink.accepting = false := by
  cases hstep with
  | refuse i | callStop i _ | callOpen i _ | exit i _ _ | exitLast i _ _ | wait i _
  | beginReset i _ _ | endReset i _ | openFail i _ _ | enterPush i _ _ => exact h.closed
  | close i | own i _ _ | join i _ _ => exact fun _ => rfl
  | finalize i _ | leave i _ _ _ | leaveLast i _ _ _ =>
    intro hne
    refine h.closed fun h₀ => hne ?_
    show s.sink.stopCallers - 1 = 0
    omega
  | openOk i _ h₀ => exact fun hne => absurd h₀ hne

theorem Inv.drained_step (h : Inv s) (hstep : Step s a s') :
    ∀ i, ThreadPc.drained (s'.pc i) = true →
      s'.sink.activePushes = 0 ∧ s'.resetAt = s'.admitted := by
  cases hstep with
  | refuse i | close i | wait i _ => exact h.drained
  | enterPush i _ haccepting =>
    refine forall_update (fun j hj => ?_) (fun hi => nomatch hi)
    have := h.not_accepting (stopping_of_owning (owning_of_drained hj))
    exact absurd (this.symm.trans haccepting) (by decide)
  | callStop i _ | callOpen i _ | own i _ _ | join i _ _ | openFail i _ _ | openOk i _ _
  | finalize i _ | leave i _ _ _ | leaveLast i _ _ _ =>
    exact forall_update h.drained (fun hi => nomatch hi)
  | exit i _ _ | exitLast i _ _ =>
    refine forall_update (fun j hj => ?_) (fun hi => nomatch hi)
    obtain ⟨h₀, hreset⟩ := h.drained j hj
    refine ⟨?_, hreset⟩
    show s.sink.activePushes - 1 = 0
    omega
  | beginReset i _ h₀ => exact forall_update (fun _ _ => ⟨h₀, rfl⟩) (fun _ => ⟨h₀, rfl⟩)
  | endReset i hpc => exact forall_update h.drained (fun _ => h.drained i (by rw [hpc]; rfl))

theorem Inv.entered_step (h : Inv s) (hstep : Step s a s') :
    ∀ i, s'.enteredAt i ≤ s'.admitted := by
  cases hstep with
  | enterPush i _ _ => exact fun j => (h.entered j).trans (Nat.le_succ _)
  | own i _ _ | join i _ _ =>
    intro j
    by_cases hj : j = i
    · subst hj
      simp [SinkSys.goto]
    · simpa [SinkSys.goto, hj] using h.entered j
  | refuse i | callStop i _ | callOpen i _ | close i | exit i _ _ | exitLast i _ _ | wait i _
  | beginReset i _ _ | endReset i _ | finalize i _ | leave i _ _ _ | leaveLast i _ _ _
  | openFail i _ _ | openOk i _ _ => exact h.entered

theorem Inv.finalized_step (h : Inv s) (hstep : Step s a s') :
    s'.sink.stopCallers ≠ 0 → s'.sink.stopFinalizing = false →
      s'.finalizedAt = some s'.admitted := by
  cases hstep with
  | enterPush i _ haccepting =>
    exact fun hne => absurd ((h.closed hne).symm.trans haccepting) (by decide)
  | own i _ _ => exact fun _ hfin => nomatch hfin
  | join i _ hne => exact fun _ => h.finalized hne
  | finalize i hpc =>
    intro _ _
    exact congrArg some (h.drained i (by rw [hpc]; rfl)).2
  | leave i _ _ _ | leaveLast i _ _ _ =>
    intro hne
    refine h.finalized fun h₀ => hne ?_
    show s.sink.stopCallers - 1 = 0
    omega
  | refuse i | callStop i _ | callOpen i _ | close i | exit i _ _ | exitLast i _ _ | wait i _
  | beginReset i _ _ | endReset i _ | openFail i _ _ | openOk i _ _ => exact h.finalized

theorem Inv.asleep_goto (h : Inv s) {i : ι} {pc : ThreadPc} (hi : s.waits (s.pc i) = false)
    (hpc : s'.pc = Function.update s.pc i pc) (hasleep : s'.asleep = s.asleep)
    (hmono : ∀ pc, s.waits pc = true → s'.waits pc = true) :
    ∀ j, s'.asleep j = true → s'.waits (s'.pc j) = true := by
  intro j hj
  rw [hasleep] at hj
  have hwaits := h.asleep j hj
  have hne : j ≠ i := by
    rintro rfl
    exact absurd (hwaits.symm.trans hi) (by decide)
  rw [hpc, Function.update_of_ne hne]
  exact hmono _ hwaits

theorem Inv.asleep_step (h : Inv s) (hstep : Step s a s') :
    ∀ i, s'.asleep i = true → s'.waits (s'.pc i) = true := by
  cases hstep with
  | refuse i => exact h.asleep
  | close i => exact fun j hj => waits_mono (h.asleep j hj) id id rfl id
  | wait i hwaits =>
    intro j hj
    by_cases hji : j = i
    · subst hji
      exact hwaits
    · exact h.asleep j (by simpa [sleep, hji] using hj)
  | exitLast i _ _ | finalize i _ | leaveLast i _ _ _ => exact fun _ hj => nomatch hj
  | enterPush i hpc _ =>
    exact h.asleep_goto (by simp [hpc, waits]) rfl rfl
      fun _ hw => waits_mono hw (fun _ => Nat.succ_ne_zero _) id rfl id
  | callStop i hpc | callOpen i hpc | endReset i hpc =>
    exact h.asleep_goto (by simp [hpc, waits]) rfl rfl fun _ hw => waits_mono hw id id rfl id
  | exit i hpc hne =>
    exact h.asleep_goto (by simp [hpc, waits]) rfl rfl
      fun _ hw => waits_mono hw (fun _ => hne) id rfl id
  | own i hpc _ =>
    exact h.asleep_goto (by simp [hpc, waits]) rfl rfl
      fun _ hw => waits_mono hw id (fun _ => rfl) rfl (fun _ => Nat.one_ne_zero)
  | join i hpc _ =>
    exact h.asleep_goto (by simp [hpc, waits]) rfl rfl
      fun _ hw => waits_mono hw id id rfl (fun _ => Nat.succ_ne_zero _)
  | beginReset i hpc h₀ =>
    exact h.asleep_goto (by simp [hpc, waits, h₀]) rfl rfl
      fun _ hw => waits_mono hw id id rfl id
  | leave i hpc hfin hne =>
    exact h.asleep_goto (by simp [hpc, waits, hfin]) rfl rfl
      fun _ hw => waits_mono hw id id rfl (fun _ => hne)
  | openFail i hpc hconf =>
    exact h.asleep_goto (by simp [hpc, waits, hconf]) rfl rfl
      fun _ hw => waits_mono hw id id rfl id
  | openOk i hpc h₀ =>
    exact h.asleep_goto (by simp [hpc, waits, h₀]) rfl rfl
      fun _ hw => waits_mono hw id id rfl id

theorem Inv.step (h : Inv s) (hstep : Step s a s') : Inv s' :=
  ⟨countInv_step h.counts hstep, h.closed_step hstep, h.drained_step hstep, h.asleep_step hstep,
    h.entered_step hstep, h.finalized_step hstep⟩

end Step

theorem inv_of_reachable {s : SinkSys ι} (h : (machine ι).Reachable s) : Inv s := by
  refine h.invariant ?_ fun s a s' hs hnext => hs.step (step_of_next hnext)
  rintro _ ⟨configured, rfl⟩
  exact inv_start configured

/-! ### The protocol -/

/-- A thread that returns from `audio_sink_stop`, out of whichever section, does so behind a
finalized reset that began after the last push admitted before it entered. -/
theorem Inv.finalized_of_return {s s' : SinkSys ι} {i : ι} {pc : StopPc} (h : Inv s)
    (hpc : s.pc i = .stop pc) (hnext : s.next (.run i) = some s') (hidle : s'.pc i = .idle) :
    ∃ n, s'.finalizedAt = some n ∧ s'.enteredAt i ≤ n := by
  cases step_of_next hnext with
  | finalize _ hfin =>
    refine ⟨s.resetAt, rfl, ?_⟩
    rw [(h.drained i (by rw [hfin]; rfl)).2]
    exact h.entered i
  | leave _ hjoin hfin _ | leaveLast _ hjoin hfin _ =>
    have hcallers := (h.counts.pos (i := i)).2.1
    have hstopping : (stopping (s.pc i)).toNat = 1 := by rw [hjoin]; rfl
    exact ⟨s.admitted, h.finalized (by omega) hfin, h.entered i⟩
  | own _ _ _ | join _ _ _ | beginReset _ _ _ | endReset _ _ =>
    -- these sections go on to another one
    simp [SinkSys.goto] at hidle
  | wait _ _ =>
    -- a thread that goes to sleep does not return
    exact nomatch hpc.symm.trans hidle
  | exit _ hother _ | exitLast _ hother _ | openFail _ hother _ | openOk _ hother _ =>
    exact nomatch hpc.symm.trans hother

omit [Fintype ι] in
/-- Only `audio_sink_stream_open` opens the admission, and only when nobody stops. -/
theorem stopCallers_of_opened {s s' : SinkSys ι} {a : SinkAction ι} (hnext : s.next a = some s')
    (hbefore : s.sink.accepting = false) (hafter : s'.sink.accepting = true) :
    s.sink.stopCallers = 0 := by
  cases step_of_next hnext with
  | openOk _ _ h₀ => exact h₀
  | close _ | own _ _ _ | join _ _ _ => exact nomatch hafter
  | refuse _ | enterPush _ _ _ | callStop _ _ | callOpen _ _ | exit _ _ _ | exitLast _ _ _
  | wait _ _ | beginReset _ _ _ | endReset _ _ | finalize _ _ | leave _ _ _ _ | leaveLast _ _ _ _
  | openFail _ _ _ => exact absurd (hbefore.symm.trans hafter) (by decide)

/-- **The stop protocol of the sink.**  In every state that any interleaving of any number of
threads reaches:
an owner resets the hardware only while no push is active; no push is admitted while a thread of
a stop cohort is inside; a stop returns only behind a finalized reset that began after every push
admitted before the stop entered; the admission is opened only while nobody stops; no counter can
underflow; and a thread sleeps only while its wait condition holds. -/
theorem stop_protocol {s : SinkSys ι} (h : (machine ι).Reachable s) :
    (∀ i, s.pc i = .stop .reset → s.sink.activePushes = 0) ∧
    (∀ i, stopping (s.pc i) = true → s.sink.pushEnter = none) ∧
    (∀ i pc s', s.pc i = .stop pc → s.next (.run i) = some s' → s'.pc i = .idle →
      ∃ n, s'.finalizedAt = some n ∧ s'.enteredAt i ≤ n) ∧
    (∀ a s', s.next a = some s' → s.sink.accepting = false → s'.sink.accepting = true →
      s.sink.stopCallers = 0) ∧
    (∀ i, s.pc i = .push → 0 < s.sink.activePushes) ∧
    (∀ i, stopping (s.pc i) = true → 0 < s.sink.stopCallers) ∧
    (∀ i, s.asleep i = true → s.waits (s.pc i) = true) := by
  have hinv := inv_of_reachable h
  refine ⟨fun i hpc => ?_, fun i hi => ?_, fun i pc s' => hinv.finalized_of_return,
    fun a s' => stopCallers_of_opened, fun i hpc => ?_, fun i hi => ?_, hinv.asleep⟩
  · exact (hinv.drained i (by rw [hpc]; rfl)).1
  · simp [Sink.pushEnter, hinv.not_accepting hi]
  · have := (hinv.counts.pos (i := i)).1
    rw [hpc] at this
    exact this
  · have := (hinv.counts.pos (i := i)).2.1
    rw [hi] at this
    exact this

/-- Three threads: one opens the sink and pushes, one owns a stop and one has joined it.  The two
sleep until the push has left; the owner resets and returns, and the joiner returns behind it. -/
theorem stop_protocol_cohort :
    ∃ s₀ s₁ s₂ s₃ s₄ s₅ : SinkSys (Fin 3),
      (s₀.next (.run 0) = some s₁ ∧ s₁.sink.accepting = true ∧ s₀.sink.stopCallers = 0) ∧
      (s₂.asleep 1 = true ∧ s₂.waits (s₂.pc 1) = true ∧ s₂.asleep 2 = true ∧
        s₂.waits (s₂.pc 2) = true ∧ s₂.sink.pushEnter = none ∧ 0 < s₂.sink.activePushes ∧
        0 < s₂.sink.stopCallers) ∧
      (s₃.pc 1 = .stop .reset ∧ s₃.sink.activePushes = 0) ∧
      s₄.next (.run 2) = some s₅ ∧ s₅.pc 2 = .idle ∧ s₅.enteredAt 2 = 1 ∧
        ∃ n, s₅.finalizedAt = some n ∧ s₅.enteredAt 2 ≤ n := by
  have hrun : ((machine (Fin 3)).run (start true) [.callOpen 0]).bind (fun s₀ =>
      (s₀.next (.run 0)).bind fun s₁ =>
      ((machine (Fin 3)).run s₁ [.callPush 0, .callStop 1, .run 1, .run 1, .callStop 2, .run 2,
        .run 2]).bind fun s₂ =>
      ((machine (Fin 3)).run s₂ [.run 0, .run 1]).bind fun s₃ =>
      ((machine (Fin 3)).run s₃ [.run 1, .run 1]).bind fun s₄ =>
      (s₄.next (.run 2)).map fun s₅ => decide (
        (s₀.sink.accepting = false ∧ s₁.sink.accepting = true) ∧
        (s₂.pc 0 = .push ∧ s₂.pc 1 = .stop .drain ∧ s₂.asleep 1 = true ∧ s₂.asleep 2 = true) ∧
        s₃.pc 1 = .stop .reset ∧
        s₄.pc 2 = .stop .join ∧ s₅.pc 2 = .idle ∧ s₅.enteredAt 2 = 1)) = some true := by
    decide +kernel
  obtain ⟨s₀, hs₀, hrun⟩ := Option.bind_eq_some_iff.1 hrun
  obtain ⟨s₁, hs₁, hrun⟩ := Option.bind_eq_some_iff.1 hrun
  obtain ⟨s₂, hs₂, hrun⟩ := Option.bind_eq_some_iff.1 hrun
  obtain ⟨s₃, hs₃, hrun⟩ := Option.bind_eq_some_iff.1 hrun
  obtain ⟨s₄, hs₄, hrun⟩ := Option.bind_eq_some_iff.1 hrun
  obtain ⟨s₅, hs₅, hvalues⟩ := Option.map_eq_some_iff.1 hrun
  obtain ⟨⟨hclosed, hopened⟩, ⟨hpush, hown, h₁, h₂⟩, hreset, hjoin, hidle, hentered⟩ :=
    of_decide_eq_true hvalues
  have hreach₀ : (machine (Fin 3)).Reachable s₀ := Machine.Reachable.run (.init ⟨true, rfl⟩) hs₀
  have hnext₁ : (machine (Fin 3)).next s₀ (.run 0) = some s₁ := hs₁
  have hreach₂ := Machine.Reachable.run (hreach₀.step trivial hnext₁) hs₂
  have hreach₃ := Machine.Reachable.run hreach₂ hs₃
  have hreach₄ := Machine.Reachable.run hreach₃ hs₄
  obtain ⟨-, -, -, hopen, -⟩ := stop_protocol hreach₀
  obtain ⟨-, hrefuse, -, -, hpushes, hcallers, hwaits⟩ := stop_protocol hreach₂
  obtain ⟨hdrained, -⟩ := stop_protocol hreach₃
  obtain ⟨-, -, hreturn, -⟩ := stop_protocol hreach₄
  have hstopping : stopping (s₂.pc 1) = true := by rw [hown]; rfl
  exact ⟨s₀, s₁, s₂, s₃, s₄, s₅, ⟨hs₁, hopened, hopen (.run 0) _ hs₁ hclosed hopened⟩,
    ⟨h₁, hwaits 1 h₁, h₂, hwaits 2 h₂, hrefuse 1 hstopping, hpushes 0 hpush,
      hcallers 1 hstopping⟩,
    ⟨hreset, hdrained 1 hreset⟩, hs₅, hidle, hentered, hreturn 2 _ _ hjoin hs₅ hidle⟩

/-! ### Nobody waits in vain -/

/-- A thread is inside and awake. -/
def Busy (s : SinkSys ι) : Prop := ∃ j, s.asleep j = false ∧ s.pc j ≠ .idle

omit [DecidableEq ι] [Fintype ι] in
theorem busy_of_not_idle {s : SinkSys ι} {p : ThreadPc → Bool} {j : ι} (hj : p (s.pc j) = true)
    (hp : p .idle = false) (hawake : s.asleep j = false) : Busy s := by
  refine ⟨j, hawake, fun hidle => ?_⟩
  rw [hidle, hp] at hj
  exact nomatch hj

omit [DecidableEq ι] in
/-- A pusher never sleeps. -/
theorem Inv.busy_of_push {s : SinkSys ι} (h : Inv s) (hne : s.sink.activePushes ≠ 0) : Busy s := by
  rw [h.counts.pushes] at hne
  obtain ⟨j, hj⟩ := exists_of_countAt_pos (Nat.pos_of_ne_zero hne)
  refine busy_of_not_idle hj rfl ?_
  by_contra hasleep
  have hwaits := h.asleep j (Bool.eq_true_of_not_eq_false hasleep)
  rcases hpc : s.pc j with _ | _ | pc | _ <;> simp [hpc, pushing, waits] at hj hwaits

omit [DecidableEq ι] in
/-- An owner sleeps only for the pushers. -/
theorem Inv.busy_of_owner {s : SinkSys ι} (h : Inv s) (hfin : s.sink.stopFinalizing = true) :
    Busy s := by
  have hpos : 0 < countAt owning s.pc := by
    rw [← h.counts.owner, hfin]
    decide
  obtain ⟨j, hj⟩ := exists_of_countAt_pos hpos
  cases hasleep : s.asleep j with
  | false => exact busy_of_not_idle hj rfl hasleep
  | true =>
    have hwaits := h.asleep j hasleep
    refine h.busy_of_push ?_
    rcases hpc : s.pc j with _ | _ | pc | _
    · simp [hpc, owning] at hj
    · simp [hpc, owning] at hj
    · cases pc <;> simp [hpc, owning, waits] at hj hwaits
      exact hwaits
    · simp [hpc, owning] at hj

omit [DecidableEq ι] in
/-- A stop caller sleeps for the pushers or for its owner. -/
theorem Inv.busy_of_stopSleeper {s : SinkSys ι} (h : Inv s) {j : ι} {pc : StopPc}
    (hpc : s.pc j = .stop pc) (hasleep : s.asleep j = true) : Busy s := by
  have hwaits := h.asleep j hasleep
  rw [hpc] at hwaits
  cases pc with
  | drain => exact h.busy_of_push (by simpa [waits] using hwaits)
  | join => exact h.busy_of_owner hwaits
  | enter | reset | finalize => exact nomatch hwaits

/-- As long as a thread sleeps, another one is inside and awake: the threads cannot all be waiting
for each other. -/
theorem exists_awake {s : SinkSys ι} (h : (machine ι).Reachable s) {i : ι}
    (hi : s.asleep i = true) : Busy s := by
  have hinv := inv_of_reachable h
  have hwaits := hinv.asleep i hi
  rcases hpc : s.pc i with _ | _ | pc | _
  · simp [hpc, waits] at hwaits
  · simp [hpc, waits] at hwaits
  · exact hinv.busy_of_stopSleeper hpc hi
  · -- an opener sleeps for a stop caller
    have hne : s.sink.stopCallers ≠ 0 := by
      simp only [hpc, waits, Bool.and_eq_true, decide_eq_true_eq] at hwaits
      exact hwaits.2
    rw [hinv.counts.callers] at hne
    obtain ⟨j, hj⟩ := exists_of_countAt_pos (Nat.pos_of_ne_zero hne)
    cases hasleep : s.asleep j with
    | false => exact busy_of_not_idle hj rfl hasleep
    | true =>
      rcases hpcj : s.pc j with _ | _ | pc | _
      · simp [hpcj, stopping] at hj
      · simp [hpcj, stopping] at hj
      · exact hinv.busy_of_stopSleeper hpcj hasleep
      · simp [hpcj, stopping] at hj

end SinkSys

end AudioPath

end LeAudioReceiver
