import LeAudioReceiver.Offload.Lifecycle

/-!
# No stuck state of the offload

In PREPARING and in RECOVERING somebody has to be on the way to end the state: a pending work item,
a handler that runs for the current generation, or a call that is about to schedule one.  An item
that is running and being cancelled cannot be scheduled, so a start that overtakes a running
handler loses its preparation.

* `Sys.not_stuck` : in every run in which no needed scheduling is lost in this way, or rejected
  where nobody looks at the result, a state without a call in progress is not stuck.
-/

namespace LeAudioReceiver

namespace Offload

namespace Lifecycle

open WorkQueue

/-! ### Who ends a state -/

/-- The handler works for the generation. -/
def PrepPc.live (gen : UInt32) : PrepPc → Bool
  | .entry => true
  | .rings g | .reset g | .commit g _ | .retry g | .schedule g => g == gen
  | .finish => false

/-- The handler works for the generation. -/
def RecoveryPc.live (gen : UInt32) : RecoveryPc → Bool
  | .entry => true
  | .shortReset g | .verify g | .restart g | .restartFailed g | .rings g | .reset g | .commit g _
  | .retry g | .schedule g => g == gen
  | .finish => false

/-- The callback is about to schedule the recovery, or to count that it could not. -/
def HealthPc.schedules : HealthPc → Bool
  | .schedule | .countFail => true
  | .lock | .submitIdle | .clearIdle => false

/-- So is the submit. -/
def SubmitPc.schedules : SubmitPc → Bool
  | .schedule _ | .countFail _ => true
  | _ => false

/-- A preparation is running that does not ignore its result. -/
def Worker.prepLive (gen : UInt32) : Worker → Bool
  | .prep pc => pc.live gen
  | _ => false

/-- A recovery is running that does not ignore its result, or is being scheduled. -/
def Worker.recoveryLive (gen : UInt32) : Worker → Bool
  | .recovery pc => pc.live gen
  | .idleRestart (.health pc) => pc.schedules
  | _ => false

theorem Worker.eq_of_prepLive {gen : UInt32} {w : Worker} (h : w.prepLive gen = true) :
    ∃ pc, w = .prep pc ∧ pc.live gen = true := by
  cases w with
  | prep pc => exact ⟨pc, rfl, h⟩
  | _ => exact Bool.noConfusion h

theorem Worker.eq_of_recoveryLive {gen : UInt32} {w : Worker} (h : w.recoveryLive gen = true) :
    (∃ pc, w = .recovery pc) ∨ ∃ pc, w = .idleRestart (.health pc) := by
  cases w with
  | recovery pc => exact .inl ⟨pc, rfl⟩
  | idleRestart pc =>
    cases pc with
    | health pc => exact .inr ⟨pc, rfl⟩
    | _ => exact Bool.noConfusion h
  | _ => exact Bool.noConfusion h

/-- The call will leave PREPARING, or is about to schedule the preparation. -/
def Call.endsPreparing : Call → Bool
  | .startLock | .startSchedule | .stopLock => true
  | _ => false

/-- The call will leave RECOVERING, or is about to schedule the recovery. -/
def Call.endsRecovering : Call → Bool
  | .startCancelPrep | .startLock | .stopCancelPrep | .stopLock => true
  | .health pc => pc.schedules
  | .submit pc => pc.schedules
  | _ => false

/-- The call schedules the recovery. -/
def Call.schedulesRecovery : Call → Bool
  | .health .schedule | .submit (.schedule _) => true
  | _ => false

/-! ### One step -/

/-- A step of one thread, which was (`p`, `r`) and is now (`p'`, `r'`) about to end the two states:
whoever else was about to end a state still is. -/
structure Keeps (c c' : Core) (p r p' r' : Prop) : Prop where
  scheduled : c'.recoveryScheduled = true → c'.state = .recovering
  preparing : c'.state = .preparing → p' ∨ c'.prep.pending = true ∨
    (c.state = .preparing ∧ c'.generation = c.generation ∧
      (c.prep.pending = true → c'.prep.pending = true) ∧ ¬ p)
  recovering : c'.state = .recovering → r' ∨ 0 < c'.scheduleFails ∨ c'.recovery.pending = true ∨
    (c.state = .recovering ∧ c'.generation = c.generation ∧
      (0 < c.scheduleFails → 0 < c'.scheduleFails) ∧
      (c.recovery.pending = true → c'.recovery.pending = true) ∧ ¬ r)

theorem keeps_refl {c c' : Core} {p r p' r' : Prop}
    (hs : c.recoveryScheduled = true → c.state = .recovering)
    (hstate : c'.state = c.state) (hgen : c'.generation = c.generation)
    (hsched : c'.recoveryScheduled = true → c.recoveryScheduled = true)
    (hfails : 0 < c.scheduleFails → 0 < c'.scheduleFails)
    (hprep : c.state = .preparing → c.prep.pending = true → c'.prep.pending = true)
    (hrec : c.state = .recovering → c.recovery.pending = true → c'.recovery.pending = true)
    (hp : c.state = .preparing → p → p' ∨ c'.prep.pending = true)
    (hr : c.state = .recovering → r →
      r' ∨ 0 < c'.scheduleFails ∨ c'.recovery.pending = true) :
    Keeps c c' p r p' r' := by
  refine ⟨fun h => hstate.trans (hs (hsched h)), fun h => ?_, fun h => ?_⟩
  · have h₀ := hstate.symm.trans h
    by_cases hp₀ : p
    · rcases hp h₀ hp₀ with h | h
      · exact .inl h
      · exact .inr (.inl h)
    · exact .inr (.inr ⟨h₀, hgen, hprep h₀, hp₀⟩)
  · have h₀ := hstate.symm.trans h
    by_cases hr₀ : r
    · rcases hr h₀ hr₀ with h | h | h
      · exact .inl h
      · exact .inr (.inl h)
      · exact .inr (.inr (.inl h))
    · exact .inr (.inr (.inr ⟨h₀, hgen, hfails, hrec h₀, hr₀⟩))

theorem Keeps.mono {c c' : Core} {p r p' r' p₂ r₂ p₂' r₂' : Prop} (h : Keeps c c' p r p' r')
    (hp : p₂ → p) (hr : r₂ → r) (hp' : p' → p₂') (hr' : r' → r₂') : Keeps c c' p₂ r₂ p₂' r₂' :=
  ⟨h.scheduled,
    fun hstate => (h.preparing hstate).imp hp' (Or.imp_right fun ⟨h₁, h₂, h₃, h₄⟩ =>
      ⟨h₁, h₂, h₃, h₄ ∘ hp⟩),
    fun hstate => (h.recovering hstate).imp hr' (Or.imp_right (Or.imp_right
      fun ⟨h₁, h₂, h₃, h₄, h₅⟩ => ⟨h₁, h₂, h₃, h₄, h₅ ∘ hr⟩))⟩

theorem keeps_of_settled {c c' : Core} {p r p' r' : Prop} (hs : c'.recoveryScheduled = false)
    (hp : c'.state ≠ .preparing) (hr : c'.state ≠ .recovering) : Keeps c c' p r p' r' :=
  ⟨fun h => Bool.noConfusion (hs.symm.trans h), fun h => absurd h hp, fun h => absurd h hr⟩

section Steps

variable {c : Core} (hs : c.recoveryScheduled = true → c.state = .recovering) {L : Prop}
include hs

theorem scheduleRecovery_keeps {r : Result} {p p' r₀ r' : Prop} (hp : p → p')
    (hlost : c.state = .recovering → c.recovery.canceling = true → r')
    (hrejected : c.recovery.rejected r.accepted = true → r') :
    Keeps c (c.scheduleRecovery r) p r₀ p' r' := by
  refine keeps_refl hs rfl rfl id id (fun _ => id)
    (fun _ h => Item.schedule_pending_of_pending h _) (fun _ h => .inl (hp h)) fun hstate _ => ?_
  cases hc : c.recovery.canceling with
  | true => exact .inl (hlost hstate hc)
  | false =>
    cases hrej : c.recovery.rejected r.accepted with
    | true => exact .inl (hrejected hrej)
    | false => exact .inr (.inr (Item.schedule_pending hc hrej))

/-- Entering RECOVERING schedules the recovery, since no older schedule is outstanding. -/
theorem trySchedule_of_not_recovering (c' : Core) (hstate : c.state ≠ .recovering)
    (hs' : c'.recoveryScheduled = c.recoveryScheduled) (hc' : c'.state = .recovering) :
    c'.trySchedule = ({ c' with recoveryScheduled := true }, true) := by
  have hflag : c.recoveryScheduled = false := by
    by_contra h
    exact hstate (hs (by simpa using h))
  exact if_pos ⟨hc', hs'.trans hflag⟩

theorem health_keeps {r : Result} {pc : HealthPc}
    (hlost : pc = .schedule → c.state = .recovering → c.recovery.canceling = true → L) :
    Keeps c (c.health r pc).1 False (pc.schedules = true) False
      ((∃ pc', (c.health r pc).2 = some pc' ∧ pc'.schedules = true) ∨ L) := by
  have hrefl :
      ∀ {r' : Prop}, pc.schedules = false → Keeps c c False (pc.schedules = true) False r' :=
    fun h => keeps_refl hs rfl rfl id id (fun _ => id) (fun _ => id) (fun _ => False.elim)
      fun _ hsch => Bool.noConfusion (h.symm.trans hsch)
  cases pc with
  | lock =>
    have henter : c.state ≠ .recovering → Keeps c
        ({ c with state := .recovering }.trySchedule).1 False (HealthPc.lock.schedules = true) False
        ((∃ pc', (if ({ c with state := .recovering }.trySchedule).2 then some HealthPc.schedule
          else none) = some pc' ∧ pc'.schedules = true) ∨ L) := by
      intro hstate
      rw [trySchedule_of_not_recovering hs { c with state := .recovering } hstate rfl rfl]
      exact ⟨fun _ => rfl, fun h => State.noConfusion h, fun _ => .inl (.inl ⟨_, rfl, rfl⟩)⟩
    cases hstate : c.state with
    | active => simpa only [Core.health, hstate] using henter (by simp [hstate])
    | preparing => simpa only [Core.health, hstate] using henter (by simp [hstate])
    | recovering => simpa only [Core.health, hstate] using hrefl rfl
    | fallback => simpa only [Core.health, hstate] using hrefl rfl
    | stopped =>
      simp only [Core.health, hstate]
      split_ifs
      · exact hrefl rfl
      · exact keeps_refl hs hstate.symm rfl id id (fun _ => id) (fun _ => id)
          (fun _ => False.elim) fun _ hsch => Bool.noConfusion hsch
  | schedule =>
    refine scheduleRecovery_keeps hs id (fun h₁ h₂ => .inr (hlost rfl h₁ h₂)) fun hrej => ?_
    exact .inl ⟨.countFail, by simp [Core.health, hrej], rfl⟩
  | countFail =>
    exact keeps_refl hs rfl rfl (fun h => Bool.noConfusion h) (fun _ => Nat.succ_pos _)
      (fun _ => id) (fun _ => id) (fun _ => False.elim) fun _ _ => .inr (.inl (Nat.succ_pos _))
  | submitIdle =>
    cases r with
    | ok v =>
      exact keeps_refl hs rfl rfl id id (fun _ => id) (fun _ => id) (fun _ => False.elim)
        fun _ hsch => Bool.noConfusion hsch
    | fail => exact hrefl rfl
  | clearIdle =>
    exact keeps_refl hs rfl rfl id (fun _ => Nat.succ_pos _) (fun _ => id) (fun _ => id)
      (fun _ => False.elim) fun _ hsch => Bool.noConfusion hsch

omit hs in
theorem Keeps.endSubmit {c' : Core} {p r p' r' : Prop} (h : Keeps c c' p r p' r') (owns : Bool) :
    Keeps c (c'.endSubmit owns) p r p' r' := by
  cases owns with
  | true => exact ⟨h.scheduled, h.preparing, h.recovering⟩
  | false => exact h

theorem submit_keeps {r : Result} {pc : SubmitPc} {t : Core × Option SubmitPc}
    (ht : c.submit r pc = some t)
    (hlost : ∀ owns, pc = .schedule owns → c.state = .recovering →
      c.recovery.canceling = true → L) :
    Keeps c t.1 False (pc.schedules = true) False
      ((∃ pc', t.2 = some pc' ∧ pc'.schedules = true) ∨ L) := by
  -- a part that neither schedules nor counts leaves everything as it is
  have hrefl : ∀ {c' : Core} {r' : Prop}, pc.schedules = false → c'.state = c.state →
      c'.generation = c.generation → c'.recoveryScheduled = c.recoveryScheduled →
      c'.scheduleFails = c.scheduleFails → c'.prep = c.prep → c'.recovery = c.recovery →
      Keeps c c' False (pc.schedules = true) False r' := by
    intro c' r' hpc h₁ h₂ h₃ h₄ h₅ h₆
    refine keeps_refl hs h₁ h₂ (fun h => h₃ ▸ h) (fun h => h₄ ▸ h) (fun _ h => h₅ ▸ h)
      (fun _ h => h₆ ▸ h) (fun _ => False.elim) fun _ hsch => ?_
    exact Bool.noConfusion (hpc.symm.trans hsch)
  cases pc with
  | precheck =>
    simp only [Core.submit] at ht
    split_ifs at ht <;> obtain rfl := Option.some.inj ht <;> exact hrefl rfl rfl rfl rfl rfl rfl rfl
  | acquire t₀ =>
    simp only [Core.submit] at ht
    split at ht
    · obtain rfl := Option.some.inj ht
      exact hrefl rfl rfl rfl rfl rfl rfl rfl
    · split_ifs at ht
      obtain rfl := Option.some.inj ht
      exact hrefl rfl rfl rfl rfl rfl rfl rfl
  | postmutex t₀ =>
    simp only [Core.submit] at ht
    split_ifs at ht <;> obtain rfl := Option.some.inj ht <;> exact hrefl rfl rfl rfl rfl rfl rfl rfl
  | work t₀ =>
    simp only [Core.submit] at ht
    split at ht <;> obtain rfl := Option.some.inj ht <;> exact hrefl rfl rfl rfl rfl rfl rfl rfl
  | recheck t₀ =>
    simp only [Core.submit] at ht
    split_ifs at ht <;> obtain rfl := Option.some.inj ht <;> exact hrefl rfl rfl rfl rfl rfl rfl rfl
  | fault t₀ owns =>
    simp only [Core.submit] at ht
    split_ifs at ht with hcap hsched <;> obtain rfl := Option.some.inj ht
    · refine Keeps.endSubmit ?_ owns
      exact hrefl rfl rfl rfl rfl rfl rfl rfl
    · have hif : c.countFallback.recordFault.trySchedule =
          ({ c.countFallback.recordFault with recoveryScheduled := true }, true) := by
        refine if_pos (by_contra fun h => ?_)
        rw [Core.trySchedule, if_neg h] at hsched
        exact Bool.noConfusion hsched
      rw [hif]
      exact ⟨fun _ => rfl, fun h => State.noConfusion h, fun _ => .inl (.inl ⟨_, rfl, rfl⟩)⟩
    · -- nothing is scheduled only if a schedule is outstanding, and then this is RECOVERING
      have hnot : ¬ (c.countFallback.recordFault.state = .recovering ∧
          c.countFallback.recordFault.recoveryScheduled = false) := by
        intro h
        rw [Core.trySchedule, if_pos h] at hsched
        exact hsched rfl
      have hflag : c.recoveryScheduled = true := by
        by_contra h
        exact hnot ⟨rfl, Bool.not_eq_true _ ▸ h⟩
      rw [Core.trySchedule, if_neg hnot]
      refine Keeps.endSubmit ?_ owns
      exact hrefl rfl (hs hflag).symm rfl rfl rfl rfl rfl
  | schedule owns =>
    simp only [Core.submit] at ht
    split_ifs at ht with hrej <;> obtain rfl := Option.some.inj ht
    · exact scheduleRecovery_keeps hs id (fun h₁ h₂ => .inr (hlost owns rfl h₁ h₂)) fun _ =>
        .inl ⟨_, rfl, rfl⟩
    · exact (scheduleRecovery_keeps hs id (fun h₁ h₂ => .inr (hlost owns rfl h₁ h₂)) fun h =>
        absurd h hrej).endSubmit owns
  | countFail owns =>
    obtain rfl := Option.some.inj ht
    refine Keeps.endSubmit ?_ owns
    exact keeps_refl hs rfl rfl (fun h => Bool.noConfusion h) (fun _ => Nat.succ_pos _)
      (fun _ => id) (fun _ => id) (fun _ => False.elim) fun _ _ => .inr (.inl (Nat.succ_pos _))
  | commit t₀ =>
    simp only [Core.submit] at ht
    split_ifs at ht <;> obtain rfl := Option.some.inj ht <;> exact hrefl rfl rfl rfl rfl rfl rfl rfl

theorem call_keeps {r : Result} {call : Call} {t : Core × Option Call} {P : Prop}
    (ht : c.call r call = some t)
    (hprep : call = .startSchedule → c.state = .preparing →
      (c.prep.canceling = true → P) ∧ c.prep.rejected r.accepted = false)
    (hlost : call.schedulesRecovery = true → c.state = .recovering →
      c.recovery.canceling = true → L) :
    Keeps c t.1 (call.endsPreparing = true) (call.endsRecovering = true)
      ((∃ call', t.2 = some call' ∧ call'.endsPreparing = true) ∨ P)
      ((∃ call', t.2 = some call' ∧ call'.endsRecovering = true) ∨ L) := by
  -- who enters PREPARING or RECOVERING schedules the work, or still has to
  cases call with
  | startCancelRecovery | stopCancelRecovery =>
    obtain rfl := Option.some.inj ht
    refine ⟨hs, fun h => .inr (.inr ⟨h, rfl, id, by decide⟩), fun _ => .inl (.inl ⟨_, rfl, rfl⟩)⟩
  | startCancelPrep | stopCancelPrep =>
    obtain rfl := Option.some.inj ht
    exact ⟨hs, fun _ => .inl (.inl ⟨_, rfl, rfl⟩), fun _ => .inl (.inl ⟨_, rfl, rfl⟩)⟩
  | startLock =>
    obtain rfl := Option.some.inj ht
    exact ⟨fun h => Bool.noConfusion h, fun _ => .inl (.inl ⟨_, rfl, rfl⟩),
      fun h => State.noConfusion h⟩
  | stopLock =>
    obtain rfl := Option.some.inj ht
    exact keeps_of_settled rfl (by simp [Core.stopLocked]) (by simp [Core.stopLocked])
  | startSchedule =>
    obtain rfl := Option.some.inj ht
    refine keeps_refl hs rfl rfl id id (fun _ h => Item.schedule_pending_of_pending h _)
      (fun _ => id) (fun hstate _ => ?_) fun _ h => Bool.noConfusion h
    obtain ⟨hlive, hrej⟩ := hprep rfl hstate
    -- a cancellation in progress loses the scheduling
    cases hc : c.prep.canceling with
    | true => exact .inl (.inr (hlive hc))
    | false => exact .inr (Item.schedule_pending hc hrej)
  | health pc =>
    obtain rfl := Option.some.inj ht
    have hlost' : pc = .schedule → c.state = .recovering → c.recovery.canceling = true → L := by
      rintro rfl
      exact hlost rfl
    refine (health_keeps (r := r) hs hlost').mono (fun h => Bool.noConfusion h) id False.elim ?_
    rintro (⟨pc', hpc', hsch⟩ | hL)
    · exact .inl ⟨.health pc', by rw [hpc']; rfl, hsch⟩
    · exact .inr hL
  | submit pc =>
    obtain ⟨t', ht', rfl⟩ := Option.map_eq_some_iff.1 ht
    have hlost' : ∀ owns, pc = .schedule owns → c.state = .recovering →
        c.recovery.canceling = true → L := by
      rintro owns rfl
      exact hlost rfl
    refine (submit_keeps hs ht' hlost').mono (fun h => Bool.noConfusion h) id False.elim ?_
    rintro (⟨pc', hpc', hsch⟩ | hL)
    · exact .inl ⟨.submit pc', by rw [hpc']; rfl, hsch⟩
    · exact .inr hL

theorem recoveryScheduled_eq_false (h : c.state ≠ .recovering) : c.recoveryScheduled = false := by
  by_contra hflag
  exact h (hs (by simpa using hflag))

theorem prepWork_keeps {r : Result} {pc : PrepPc}
    (hsched : ∀ g, pc = .schedule g → c.state = .preparing → g = c.generation →
      c.prep.canceling = false ∧ c.prep.rejected r.accepted = false) :
    Keeps c (c.prepWork r pc).1 (pc.live c.generation = true) False
      ((c.prepWork r pc).2.live (c.prepWork r pc).1.generation = true) False := by
  have hrefl : ∀ {p' : Prop}, (c.state = .preparing → pc.live c.generation = true → p') →
      Keeps c c (pc.live c.generation = true) False p' False := fun hp =>
    keeps_refl hs rfl rfl id id (fun _ => id) (fun _ => id) (fun h₁ h₂ => .inl (hp h₁ h₂))
      fun _ => False.elim
  -- a live handler ends PREPARING itself, or schedules the next attempt
  cases pc with
  | entry =>
    simp only [Core.prepWork]
    split_ifs with hstate htries
    · exact hrefl fun h => absurd h hstate
    · have hprep : c.state = .preparing := not_not.1 hstate
      have hflag := recoveryScheduled_eq_false hs (by simp [hprep])
      exact keeps_of_settled hflag (by simp) (by simp)
    · exact hrefl fun _ _ => beq_self_eq_true _
  | rings g =>
    simp only [Core.prepWork]
    split_ifs
    · exact hrefl fun _ => id
    · cases r with
      | ok v =>
        exact keeps_refl hs rfl rfl id id (fun _ => id) (fun _ => id) (fun _ h => .inl h)
          fun _ => False.elim
      | fail => exact hrefl fun _ => id
  | reset g =>
    cases r with
    | ok v => exact hrefl fun _ => id
    | fail => exact hrefl fun _ => id
  | commit g epoch =>
    simp only [Core.prepWork]
    split_ifs with hcond
    · refine hrefl fun hstate hlive => ?_
      rcases hcond with h | h
      · exact absurd hstate h
      · exact absurd (beq_iff_eq.1 hlive).symm h
    · obtain ⟨hstate, -⟩ := not_or.1 hcond
      have hprep : c.state = .preparing := not_not.1 hstate
      have hflag := recoveryScheduled_eq_false hs (by simp [hprep])
      exact keeps_of_settled hflag (by simp [Core.prepActive]) (by simp [Core.prepActive])
  | retry g =>
    simp only [Core.prepWork]
    split_ifs with hcond
    · exact keeps_refl hs rfl rfl id id (fun _ => id) (fun _ => id) (fun _ h => .inl h)
        fun _ => False.elim
    · exact hrefl fun hstate hlive => absurd ⟨hstate, (beq_iff_eq.1 hlive).symm⟩ hcond
  | schedule g =>
    refine keeps_refl hs rfl rfl id id (fun _ h => Item.schedule_pending_of_pending h _)
      (fun _ => id) (fun hstate hlive => ?_) fun _ => False.elim
    obtain ⟨hc, hrej⟩ := hsched g rfl hstate (beq_iff_eq.1 hlive)
    exact .inr (Item.schedule_pending hc hrej)
  | finish => exact hrefl fun _ => id

omit hs in
theorem unschedule_keeps {g : UInt32} {p p' r' : Prop} (hp : p → p')
    (hcond : c.state = .recovering → c.generation ≠ g) :
    Keeps c c.unschedule p ((g == c.generation) = true) p' r' := by
  refine ⟨fun h => Bool.noConfusion h, fun h => ?_, fun h => ?_⟩
  · by_cases hp₀ : p
    · exact .inl (hp hp₀)
    · exact .inr (.inr ⟨h, rfl, id, hp₀⟩)
  · exact .inr (.inr (.inr ⟨h, rfl, id, id, fun hlive => hcond h (beq_iff_eq.1 hlive).symm⟩))

omit hs in
theorem recoveryAgain_keeps {g : UInt32} :
    Keeps c (c.recoveryAgain g).1 False ((g == c.generation) = true) False
      ((c.recoveryAgain g).2.live (c.recoveryAgain g).1.generation = true) := by
  unfold Core.recoveryAgain
  split_ifs with hcond
  · refine ⟨fun h => Bool.noConfusion h, fun h => ?_, fun _ => .inl (beq_iff_eq.2 hcond.2.symm)⟩
    exact State.noConfusion (hcond.1.symm.trans h)
  · exact unschedule_keeps id fun hstate hgen => hcond ⟨hstate, hgen⟩

theorem recoveryWork_keeps {r : Result} {pc : RecoveryPc}
    (hsched : ∀ g, pc = .schedule g → c.state = .recovering → g = c.generation →
      c.recovery.canceling = false ∧ c.recovery.rejected r.accepted = false) :
    Keeps c (c.recoveryWork r pc).1 False (pc.live c.generation = true) False
      ((c.recoveryWork r pc).2.live (c.recoveryWork r pc).1.generation = true) := by
  have hrefl : ∀ {r' : Prop}, (pc.live c.generation = true → r') →
      Keeps c c False (pc.live c.generation = true) False r' := fun hr =>
    keeps_refl hs rfl rfl id id (fun _ => id) (fun _ => id) (fun _ => False.elim)
      fun _ h => .inl (hr h)
  cases pc with
  | entry =>
    simp only [Core.recoveryWork]
    split_ifs with hstate htries
    · exact ⟨fun h => Bool.noConfusion h, fun h => .inr (.inr ⟨h, rfl, id, False.elim⟩),
        fun h => absurd h hstate⟩
    · exact keeps_of_settled rfl (by simp) (by simp)
    · exact keeps_refl hs rfl rfl id id (fun _ => id) (fun _ => id) (fun _ => False.elim)
        fun _ _ => .inl (beq_self_eq_true _)
  | shortReset g | restart g | rings g | reset g =>
    cases r with
    | ok v => exact hrefl id
    | fail => exact hrefl id
  | verify g =>
    simp only [Core.recoveryWork]
    split_ifs with hcond
    · exact unschedule_keeps id fun hstate => hcond.resolve_left (not_not.2 hstate)
    · exact hrefl id
  | restartFailed g | retry g => exact recoveryAgain_keeps
  | commit g epoch =>
    simp only [Core.recoveryWork]
    split_ifs with hcond
    · exact unschedule_keeps id fun hstate => hcond.resolve_left (not_not.2 hstate)
    · exact keeps_of_settled rfl (by simp [Core.recoveryActive]) (by simp [Core.recoveryActive])
  | schedule g =>
    refine keeps_refl hs rfl rfl id id (fun _ => id)
      (fun _ h => Item.schedule_pending_of_pending h _) (fun _ => False.elim) fun hstate hlive => ?_
    obtain ⟨hc, hrej⟩ := hsched g rfl hstate (beq_iff_eq.1 hlive)
    exact .inr (.inr (Item.schedule_pending hc hrej))
  | finish => exact hrefl id

theorem idleRestartWork_keeps {r : Result} {pc : IdlePc} {t : Core × IdlePc}
    (ht : c.idleRestartWork r pc = some t) (hrun : c.recovery.canceling = false) :
    Keeps c t.1 False ((Worker.idleRestart pc).recoveryLive c.generation = true) False
      ((Worker.idleRestart t.2).recoveryLive t.1.generation = true) := by
  have hrefl : ∀ {c' : Core} {r' : Prop},
      (Worker.idleRestart pc).recoveryLive c.generation = false → c'.state = c.state →
      c'.generation = c.generation → c'.recoveryScheduled = c.recoveryScheduled →
      c'.scheduleFails = c.scheduleFails → c'.prep = c.prep → c'.recovery = c.recovery →
      Keeps c c' False ((Worker.idleRestart pc).recoveryLive c.generation = true) False r' := by
    intro c' r' hpc h₁ h₂ h₃ h₄ h₅ h₆
    refine keeps_refl hs h₁ h₂ (fun h => h₃ ▸ h) (fun h => h₄ ▸ h) (fun _ h => h₅ ▸ h)
      (fun _ h => h₆ ▸ h) (fun _ => False.elim) fun _ hsch => ?_
    exact Bool.noConfusion (hpc.symm.trans hsch)
  cases pc with
  | entry =>
    simp only [Core.idleRestartWork] at ht
    split_ifs at ht <;> obtain rfl := Option.some.inj ht <;> exact hrefl rfl rfl rfl rfl rfl rfl rfl
  | restart =>
    simp only [Core.idleRestartWork] at ht
    split at ht <;> obtain rfl := Option.some.inj ht <;> exact hrefl rfl rfl rfl rfl rfl rfl rfl
  | done ringsOk | clear | finish =>
    obtain rfl := Option.some.inj ht
    exact hrefl rfl rfl rfl rfl rfl rfl rfl
  | health pc =>
    obtain rfl := Option.some.inj ht
    have hlost : pc = .schedule → c.state = .recovering → c.recovery.canceling = true → False :=
      fun _ _ h => Bool.noConfusion (hrun.symm.trans h)
    refine (health_keeps (r := r) hs hlost).mono id id id ?_
    rintro (⟨pc', hpc', hsch⟩ | hfalse)
    · dsimp only
      rw [hpc']
      exact hsch
    · exact hfalse.elim

end Steps

/-! ### What the steps leave alone -/

section Frame

variable {c : Core} {r : Result}

theorem health_running (pc : HealthPc) :
    (c.health r pc).1.recovery.running = c.recovery.running := by
  cases pc with
  | lock =>
    simp only [Core.health, Core.trySchedule]
    split <;> (try split_ifs) <;> rfl
  | schedule => exact Item.schedule_running _
  | countFail | clearIdle => rfl
  | submitIdle => cases r <;> rfl

@[simp]
theorem endSubmit_recovery (owns : Bool) : (c.endSubmit owns).recovery = c.recovery := by
  cases owns <;> rfl

@[simp]
theorem endSubmit_generation (owns : Bool) : (c.endSubmit owns).generation = c.generation := by
  cases owns <;> rfl

@[simp]
theorem trySchedule_recovery : c.trySchedule.1.recovery = c.recovery := by
  unfold Core.trySchedule
  split_ifs <;> rfl

theorem submit_running {pc : SubmitPc} {t : Core × Option SubmitPc}
    (ht : c.submit r pc = some t) : t.1.recovery.running = c.recovery.running := by
  cases pc with
  | acquire t₀ | work t₀ =>
    simp only [Core.submit] at ht
    split at ht <;> (try split_ifs at ht) <;> obtain rfl := Option.some.inj ht <;> rfl
  | fault t₀ owns =>
    simp only [Core.submit] at ht
    split_ifs at ht <;> obtain rfl := Option.some.inj ht <;>
      simp [Core.countFallback, Core.recordFault]
  | schedule owns =>
    simp only [Core.submit] at ht
    split_ifs at ht <;> obtain rfl := Option.some.inj ht <;> simp [Core.scheduleRecovery]
  | countFail owns =>
    obtain rfl := Option.some.inj ht
    simp [Core.countScheduleFail]
  | precheck | postmutex t₀ | recheck t₀ | commit t₀ =>
    simp only [Core.submit] at ht
    split_ifs at ht <;> obtain rfl := Option.some.inj ht <;> rfl

theorem call_running {call : Call} {t : Core × Option Call} (ht : c.call r call = some t) :
    t.1.recovery.running = c.recovery.running := by
  cases call with
  | health pc =>
    obtain rfl := Option.some.inj ht
    exact health_running pc
  | submit pc =>
    obtain ⟨t', ht', rfl⟩ := Option.map_eq_some_iff.1 ht
    exact submit_running ht'
  | _ =>
    obtain rfl := Option.some.inj ht
    rfl

theorem call_generation {call : Call} {t : Core × Option Call} (h : call.schedulesRecovery = true)
    (ht : c.call r call = some t) : t.1.generation = c.generation := by
  match call, h with
  | .health .schedule, _ =>
    obtain rfl := Option.some.inj ht
    rfl
  | .submit (.schedule owns), _ =>
    obtain ⟨t', ht', rfl⟩ := Option.map_eq_some_iff.1 ht
    simp only [Core.submit] at ht'
    split_ifs at ht' <;> obtain rfl := Option.some.inj ht' <;> simp [Core.scheduleRecovery]

theorem prepWork_recovery (pc : PrepPc) : (c.prepWork r pc).1.recovery = c.recovery := by
  cases pc with
  | reset g => cases r <;> rfl
  | rings g =>
    simp only [Core.prepWork]
    split_ifs
    · rfl
    · cases r <;> rfl
  | schedule g | finish => rfl
  | entry | commit g epoch | retry g =>
    simp only [Core.prepWork]
    split_ifs <;> rfl

theorem idleRestartWork_running {pc : IdlePc} {t : Core × IdlePc}
    (ht : c.idleRestartWork r pc = some t) : t.1.recovery.running = c.recovery.running := by
  cases pc with
  | entry =>
    simp only [Core.idleRestartWork] at ht
    split_ifs at ht <;> obtain rfl := Option.some.inj ht <;> rfl
  | restart =>
    simp only [Core.idleRestartWork] at ht
    split at ht <;> obtain rfl := Option.some.inj ht <;> rfl
  | health pc =>
    obtain rfl := Option.some.inj ht
    exact health_running pc
  | done ringsOk | clear | finish =>
    obtain rfl := Option.some.inj ht
    rfl

end Frame

/-! ### Runs -/

namespace Sys

variable {ι : Type*}

/-- The condition on a step.  A scheduling that the state depends on is not lost to a handler that
is being cancelled and will ignore its result, and is not rejected where the result is not
checked: in `schedule_prep`, and where the recovery schedules itself again. -/
def scheduleKept (s : Sys ι) : Action ι → Bool
  | .call i r =>
    match s.calls i with
    | some .startSchedule =>
      s.core.state != .preparing ||
        ((!s.core.prep.canceling || s.worker.prepLive s.core.generation) &&
          !s.core.prep.rejected r.accepted)
    | some (.health .schedule) | some (.submit (.schedule _)) =>
      s.core.state != .recovering || !s.core.recovery.canceling ||
        s.worker.recoveryLive s.core.generation
    | _ => true
  | .worker r =>
    match s.worker with
    | .prep (.schedule g) =>
      s.core.state != .preparing || g != s.core.generation ||
        (!s.core.prep.canceling && !s.core.prep.rejected r.accepted)
    | .recovery (.schedule g) =>
      s.core.state != .recovering || g != s.core.generation ||
        (!s.core.recovery.canceling && !s.core.recovery.rejected r.accepted)
    | _ => true
  | _ => true

/-- Some call in progress is of this kind. -/
def Calling (s : Sys ι) (P : Call → Bool) : Prop := ∃ i call, s.calls i = some call ∧ P call = true

/-- Somebody is about to end PREPARING, and RECOVERING. -/
structure Inv (s : Sys ι) : Prop where
  scheduled : s.core.recoveryScheduled = true → s.core.state = .recovering
  running : s.core.recovery.running = true → ∃ pc, s.worker = .recovery pc
  preparing : s.core.state = .preparing →
    s.Calling Call.endsPreparing ∨ s.core.prep.pending = true ∨
      s.worker.prepLive s.core.generation = true
  recovering : s.core.state = .recovering →
    s.Calling Call.endsRecovering ∨ 0 < s.core.scheduleFails ∨ s.core.recovery.pending = true ∨
      s.worker.recoveryLive s.core.generation = true

variable {s : Sys ι}

theorem Inv.of_worker (h : s.Inv) {c : Core} {w : Worker}
    (hkeeps : Keeps s.core c (s.worker.prepLive s.core.generation = true)
      (s.worker.recoveryLive s.core.generation = true) (w.prepLive c.generation = true)
      (w.recoveryLive c.generation = true))
    (hrun : c.recovery.running = true → ∃ pc, w = .recovery pc) :
    Inv { s with core := c, worker := w } := by
  refine ⟨hkeeps.scheduled, hrun, fun hstate => ?_, fun hstate => ?_⟩
  · rcases hkeeps.preparing hstate with hlive | hpend | ⟨hstate₀, -, hpend, hnot⟩
    · exact .inr (.inr hlive)
    · exact .inr (.inl hpend)
    · rcases h.preparing hstate₀ with hcall | hpend₀ | hlive
      · exact .inl hcall
      · exact .inr (.inl (hpend hpend₀))
      · exact absurd hlive hnot
  · rcases hkeeps.recovering hstate with hlive | hfail | hpend | ⟨hstate₀, -, hfail, hpend, hnot⟩
    · exact .inr (.inr (.inr hlive))
    · exact .inr (.inl hfail)
    · exact .inr (.inr (.inl hpend))
    · rcases h.recovering hstate₀ with hcall | hfail₀ | hpend₀ | hlive
      · exact .inl hcall
      · exact .inr (.inl (hfail hfail₀))
      · exact .inr (.inr (.inl (hpend hpend₀)))
      · exact absurd hlive hnot

theorem Inv.not_running (h : s.Inv) (hw : ∀ pc, s.worker ≠ .recovery pc) :
    s.core.recovery.running = false := by
  by_contra hrun
  obtain ⟨pc, hpc⟩ := h.running (by simpa using hrun)
  exact hw pc hpc

theorem inv_prepWork (h : s.Inv) {r : Result} {pc : PrepPc} {t : Core × Worker}
    (hw : s.worker = .prep pc) (hok : s.scheduleKept (.worker r) = true)
    (ht : s.core.work r s.worker = some t) : Inv { s with core := t.1, worker := t.2 } := by
  have hrun : s.core.recovery.running = false := h.not_running (by simp [hw])
  have hsched : ∀ g, pc = .schedule g → s.core.state = .preparing → g = s.core.generation →
      s.core.prep.canceling = false ∧ s.core.prep.rejected r.accepted = false := by
    rintro g rfl hstate hg
    simpa [scheduleKept, hw, hstate, hg] using hok
  rw [hw] at ht
  by_cases hpc : pc = .finish
  · subst hpc
    obtain rfl := Option.some.inj ht
    refine h.of_worker (keeps_refl h.scheduled rfl rfl id id (fun _ => id) (fun _ => id)
      (fun _ hlive => ?_) fun _ hlive => ?_) fun h₁ => Bool.noConfusion (hrun.symm.trans h₁)
    · rw [hw] at hlive
      exact Bool.noConfusion hlive
    · rw [hw] at hlive
      exact Bool.noConfusion hlive
  · have ht' : t = ((s.core.prepWork r pc).1, .prep (s.core.prepWork r pc).2) := by
      cases pc <;> first | exact absurd rfl hpc | exact (Option.some.inj ht).symm
    subst ht'
    refine h.of_worker ((prepWork_keeps h.scheduled hsched).mono ?_ ?_ id False.elim) ?_
    · rw [hw]
      exact id
    · rw [hw]
      exact fun hlive => Bool.noConfusion hlive
    · intro h₁
      dsimp only at h₁
      rw [prepWork_recovery, hrun] at h₁
      exact Bool.noConfusion h₁

theorem inv_recoveryWork (h : s.Inv) {r : Result} {pc : RecoveryPc} {t : Core × Worker}
    (hw : s.worker = .recovery pc) (hok : s.scheduleKept (.worker r) = true)
    (ht : s.core.work r s.worker = some t) : Inv { s with core := t.1, worker := t.2 } := by
  have hsched : ∀ g, pc = .schedule g → s.core.state = .recovering → g = s.core.generation →
      s.core.recovery.canceling = false ∧ s.core.recovery.rejected r.accepted = false := by
    rintro g rfl hstate hg
    simpa [scheduleKept, hw, hstate, hg] using hok
  rw [hw] at ht
  by_cases hpc : pc = .finish
  · subst hpc
    obtain rfl := Option.some.inj ht
    refine h.of_worker (keeps_refl h.scheduled rfl rfl id id (fun _ => id) (fun _ => id)
      (fun _ hlive => ?_) fun _ hlive => ?_) fun h₁ => Bool.noConfusion h₁
    · rw [hw] at hlive
      exact Bool.noConfusion hlive
    · rw [hw] at hlive
      exact Bool.noConfusion hlive
  · have ht' : t = ((s.core.recoveryWork r pc).1, .recovery (s.core.recoveryWork r pc).2) := by
      cases pc <;> first | exact absurd rfl hpc | exact (Option.some.inj ht).symm
    subst ht'
    refine h.of_worker ((recoveryWork_keeps h.scheduled hsched).mono ?_ ?_ False.elim id)
      fun _ => ⟨_, rfl⟩
    · rw [hw]
      exact fun hlive => Bool.noConfusion hlive
    · rw [hw]
      exact id

theorem inv_idleRestartWork (h : s.Inv) {r : Result} {pc : IdlePc} {t : Core × Worker}
    (hw : s.worker = .idleRestart pc) (ht : s.core.work r s.worker = some t) :
    Inv { s with core := t.1, worker := t.2 } := by
  have hrun : s.core.recovery.running = false := h.not_running (by simp [hw])
  rw [hw] at ht
  by_cases hpc : pc = .finish
  · subst hpc
    obtain rfl := Option.some.inj ht
    refine h.of_worker (keeps_refl h.scheduled rfl rfl id id (fun _ => id) (fun _ => id)
      (fun _ hlive => ?_) fun _ hlive => ?_) fun h₁ => Bool.noConfusion (hrun.symm.trans h₁)
    · rw [hw] at hlive
      exact Bool.noConfusion hlive
    · rw [hw] at hlive
      exact Bool.noConfusion hlive
  · rw [Core.work_idleRestart hpc] at ht
    obtain ⟨u, hu, rfl⟩ := Option.map_eq_some_iff.1 ht
    refine h.of_worker ((idleRestartWork_keeps h.scheduled hu
      (Item.canceling_of_running hrun)).mono ?_ ?_ False.elim id) ?_
    · rw [hw]
      exact fun hlive => Bool.noConfusion hlive
    · rw [hw]
      exact id
    · intro h₁
      dsimp only at h₁
      rw [idleRestartWork_running hu, hrun] at h₁
      exact Bool.noConfusion h₁

variable [DecidableEq ι]

theorem calling_update {i : ι} {call : Call} {next : Option Call} {P : Call → Bool} {s' : Sys ι}
    (hi : s.calls i = some call) (hcalls : s'.calls = Function.update s.calls i next)
    (h : (∃ call', next = some call' ∧ P call' = true) ∨ (s.Calling P ∧ ¬ P call = true)) :
    s'.Calling P := by
  rcases h with ⟨call', rfl, hP⟩ | ⟨⟨j, call', hj, hP⟩, hnot⟩
  · exact ⟨i, call', by rw [hcalls, Function.update_self], hP⟩
  · have hne : j ≠ i := by
      rintro rfl
      obtain rfl := Option.some.inj (hi.symm.trans hj)
      exact hnot hP
    exact ⟨j, call', by rw [hcalls, Function.update_of_ne hne]; exact hj, hP⟩

theorem inv_call (h : s.Inv) {i : ι} {r : Result} {call : Call} {t : Core × Option Call}
    (hi : s.calls i = some call) (hok : s.scheduleKept (.call i r) = true)
    (ht : s.core.call r call = some t) :
    Inv { s with core := t.1, calls := Function.update s.calls i t.2 } := by
  have hprep : call = .startSchedule → s.core.state = .preparing →
      (s.core.prep.canceling = true → s.worker.prepLive t.1.generation = true) ∧
        s.core.prep.rejected r.accepted = false := by
    rintro rfl hstate
    obtain rfl := Option.some.inj ht
    simp only [scheduleKept, hi, hstate, bne_self_eq_false, Bool.false_or, Bool.and_eq_true,
      Bool.or_eq_true, Bool.not_eq_true'] at hok
    exact ⟨fun hc => hok.1.resolve_left (by simp [hc]), hok.2⟩
  have hlost : call.schedulesRecovery = true → s.core.state = .recovering →
      s.core.recovery.canceling = true → s.worker.recoveryLive t.1.generation = true := by
    intro hsch hstate hc
    have hlive : s.worker.recoveryLive s.core.generation = true := by
      match call, hsch with
      | .health .schedule, _ | .submit (.schedule _), _ =>
        simp only [scheduleKept, hi, hstate, bne_self_eq_false, hc, Bool.not_true,
          Bool.false_or] at hok
        exact hok
    rw [call_generation hsch ht]
    exact hlive
  have hkeeps := call_keeps h.scheduled ht hprep hlost
  refine ⟨hkeeps.scheduled, fun hrun => h.running (call_running ht ▸ hrun), fun hstate => ?_,
    fun hstate => ?_⟩
  · rcases hkeeps.preparing hstate with (hcall | hlive) | hpend | ⟨hstate₀, hgen, hpend, hnot⟩
    · exact .inl (calling_update hi rfl (.inl hcall))
    · exact .inr (.inr hlive)
    · exact .inr (.inl hpend)
    · rcases h.preparing hstate₀ with hcall | hpend₀ | hlive
      · exact .inl (calling_update hi rfl (.inr ⟨hcall, hnot⟩))
      · exact .inr (.inl (hpend hpend₀))
      · exact .inr (.inr (hgen ▸ hlive))
  · rcases hkeeps.recovering hstate with
      (hcall | hlive) | hfail | hpend | ⟨hstate₀, hgen, hfail, hpend, hnot⟩
    · exact .inl (calling_update hi rfl (.inl hcall))
    · exact .inr (.inr (.inr hlive))
    · exact .inr (.inl hfail)
    · exact .inr (.inr (.inl hpend))
    · rcases h.recovering hstate₀ with hcall | hfail₀ | hpend₀ | hlive
      · exact .inl (calling_update hi rfl (.inr ⟨hcall, hnot⟩))
      · exact .inr (.inl (hfail hfail₀))
      · exact .inr (.inr (.inl (hpend hpend₀)))
      · exact .inr (.inr (.inr (hgen ▸ hlive)))

theorem inv_next (h : s.Inv) {a : Action ι} {s' : Sys ι} (hok : s.scheduleKept a = true)
    (hnext : s.next a = some s') : s'.Inv := by
  cases a with
  | enter i api =>
    simp only [next] at hnext
    split_ifs at hnext with hi
    obtain rfl := Option.some.inj hnext
    -- the calls that were there are those of other threads
    have hold : ∀ {P}, s.Calling P →
        Calling { s with calls := Function.update s.calls i (some api.first) } P := by
      rintro P ⟨j, call, hj, hP⟩
      have hne : j ≠ i := by
        rintro rfl
        exact absurd (hi.symm.trans hj) (by simp)
      exact ⟨j, call, (Function.update_of_ne hne ..).trans hj, hP⟩
    exact ⟨h.scheduled, h.running, fun hstate => (h.preparing hstate).imp_left hold,
      fun hstate => (h.recovering hstate).imp_left hold⟩
  | call i r =>
    simp only [next] at hnext
    cases hi : s.calls i with
    | none => simp only [hi] at hnext; cases hnext
    | some call =>
      simp only [hi] at hnext
      obtain ⟨t, ht, rfl⟩ := Option.map_eq_some_iff.1 hnext
      exact inv_call h hi hok ht
  | takePrep =>
    simp only [next] at hnext
    split_ifs at hnext with hcond
    obtain rfl := Option.some.inj hnext
    have hrun : s.core.recovery.running = false := h.not_running (by simp [hcond.1])
    refine h.of_worker ⟨h.scheduled, fun _ => .inl rfl, fun hstate => ?_⟩ fun h₁ =>
      Bool.noConfusion (hrun.symm.trans h₁)
    exact .inr (.inr (.inr ⟨hstate, rfl, id, id, by simp [hcond.1, Worker.recoveryLive]⟩))
  | takeRecovery =>
    simp only [next] at hnext
    split_ifs at hnext with hcond
    obtain rfl := Option.some.inj hnext
    refine h.of_worker ⟨h.scheduled, fun hstate => ?_, fun _ => .inl rfl⟩ fun _ => ⟨_, rfl⟩
    exact .inr (.inr ⟨hstate, rfl, id, by simp [hcond.1, Worker.prepLive]⟩)
  | takeIdle =>
    simp only [next] at hnext
    split_ifs at hnext with hcond
    obtain rfl := Option.some.inj hnext
    have hrun : s.core.recovery.running = false := h.not_running (by simp [hcond.1])
    refine h.of_worker ⟨h.scheduled, fun hstate => ?_, fun hstate => ?_⟩ fun h₁ =>
      Bool.noConfusion (hrun.symm.trans h₁)
    · exact .inr (.inr ⟨hstate, rfl, id, by simp [hcond.1, Worker.prepLive]⟩)
    · exact .inr (.inr (.inr ⟨hstate, rfl, id, id, by simp [hcond.1, Worker.recoveryLive]⟩))
  | worker r =>
    obtain ⟨t, ht, rfl⟩ := Option.map_eq_some_iff.1 hnext
    cases hw : s.worker with
    | idle =>
      rw [hw] at ht
      cases ht
    | prep pc => exact inv_prepWork h hw hok ht
    | recovery pc => exact inv_recoveryWork h hw hok ht
    | idleRestart pc => exact inv_idleRestartWork h hw ht

theorem inv_of_reachableBy (h : (machine ι).ReachableBy (fun s a => s.scheduleKept a = true) s) :
    s.Inv := by
  refine h.invariant ?_ fun s a s' hs hok hnext => inv_next hs hok hnext
  rintro s ⟨ringsReady, rfl⟩
  exact ⟨fun h => Bool.noConfusion h, fun h => Bool.noConfusion h, fun h => State.noConfusion h,
    fun h => State.noConfusion h⟩

/-- No public call is in progress, neither by a caller nor by the idle restart. -/
def Idle (s : Sys ι) : Prop := (∀ i, s.calls i = none) ∧ ∀ pc, s.worker ≠ .idleRestart (.health pc)

/-- PREPARING has a pending preparation, or one that runs for the current generation; RECOVERING
has a pending or running recovery, or a failed scheduling was counted. -/
def NotStuck (s : Sys ι) : Prop :=
  (s.core.state = .preparing → s.core.prep.pending = true ∨
    ∃ pc, s.worker = .prep pc ∧ pc.live s.core.generation = true) ∧
  (s.core.state = .recovering → s.core.recovery.pending = true ∨
    (∃ pc, s.worker = .recovery pc) ∨ 0 < s.core.scheduleFails)

/-- **No stuck state.**  In every run whose steps meet the condition, a state without a call in
progress is not stuck. -/
theorem not_stuck (h : (machine ι).ReachableBy (fun s a => s.scheduleKept a = true) s)
    (hidle : s.Idle) : s.NotStuck := by
  have hinv := inv_of_reachableBy h
  have hnone : ∀ {P}, ¬ s.Calling P := by
    rintro P ⟨i, call, hi, -⟩
    exact absurd ((hidle.1 i).symm.trans hi) (by simp)
  refine ⟨fun hstate => ?_, fun hstate => ?_⟩
  · rcases hinv.preparing hstate with hcall | hpend | hlive
    · exact absurd hcall hnone
    · exact .inl hpend
    · exact .inr (Worker.eq_of_prepLive hlive)
  · rcases hinv.recovering hstate with hcall | hfail | hpend | hlive
    · exact absurd hcall hnone
    · exact .inr (.inr hfail)
    · exact .inl hpend
    · rcases Worker.eq_of_recoveryLive hlive with hrec | ⟨pc, hpc⟩
      · exact .inr (.inl hrec)
      · exact absurd hpc (hidle.2 pc)

/-! ### Two runs -/

/-- A whole call of one thread, every result being a success. -/
def whole (api : Api) (n : ℕ) : List (Action Unit) :=
  .enter () api :: List.replicate n (.call () (.ok 1))

/-- A stream starts, and its preparation runs to the exchange with the other core. -/
def preparing : List (Action Unit) :=
  whole .streamStart 4 ++ [.takePrep, .worker (.ok 1)]

theorem start_reachable {ok : Sys Unit → Action Unit → Prop} :
    (machine Unit).ReachableBy ok (start true) :=
  .init ⟨true, rfl⟩

/-- The preparation runs for the generation of the start. -/
theorem not_stuck_preparing :
    ∃ s, (machine Unit).ReachableBy (fun s a => s.scheduleKept a = true) s ∧ s.Idle ∧
      s.core.state = .preparing ∧ s.NotStuck := by
  have hrun : ((machine Unit).runBy (fun s a => s.scheduleKept a = true) (start true)
      preparing).map (fun s => (s.core.state, s.calls (), s.worker)) =
      some (.preparing, none, .prep (.rings 1)) := by decide +kernel
  obtain ⟨s, hs, h⟩ := Option.map_eq_some_iff.1 hrun
  obtain ⟨hstate, hcalls, hw⟩ : _ ∧ _ ∧ _ := by simpa only [Prod.mk.injEq] using h
  have hreach := start_reachable.runBy hs
  have hidle : s.Idle := ⟨fun _ => hcalls, by simp [hw]⟩
  exact ⟨s, hreach, hidle, hstate, not_stuck hreach hidle⟩

/-- The stream stops and starts again while the preparation is in the exchange: the new start
cannot schedule it, and the old one ignores its result. -/
theorem stuck_of_restart :
    ∃ s, (machine Unit).Reachable s ∧ s.Idle ∧ s.core.state = .preparing ∧
      s.core.prep.pending = false ∧ s.worker = .idle ∧ ¬ s.NotStuck := by
  have hrun : ((machine Unit).run (start true) (preparing ++ whole .streamStop 3 ++
      whole .streamStart 4 ++ List.replicate 4 (.worker (.ok 1)))).map
      (fun s => (s.core.state, s.calls (), s.core.prep.pending, s.worker)) =
      some (.preparing, none, false, .idle) := by decide +kernel
  obtain ⟨s, hs, h⟩ := Option.map_eq_some_iff.1 hrun
  obtain ⟨hstate, hcalls, hpend, hw⟩ : _ ∧ _ ∧ _ ∧ _ := by simpa only [Prod.mk.injEq] using h
  refine ⟨s, Machine.Reachable.run start_reachable hs, ⟨fun _ => hcalls, by simp [hw]⟩, hstate,
    hpend, hw, fun hnot => ?_⟩
  rcases hnot.1 hstate with h₁ | ⟨pc, h₁, -⟩
  · exact Bool.noConfusion (hpend.symm.trans h₁)
  · exact Worker.noConfusion (hw.symm.trans h₁)

end Sys

end Lifecycle

end Offload

end LeAudioReceiver
