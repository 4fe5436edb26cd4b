import LeAudioReceiver.Offload.Transaction

/-!
# Lifecycle safety of submits

A submit captures the generation of the stream when it begins, and again behind the submit mutex;
a handler of the work queue captures it at its entry.  The sections under the lock compare it before
they change anything, so whoever has been overtaken by a start or a stop leaves the lifecycle alone.
Scheduling the recovery is decided under the lock too, but the call of the kernel comes after it.

* `TxnSys.lifecycle_safe` : an overtaken submit or handler does not change the state, the epoch or
  the generation, and does not decide to schedule the recovery; a submit that returns an error has
  not touched the caller's buffers; each returned submit has unlocked the mutex as often as it
  locked it.
* `TxnSys.late_schedule` : an overtaken submit can still make the call that it decided on before.
-/

namespace LeAudioReceiver

namespace Offload

namespace Lifecycle

open Asrc (Frame)
open WorkQueue

/-! ### Overtaken submits -/

/-- State, epoch and generation are the same. -/
def Core.SameLifecycle (c c' : Core) : Prop :=
  c'.state = c.state ∧ c'.streamEpoch = c.streamEpoch ∧ c'.generation = c.generation

/-- The transaction has captured a lifecycle. -/
def Stage.captured : Stage → Bool
  | .validateArgs | .precheck => false
  | _ => true

/-- The lifecycle that a thread has captured. -/
def Thread.captured : Thread → Option Captured
  | .submit stage t => if stage.captured then some t.captured else none
  | _ => none

/-- The handler's `start_gen`. -/
def Worker.startGen : Worker → Option UInt32
  | .prep pc =>
    match pc with
    | .rings g | .reset g | .commit g _ | .retry g | .schedule g => some g
    | .entry | .finish => none
  | .recovery pc =>
    match pc with
    | .shortReset g | .verify g | .restart g | .restartFailed g | .rings g | .reset g | .commit g _
    | .retry g | .schedule g => some g
    | .entry | .finish => none
  | .idle | .idleRestart _ => none

/-- The thread is about to schedule the recovery. -/
def Thread.schedules : Thread → Bool
  | .submit (.schedule _) _ => true
  | _ => false

/-- So is the handler. -/
def Worker.schedules : Worker → Bool
  | .recovery (.schedule _) => true
  | _ => false

/-- A step of somebody who has been overtaken, and who was (`now`) or is (`then'`) about to
schedule the recovery. -/
structure Overtaken (c c' : Core) (now then' : Bool) : Prop where
  same : c.SameLifecycle c'
  undecided : then' = false
  unscheduled : now = false → c'.recovery.pending = true → c.recovery.pending = true

theorem Overtaken.keep {c c' : Core} {now then' : Bool} (hsame : c.SameLifecycle c')
    (hrecovery : c'.recovery = c.recovery) (hthen : then' = false) : Overtaken c c' now then' :=
  ⟨hsame, hthen, fun _ hpending => hrecovery ▸ hpending⟩

namespace Txn

variable {t : Txn} {verify : Bool} {c : Core} {scratch : List Frame} {x : StageInput}
  {stage : Stage} {p : Core × List Frame × Thread}

theorem schedules_fail (o : Bool) : (t.fail o).schedules = false := by
  unfold fail
  split_ifs <;> rfl

theorem capture_ne (hgen : t.captured.generation ≠ c.generation) : c.capture ≠ t.captured :=
  fun h => hgen (congrArg Captured.generation h).symm

theorem step_overtaken (hstage : stage.captured = true)
    (hgen : t.captured.generation ≠ c.generation)
    (h : t.step verify c scratch x stage = some p) :
    Overtaken c p.1 (Thread.submit stage t).schedules p.2.2.schedules := by
  have hne := capture_ne hgen
  -- a stage either does not touch the lifecycle, or compares it with what was captured, in vain
  cases stage with
  | validateArgs | precheck => exact Bool.noConfusion hstage
  | acquireSubmit =>
    simp only [step] at h
    split_ifs at h <;> obtain rfl := Option.some.inj h <;> exact .keep ⟨rfl, rfl, rfl⟩ rfl rfl
  | postmutexRecheck | notify | wait | shadowVerify =>
    simp only [step] at h
    split_ifs at h <;> obtain rfl := Option.some.inj h <;> exact .keep ⟨rfl, rfl, rfl⟩ rfl rfl
  | produce =>
    simp only [step] at h
    split at h <;> obtain rfl := Option.some.inj h <;> exact .keep ⟨rfl, rfl, rfl⟩ rfl rfl
  | consume =>
    simp only [step] at h
    split at h
    · obtain rfl := Option.some.inj h
      exact .keep ⟨rfl, rfl, rfl⟩ rfl rfl
    · obtain rfl := Option.some.inj h
      exact .keep ⟨rfl, rfl, rfl⟩ rfl rfl
    · split at h <;> obtain rfl := Option.some.inj h <;> exact .keep ⟨rfl, rfl, rfl⟩ rfl rfl
  | validateMetadata cr =>
    simp only [step] at h
    split_ifs at h <;> obtain rfl := Option.some.inj h <;> exact .keep ⟨rfl, rfl, rfl⟩ rfl rfl
  | recheckBefore | recheckAfter =>
    simp only [step] at h
    rw [if_pos hne] at h
    obtain rfl := Option.some.inj h
    exact .keep ⟨rfl, rfl, rfl⟩ rfl (schedules_fail true)
  | commit cr =>
    simp only [step] at h
    rw [if_pos hne] at h
    obtain rfl := Option.some.inj h
    exact .keep ⟨rfl, rfl, rfl⟩ rfl rfl
  | faultFinalize o =>
    simp only [step] at h
    rw [if_pos hne] at h
    obtain rfl := Option.some.inj h
    exact .keep ⟨rfl, rfl, rfl⟩ rfl (schedules_fail o)
  | schedule o =>
    obtain rfl := Option.some.inj h
    refine ⟨⟨rfl, rfl, rfl⟩, ?_, fun hnow => Bool.noConfusion hnow⟩
    simp only
    split_ifs
    · rfl
    · exact schedules_fail o
  | countFail o =>
    obtain rfl := Option.some.inj h
    exact .keep ⟨rfl, rfl, rfl⟩ rfl (schedules_fail o)
  | copyOutput | unlock =>
    obtain rfl := Option.some.inj h
    exact .keep ⟨rfl, rfl, rfl⟩ rfl rfl

end Txn

/-! ### Overtaken handlers -/

namespace Core

variable {c : Core} {r : Result} {g : UInt32}

theorem recoveryAgain_overtaken (hgen : g ≠ c.generation) :
    c.recoveryAgain g = (c.unschedule, .finish) :=
  if_neg fun h => hgen h.2.symm

theorem work_overtaken {w : Worker} {x : Core × Worker} (hw : w.startGen = some g)
    (hgen : g ≠ c.generation) (hx : c.work r w = some x) :
    Overtaken c x.1 w.schedules x.2.schedules := by
  -- a handler either does not touch the lifecycle, or compares the generation, in vain
  cases w with
  | idle | idleRestart => cases hw
  | prep pc =>
    cases pc with
    | entry | finish => cases hw
    | rings =>
      obtain rfl := Option.some.inj hx
      simp only [prepWork]
      split_ifs
      · exact .keep ⟨rfl, rfl, rfl⟩ rfl rfl
      · cases r <;> exact .keep ⟨rfl, rfl, rfl⟩ rfl rfl
    | reset => cases r <;> obtain rfl := Option.some.inj hx <;> exact .keep ⟨rfl, rfl, rfl⟩ rfl rfl
    | commit g' epoch =>
      obtain rfl := Option.some.inj hx
      obtain rfl := Option.some.inj hw
      simp only [prepWork]
      rw [if_pos (.inr hgen.symm)]
      exact .keep ⟨rfl, rfl, rfl⟩ rfl rfl
    | retry g' =>
      obtain rfl := Option.some.inj hx
      obtain rfl := Option.some.inj hw
      simp only [prepWork]
      rw [if_neg fun h => hgen h.2.symm]
      exact .keep ⟨rfl, rfl, rfl⟩ rfl rfl
    | schedule g' =>
      obtain rfl := Option.some.inj hx
      exact .keep ⟨rfl, rfl, rfl⟩ rfl rfl
  | recovery pc =>
    cases pc with
    | entry | finish => cases hw
    | shortReset | restart | rings | reset =>
      cases r <;> obtain rfl := Option.some.inj hx <;> exact .keep ⟨rfl, rfl, rfl⟩ rfl rfl
    | verify g' | commit g' epoch =>
      obtain rfl := Option.some.inj hx
      obtain rfl := Option.some.inj hw
      simp only [recoveryWork]
      rw [if_pos (.inr hgen.symm)]
      exact .keep ⟨rfl, rfl, rfl⟩ rfl rfl
    | restartFailed g' | retry g' =>
      obtain rfl := Option.some.inj hx
      obtain rfl := Option.some.inj hw
      simp only [recoveryWork, recoveryAgain_overtaken hgen]
      exact .keep ⟨rfl, rfl, rfl⟩ rfl rfl
    | schedule g' =>
      obtain rfl := Option.some.inj hx
      exact ⟨⟨rfl, rfl, rfl⟩, rfl, fun hnow => Bool.noConfusion hnow⟩

end Core

/-! ### Buffers and the submit mutex -/

/-- The stage is behind the locking of the submit mutex. -/
def Stage.owns : Stage → Bool
  | .validateArgs | .precheck | .acquireSubmit => false
  | .faultFinalize ownsMutex | .schedule ownsMutex | .countFail ownsMutex => ownsMutex
  | _ => true

/-- The caller's buffers are as they were, unless the call succeeds. -/
def Stage.untouched : Stage → Bool
  | .unlock none => false
  | _ => true

/-- What holds of a thread at all times. -/
def Thread.Fits : Thread → Prop
  | .submit stage t =>
    t.owns = stage.owns ∧ t.locks = t.unlocks + t.owns.toNat ∧
      (stage.untouched = true → t.buffers = t.before)
  | .returned ret t => t.unlocks = t.locks ∧ (ret ≠ none → t.buffers = t.before)
  | .idle | .call _ => True

namespace Txn

variable {t : Txn} {verify : Bool} {c : Core} {scratch : List Frame} {x : StageInput}
  {stage : Stage} {p : Core × List Frame × Thread}

theorem fits_fail {o : Bool} (ho : t.owns = o) (hl : t.locks = t.unlocks + t.owns.toNat)
    (hb : t.buffers = t.before) : (t.fail o).Fits := by
  subst ho
  unfold fail
  cases howns : t.owns with
  | true => exact ⟨howns, hl, fun _ => hb⟩
  | false =>
    rw [howns] at hl
    exact ⟨hl.symm, fun _ => hb⟩

theorem step_fits (h : (Thread.submit stage t).Fits)
    (hstep : t.step verify c scratch x stage = some p) : p.2.2.Fits := by
  obtain ⟨howns, hlocks, hbuf⟩ := h
  -- the mutex is held from `acquireSubmit` to `unlock`, and only `copyOutput` touches the buffers
  cases stage with
  | validateArgs | precheck =>
    have heq : t.unlocks = t.locks := by rw [hlocks, howns]; rfl
    simp only [step] at hstep
    split_ifs at hstep <;> obtain rfl := Option.some.inj hstep <;>
      first | exact ⟨howns, hlocks, fun _ => hbuf rfl⟩ | exact ⟨heq, fun _ => hbuf rfl⟩
  | acquireSubmit =>
    simp only [step] at hstep
    split_ifs at hstep <;> obtain rfl := Option.some.inj hstep
    · exact ⟨howns, hlocks, fun _ => hbuf rfl⟩
    · refine ⟨rfl, ?_, fun _ => hbuf rfl⟩
      rw [howns] at hlocks
      exact congrArg (· + 1) hlocks
  | produce =>
    simp only [step] at hstep
    split at hstep <;> obtain rfl := Option.some.inj hstep <;>
      exact ⟨howns, hlocks, fun _ => hbuf rfl⟩
  | consume =>
    simp only [step] at hstep
    split at hstep
    · obtain rfl := Option.some.inj hstep
      exact ⟨howns, hlocks, fun _ => hbuf rfl⟩
    · obtain rfl := Option.some.inj hstep
      exact ⟨howns, hlocks, fun _ => hbuf rfl⟩
    · split at hstep <;> obtain rfl := Option.some.inj hstep <;>
        exact ⟨howns, hlocks, fun _ => hbuf rfl⟩
  | postmutexRecheck | notify | wait | shadowVerify | commit =>
    simp only [step] at hstep
    split_ifs at hstep <;> obtain rfl := Option.some.inj hstep <;>
      exact ⟨howns, hlocks, fun _ => hbuf rfl⟩
  | validateMetadata cr =>
    simp only [step] at hstep
    split_ifs at hstep <;> obtain rfl := Option.some.inj hstep <;>
      exact ⟨howns, hlocks, fun _ => hbuf rfl⟩
  | recheckBefore | recheckAfter =>
    simp only [step] at hstep
    split_ifs at hstep <;> obtain rfl := Option.some.inj hstep
    · exact fits_fail howns hlocks (hbuf rfl)
    · exact ⟨howns, hlocks, fun _ => hbuf rfl⟩
  | copyOutput cr =>
    obtain rfl := Option.some.inj hstep
    exact ⟨howns, hlocks, fun hu => Bool.noConfusion hu⟩
  | faultFinalize o =>
    simp only [step] at hstep
    split_ifs at hstep <;> obtain rfl := Option.some.inj hstep
    · exact fits_fail howns hlocks (hbuf rfl)
    · exact ⟨howns, hlocks, fun _ => hbuf rfl⟩
    · exact fits_fail howns hlocks (hbuf rfl)
  | schedule o =>
    simp only [step] at hstep
    split_ifs at hstep <;> obtain rfl := Option.some.inj hstep
    · exact ⟨howns, hlocks, fun _ => hbuf rfl⟩
    · exact fits_fail howns hlocks (hbuf rfl)
  | countFail o =>
    obtain rfl := Option.some.inj hstep
    exact fits_fail howns hlocks (hbuf rfl)
  | unlock ret =>
    obtain rfl := Option.some.inj hstep
    rw [howns] at hlocks
    refine ⟨hlocks.symm, fun hret => ?_⟩
    cases ret with
    | none => exact absurd rfl hret
    | some e => exact hbuf rfl

end Txn

/-! ### Whole runs -/

namespace TxnSys

variable {ι : Type*} [DecidableEq ι] {verify : Bool} {s s' : TxnSys ι} {a : TxnAction ι}

theorem next_threads (hnext : s.next verify a = some s') :
    s'.threads = s.threads ∨ ∃ i th, s'.threads = Function.update s.threads i th ∧
      ((s.threads i).Fits → th.Fits) := by
  cases a with
  | enter i api =>
    simp only [next] at hnext
    split_ifs at hnext
    obtain rfl := Option.some.inj hnext
    exact .inr ⟨i, _, rfl, fun _ => trivial⟩
  | processAsrc i args request buffers =>
    simp only [next] at hnext
    split_ifs at hnext
    obtain rfl := Option.some.inj hnext
    exact .inr ⟨i, _, rfl, fun _ => ⟨rfl, rfl, fun _ => rfl⟩⟩
  | call i r =>
    simp only [next] at hnext
    split at hnext
    · obtain ⟨x, -, rfl⟩ := Option.map_eq_some_iff.1 hnext
      refine .inr ⟨i, _, rfl, fun _ => ?_⟩
      cases x.2 <;> trivial
    · cases hnext
  | stage i x =>
    simp only [next] at hnext
    split at hnext
    · rename_i stage t hi
      obtain ⟨p, hp, rfl⟩ := Option.map_eq_some_iff.1 hnext
      refine .inr ⟨i, _, rfl, fun hfits => ?_⟩
      rw [hi] at hfits
      exact Txn.step_fits hfits hp
    · cases hnext
  | takePrep | takeRecovery | takeIdle =>
    simp only [next] at hnext
    split_ifs at hnext
    obtain rfl := Option.some.inj hnext
    exact .inl rfl
  | worker r =>
    obtain ⟨x, -, rfl⟩ := Option.map_eq_some_iff.1 hnext
    exact .inl rfl

theorem fits_of_reachable (h : (machine ι verify).Reachable s) (i : ι) : (s.threads i).Fits := by
  have hall : ∀ i, (s.threads i).Fits := by
    refine h.invariant (I := fun s => ∀ i, (s.threads i).Fits) ?_ ?_
    · rintro s ⟨ringsReady, rfl⟩ i
      trivial
    · intro s a s' ih hnext
      rcases next_threads hnext with heq | ⟨i, th, heq, hfits⟩
      · rw [heq]
        exact ih
      · rw [heq]
        exact (Function.forall_update_iff _ fun _ => Thread.Fits).2
          ⟨hfits (ih i), fun j _ => ih j⟩
  exact hall i

/-- Lifecycle safety.  Let a submit or a handler have captured another generation than the current
one.  Then its step leaves the state, the epoch and the generation as they are, it does not decide
to schedule the recovery, and does not schedule it unless it is about to do what it decided before.
A submit that returned an error left the caller's buffers as they were, and every submit that
returned has unlocked the submit mutex as often as it locked it. -/
theorem lifecycle_safe (h : (machine ι verify).Reachable s) :
    (∀ i x s' cap, s.next verify (.stage i x) = some s' → (s.threads i).captured = some cap →
      cap.generation ≠ s.core.generation →
      s.core.SameLifecycle s'.core ∧ (s'.threads i).schedules = false ∧
        ((s.threads i).schedules = false → s'.core.recovery.pending = true →
          s.core.recovery.pending = true)) ∧
    (∀ r s' g, s.next verify (.worker r) = some s' → s.worker.startGen = some g →
      g ≠ s.core.generation →
      s.core.SameLifecycle s'.core ∧ s'.worker.schedules = false ∧
        (s.worker.schedules = false → s'.core.recovery.pending = true →
          s.core.recovery.pending = true)) ∧
    (∀ i ret t, s.threads i = .returned ret t →
      (ret ≠ none → t.buffers = t.before) ∧ t.unlocks = t.locks) := by
  refine ⟨fun i x s' cap hnext hcap hgen => ?_, fun r s' g hnext hw hgen => ?_,
    fun i ret t hi => ?_⟩
  · cases hi : s.threads i with
    | idle | call | returned =>
      rw [hi] at hcap
      cases hcap
    | submit stage t =>
      simp only [next, hi] at hnext
      obtain ⟨p, hp, rfl⟩ := Option.map_eq_some_iff.1 hnext
      simp only [hi, Thread.captured] at hcap
      split_ifs at hcap with hstage
      obtain rfl := Option.some.inj hcap
      obtain ⟨hsame, hundecided, hunscheduled⟩ := Txn.step_overtaken hstage hgen hp
      exact ⟨hsame, by simpa using hundecided, hunscheduled⟩
  · obtain ⟨x, hx, rfl⟩ := Option.map_eq_some_iff.1 hnext
    obtain ⟨hsame, hundecided, hunscheduled⟩ := Core.work_overtaken hw hgen hx
    exact ⟨hsame, hundecided, hunscheduled⟩
  · have hfits := fits_of_reachable h i
    rw [hi] at hfits
    exact ⟨hfits.2, hfits.1⟩

/-! ### A submit that is overtaken -/

/-- A stage whose surroundings answer. -/
def answers : StageInput := ⟨true, .ok, true, true, .empty, 0, .ok 0⟩

/-- The submit mutex is not locked in time. -/
def timeout : StageInput := { answers with locked := false }

/-- A call of thread `i` with its first `n` steps. -/
def callSteps (i : ι) (api : Api) (n : ℕ) : List (TxnAction ι) :=
  .enter i api :: List.replicate n (.call i (.ok 0))

/-- Thread `i` starts a stream, which is prepared. -/
def prepared (i : ι) : List (TxnAction ι) :=
  callSteps i .streamStart 4 ++ .takePrep :: List.replicate 5 (.worker (.ok 7))

/-- A state of the converter. -/
def silence : Asrc.AsrcState := ⟨0, 0, 0, 0, 0, (0, 0, 0)⟩

/-- Thread `i` submits a block and gets through `n` stages. -/
def submits (i : ι) (n : ℕ) : List (TxnAction ι) :=
  .processAsrc i ⟨true, true, true, true, 480, 481⟩ ⟨[], 0, 0, silence⟩ ⟨[], ⟨0, silence, 0⟩⟩ ::
    List.replicate n (.stage i answers)

/-- A submit that waits for its output while the stream is stopped: it locks and unlocks the mutex
once, and returns an error without touching the buffers. -/
theorem lifecycle_safe_stopped : ∃ (s : TxnSys (Fin 2)) (t : Txn),
    s.threads 0 = .returned (some .eagain) t ∧ t.locks = 1 ∧ t.unlocks = t.locks ∧
      t.buffers = t.before := by
  have hrun : ((machine (Fin 2) true).run (start true)
      (prepared 1 ++ submits 0 7 ++ callSteps 1 .streamStop 3 ++
        [.stage 0 answers, .stage 0 answers])).map
      (fun s => match s.threads 0 with
        | .returned ret t => some (ret, t.locks)
        | _ => none) = some (some (some .eagain, 1)) := by decide +kernel
  obtain ⟨s, hs, hs'⟩ := Option.map_eq_some_iff.1 hrun
  split at hs'
  · rename_i ret t hi
    simp only [Option.some.injEq, Prod.mk.injEq] at hs'
    obtain ⟨rfl, hlocks⟩ := hs'
    have hsafe := (lifecycle_safe (Machine.Reachable.run (.init ⟨true, rfl⟩) hs)).2.2 0 _ t hi
    exact ⟨s, t, hi, hlocks, hsafe.2, hsafe.1 (by simp)⟩
  · cases hs'

/-- A submit decides to schedule the recovery; before it makes the call the stream is stopped. -/
theorem late_schedule : ∃ (s s' : TxnSys (Fin 2)) (cap : Captured),
    (machine (Fin 2) true).Reachable s ∧ (s.threads 0).captured = some cap ∧
      cap.generation ≠ s.core.generation ∧ s.core.state = .stopped ∧
      s.core.recovery.pending = false ∧ s.next true (.stage 0 answers) = some s' ∧
      s'.core.recovery.pending = true := by
  have hrun : ((machine (Fin 2) true).run (start true)
      (prepared 1 ++ submits 0 2 ++ [.stage 0 timeout, .stage 0 answers] ++
        callSteps 1 .streamStop 3)).map
      (fun s => ((s.threads 0).captured.map Captured.generation, s.core.generation, s.core.state,
        s.core.recovery.pending,
        (s.next true (.stage 0 answers)).map fun s' => s'.core.recovery.pending)) =
        some (some 2, 3, .stopped, false, some true) := by decide +kernel
  obtain ⟨s, hs, hs'⟩ := Option.map_eq_some_iff.1 hrun
  simp only [Prod.mk.injEq] at hs'
  obtain ⟨hcap, hgen, hstate, hpending, hnext⟩ := hs'
  obtain ⟨cap, hcap', hcap⟩ := Option.map_eq_some_iff.1 hcap
  obtain ⟨s', hnext', hpending'⟩ := Option.map_eq_some_iff.1 hnext
  refine ⟨s, s', cap, Machine.Reachable.run (.init ⟨true, rfl⟩) hs, hcap', ?_, hstate, hpending,
    hnext', hpending'⟩
  rw [hcap, hgen]
  decide

end TxnSys

end Lifecycle

end Offload

end LeAudioReceiver
