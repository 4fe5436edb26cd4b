import LeAudioReceiver.Offload.Policy
import LeAudioReceiver.Threads.Basic

/-!
# The submit counters

The module counts submits, successes and fallbacks twice, in `g_asrc_stats` (part of `Core`) and
in `g_status` (`Counters` here).  A counted submit owes one success or one fallback until it
settles.  A successful preparation clears the counters, and forgets what a submit in progress owes.

* `Sys.submits_settled` : in every run in which no submit is in progress where a preparation clears
  the counters, they agree whenever no submit is in progress.
-/

namespace LeAudioReceiver

namespace Offload

namespace Lifecycle

open Threads

/-- `submit_count`, `success_count` and `fallback_count`. -/
structure Counters where
  submits : ℕ
  successes : ℕ
  fallbacks : ℕ
  deriving DecidableEq

namespace Counters

/-- Cleared counters. -/
def zero : Counters := ⟨0, 0, 0⟩

variable (k : Counters)

/-- A submit is counted. -/
def submit : Counters := { k with submits := k.submits + 1 }

/-- It succeeds. -/
def success : Counters := { k with successes := k.successes + 1 }

/-- It falls back. -/
def fallback : Counters := { k with fallbacks := k.fallbacks + 1 }

/-- All but `n` of the submits have succeeded or fallen back. -/
def Owes (n : ℕ) : Prop := k.submits = k.successes + k.fallbacks + n

end Counters

namespace Core

variable (c : Core)

/-- The counters of `g_asrc_stats`. -/
def asrcStats : Counters := ⟨c.submitCount, c.successCount, c.fallbackCount⟩

/-- The counters of `g_status` after a step of a submit. -/
def submitStatus (k : Counters) : SubmitPc → Counters
  | .precheck =>
    if c.state = .stopped then k
    else if c.state ≠ .active then k.submit.fallback
    else k.submit
  | .postmutex _ => if c.state ≠ .active then k.fallback else k
  -- `lifecycle_check_before_fault`
  | .recheck t => if c.capture ≠ t then k.fallback else k
  -- `lifecycle_check_before_fault`, or `record_fault`
  | .fault t _ => if c.capture ≠ t then k.fallback else k.fallback
  | .commit t => if c.capture ≠ t then k.fallback else k.success
  | .acquire _ | .work _ | .schedule _ | .countFail _ => k

/-- The counters of `g_status` after a step of the work queue's thread. -/
def workStatus (k : Counters) : Worker → Counters
  | .prep (.commit g _) => if c.state = .preparing ∧ c.generation = g then .zero else k
  | _ => k

end Core

/-- The counters of `g_status` after a step. -/
def Sys.status {ι : Type*} (s : Sys ι) (k : Counters) : Action ι → Counters
  | .call i _ =>
    match s.calls i with
    | some (.submit pc) => s.core.submitStatus k pc
    | _ => k
  | .worker _ => s.core.workStatus k s.worker
  | _ => k

/-- The submit has been counted, and has neither succeeded nor fallen back. -/
def SubmitPc.unsettled : SubmitPc → Bool
  | .acquire _ | .postmutex _ | .work _ | .recheck _ | .fault _ _ | .commit _ => true
  | .precheck | .schedule _ | .countFail _ => false

/-- The thread is in such a submit. -/
def Call.unsettled : Option Call → Bool
  | some (.submit pc) => pc.unsettled
  | _ => false

/-! ### Both counters change alike -/

namespace Core

variable {c : Core} {r : Result} {k : Counters}

@[simp]
theorem asrcStats_endSubmit (owns : Bool) : (c.endSubmit owns).asrcStats = c.asrcStats := by
  cases owns <;> rfl

@[simp]
theorem asrcStats_trySchedule : c.trySchedule.1.asrcStats = c.asrcStats := by
  unfold trySchedule
  split_ifs <;> rfl

theorem health_asrcStats (pc : HealthPc) : (c.health r pc).1.asrcStats = c.asrcStats := by
  cases pc with
  | lock =>
    simp only [health]
    split
    · exact asrcStats_trySchedule
    · exact asrcStats_trySchedule
    · rfl
    · split_ifs <;> rfl
    · rfl
  | submitIdle => cases r <;> rfl
  | schedule | countFail | clearIdle => rfl

theorem submit_asrcStats {pc : SubmitPc} {x : Core × Option SubmitPc}
    (hx : c.submit r pc = some x) : x.1.asrcStats = c.submitStatus c.asrcStats pc := by
  cases pc with
  | acquire t =>
    simp only [submit] at hx
    split at hx
    · obtain rfl := Option.some.inj hx
      rfl
    · split_ifs at hx
      obtain rfl := Option.some.inj hx
      rfl
  | work t =>
    simp only [submit] at hx
    split at hx <;> obtain rfl := Option.some.inj hx <;> rfl
  | countFail owns =>
    obtain rfl := Option.some.inj hx
    exact asrcStats_endSubmit owns
  | commit t =>
    simp only [submit] at hx
    -- the probation does not touch the counters
    split_ifs at hx with hc <;> obtain rfl := Option.some.inj hx
    · exact (if_pos hc).symm
    all_goals exact (if_neg hc).symm
  | precheck | postmutex | recheck | fault | schedule =>
    simp only [submit] at hx
    split_ifs at hx <;> obtain rfl := Option.some.inj hx <;> simp_all [submitStatus] <;> rfl

theorem work_asrcStats {w : Worker} {x : Core × Worker} (hx : c.work r w = some x) :
    x.1.asrcStats = c.workStatus c.asrcStats w := by
  -- only the commit of a preparation clears the counters
  cases w with
  | idle => cases hx
  | prep pc =>
    cases pc with
    | commit g epoch =>
      obtain rfl := Option.some.inj hx
      simp only [prepWork, workStatus]
      -- a stale commit leaves them
      by_cases h : c.state = .preparing ∧ c.generation = g
      · rw [if_pos h, if_neg (by tauto)]
        rfl
      · rw [if_neg h, if_pos (by tauto)]
    | rings g =>
      obtain rfl := Option.some.inj hx
      simp only [prepWork]
      split_ifs
      · rfl
      · cases r <;> rfl
    | reset g => cases r <;> obtain rfl := Option.some.inj hx <;> rfl
    | entry | retry =>
      obtain rfl := Option.some.inj hx
      simp only [prepWork]
      split_ifs <;> rfl
    | schedule | finish =>
      obtain rfl := Option.some.inj hx
      rfl
  | recovery pc =>
    cases pc with
    | shortReset | restart | rings | reset =>
      cases r <;> obtain rfl := Option.some.inj hx <;> rfl
    | restartFailed | retry =>
      obtain rfl := Option.some.inj hx
      simp only [recoveryWork, recoveryAgain]
      split_ifs <;> rfl
    | entry | verify | commit =>
      obtain rfl := Option.some.inj hx
      simp only [recoveryWork]
      split_ifs <;> rfl
    | schedule | finish =>
      obtain rfl := Option.some.inj hx
      rfl
  | idleRestart pc =>
    cases pc with
    | health pc =>
      obtain rfl := Option.some.inj hx
      exact health_asrcStats pc
    | entry =>
      obtain ⟨x', hx', rfl⟩ := Option.map_eq_some_iff.1 hx
      simp only [idleRestartWork] at hx'
      split_ifs at hx' <;> obtain rfl := Option.some.inj hx' <;> rfl
    | restart => cases r <;> obtain rfl := Option.some.inj hx <;> rfl
    | done | clear | finish =>
      obtain rfl := Option.some.inj hx
      rfl

/-! ### What a submit owes -/

theorem submitStatus_owes {pc : SubmitPc} {x : Core × Option SubmitPc}
    (hx : c.submit r pc = some x) {n n' : ℕ} (hk : k.Owes n)
    (hn : n' + pc.unsettled.toNat = n + (Call.unsettled (x.2.map .submit)).toNat) :
    (c.submitStatus k pc).Owes n' := by
  have hk' : k.submits = k.successes + k.fallbacks + n := hk
  cases pc with
  | acquire t =>
    simp only [submit] at hx
    split at hx
    · obtain rfl := Option.some.inj hx
      obtain rfl : n' = n := by simpa [SubmitPc.unsettled, Call.unsettled] using hn
      exact hk
    · split_ifs at hx
      obtain rfl := Option.some.inj hx
      obtain rfl : n' = n := by simpa [SubmitPc.unsettled, Call.unsettled] using hn
      exact hk
  | work t =>
    simp only [submit] at hx
    split at hx <;> obtain rfl := Option.some.inj hx
    · obtain rfl : n' = n := by simpa [SubmitPc.unsettled, Call.unsettled] using hn
      exact hk
    · obtain rfl : n' = n := by
        split_ifs at hn <;> simpa [SubmitPc.unsettled, Call.unsettled] using hn
      exact hk
  | countFail owns =>
    obtain rfl := Option.some.inj hx
    obtain rfl : n' = n := by simpa [SubmitPc.unsettled, Call.unsettled] using hn
    exact hk
  | precheck | postmutex | recheck | fault | commit | schedule =>
    simp only [submit] at hx
    split_ifs at hx <;> obtain rfl := Option.some.inj hx <;>
      simp_all [submitStatus, SubmitPc.unsettled, Call.unsettled, Counters.Owes, Counters.submit,
        Counters.success, Counters.fallback] <;> omega

/-- The other calls do not count. -/
theorem call_asrcStats {call : Call} {x : Core × Option Call} (hx : c.call r call = some x)
    (hcall : ∀ pc, call ≠ .submit pc) :
    x.1.asrcStats = c.asrcStats ∧ Call.unsettled x.2 = false := by
  cases call with
  | submit pc => exact absurd rfl (hcall pc)
  | health pc =>
    obtain rfl := Option.some.inj hx
    refine ⟨health_asrcStats pc, ?_⟩
    simp only
    cases (c.health r pc).2 <;> rfl
  | _ =>
    obtain rfl := Option.some.inj hx
    exact ⟨rfl, rfl⟩

end Core

/-! ### Whole runs -/

/-- A preparation succeeds. -/
def Event.isPrepared : Event → Bool
  | .prepared _ => true
  | _ => false

theorem Core.workStatus_eq (c : Core) (k : Counters) (w : Worker) :
    c.workStatus k w = if (c.workEvent w).isPrepared then .zero else k := by
  cases w with
  | idle => rfl
  | prep pc =>
    cases pc with
    | commit g epoch =>
      simp only [Core.workStatus, Core.workEvent, Core.prepEvent]
      split_ifs <;> first | rfl | contradiction
    | entry | retry =>
      simp only [Core.workStatus, Core.workEvent, Core.prepEvent]
      split_ifs <;> first | rfl | contradiction
    | _ => rfl
  | recovery pc =>
    cases pc with
    | entry | commit | restartFailed | retry =>
      simp only [Core.workStatus, Core.workEvent, Core.recoveryEvent]
      split_ifs <;> first | rfl | contradiction
    | _ => rfl
  | idleRestart pc =>
    cases pc with
    | health pc =>
      cases pc with
      | lock =>
        simp only [Core.workStatus, Core.workEvent, Core.healthEvent]
        split_ifs <;> first | rfl | contradiction
      | _ => rfl
    | _ => rfl

namespace Sys

variable {ι : Type*} {s s' : Sys ι} {a : Action ι} {k : Counters}

theorem status_submit {i : ι} {r : Result} {pc : SubmitPc} (hi : s.calls i = some (.submit pc)) :
    s.status k (.call i r) = s.core.submitStatus k pc := by simp only [status, hi]

theorem status_call {i : ι} {r : Result} {call : Call} (hi : s.calls i = some call)
    (hcall : ∀ pc, call ≠ .submit pc) : s.status k (.call i r) = k := by
  cases call with
  | submit pc => exact absurd rfl (hcall pc)
  | _ => simp only [status, hi]

variable [DecidableEq ι]

/-- Both counters change alike. -/
theorem next_asrcStats (hnext : s.next a = some s') :
    s'.core.asrcStats = s.status s.core.asrcStats a := by
  obtain ⟨i, api, rfl, -, rfl⟩ | ⟨i, r, call, x, rfl, hi, hx, rfl⟩ | ⟨rfl, -, rfl⟩ |
    ⟨rfl, -, rfl⟩ | ⟨rfl, -, rfl⟩ | ⟨r, x, rfl, hx, rfl⟩ := next_cases hnext
  · rfl
  · by_cases hcall : ∃ pc, call = .submit pc
    · obtain ⟨pc, rfl⟩ := hcall
      obtain ⟨x', hx', rfl⟩ := Option.map_eq_some_iff.1 hx
      rw [status_submit hi]
      exact Core.submit_asrcStats hx'
    · rw [not_exists] at hcall
      rw [status_call hi hcall]
      exact (Core.call_asrcStats hx hcall).1
  · rfl
  · rfl
  · rfl
  · exact Core.work_asrcStats hx

variable [Fintype ι]

/-- No counted submit is in progress where a preparation clears the counters. -/
def QuietPrep (s : Sys ι) (a : Action ι) : Prop :=
  (s.event a).isPrepared = true → ∀ i, Call.unsettled (s.calls i) = false

instance (s : Sys ι) (a : Action ι) : Decidable (s.QuietPrep a) :=
  inferInstanceAs (Decidable (_ → ∀ _, _))

/-- The counters owe one success or fallback for each counted submit in progress. -/
theorem status_owes (hquiet : s.QuietPrep a) (hk : k.Owes (countAt Call.unsettled s.calls))
    (hnext : s.next a = some s') :
    (s.status k a).Owes (countAt Call.unsettled s'.calls) := by
  obtain ⟨i, api, rfl, hi, rfl⟩ | ⟨i, r, call, x, rfl, hi, hx, rfl⟩ | ⟨rfl, -, rfl⟩ |
    ⟨rfl, -, rfl⟩ | ⟨rfl, -, rfl⟩ | ⟨r, x, rfl, hx, rfl⟩ := next_cases hnext
  · -- a call begins without owing anything
    have hcount := countAt_update Call.unsettled s.calls i (some api.first)
    have hfirst : Call.unsettled (some api.first) = false := by cases api <;> rfl
    rw [hi, hfirst] at hcount
    have heq : countAt Call.unsettled (Function.update s.calls i (some api.first)) =
        countAt Call.unsettled s.calls := hcount
    exact heq ▸ hk
  · have hcount := countAt_update Call.unsettled s.calls i x.2
    rw [hi] at hcount
    by_cases hcall : ∃ pc, call = .submit pc
    · obtain ⟨pc, rfl⟩ := hcall
      obtain ⟨x', hx', rfl⟩ := Option.map_eq_some_iff.1 hx
      rw [status_submit hi]
      exact Core.submitStatus_owes hx' hk hcount
    · rw [not_exists] at hcall
      rw [status_call hi hcall]
      have hother : Call.unsettled (some call) = false := by
        cases call with
        | submit pc => exact absurd rfl (hcall pc)
        | _ => rfl
      rw [hother, (Core.call_asrcStats hx hcall).2] at hcount
      have heq : countAt Call.unsettled (Function.update s.calls i x.2) =
          countAt Call.unsettled s.calls := hcount
      exact heq ▸ hk
  · exact hk
  · exact hk
  · exact hk
  · rw [status, Core.workStatus_eq]
    split_ifs with hprep
    · -- the counters are cleared, and nothing is owed
      rw [show countAt Call.unsettled s.calls = 0 from countAt_eq_zero.2 (hquiet hprep)]
      rfl
    · exact hk

/-- The module beside the counters of `g_status`. -/
def accounted (ι : Type*) [DecidableEq ι] : Machine (Sys ι × Counters) (Action ι) :=
  (machine ι).watch .zero fun s a _ k => s.status k a

/-- In every run in which no counted submit is in progress where a preparation clears the counters,
each submit has been counted as one success or one fallback whenever no submit is in progress. -/
theorem submits_settled {x : Sys ι × Counters}
    (h : (accounted ι).ReachableBy (fun x a => x.1.QuietPrep a) x)
    (hidle : ∀ i pc, x.1.calls i ≠ some (.submit pc)) :
    x.1.core.submitCount = x.1.core.successCount + x.1.core.fallbackCount ∧
      x.2.submits = x.2.successes + x.2.fallbacks := by
  have hinv : x.2.Owes (countAt Call.unsettled x.1.calls) ∧ x.1.core.asrcStats = x.2 := by
    refine h.invariant
      (I := fun x => x.2.Owes (countAt Call.unsettled x.1.calls) ∧ x.1.core.asrcStats = x.2)
      (fun x ⟨⟨_, hs⟩, hk⟩ => ?_) fun x a x' ⟨hk, hstats⟩ hquiet hnext => ?_
    · obtain ⟨s, k⟩ := x
      obtain rfl : k = .zero := hk
      subst hs
      have hzero : countAt Call.unsettled (fun _ : ι => none) = 0 := countAt_eq_zero.2 fun _ => rfl
      exact ⟨hzero ▸ rfl, rfl⟩
    · obtain ⟨hnext, hk'⟩ := Machine.watch_next hnext
      rw [hk']
      exact ⟨status_owes hquiet hk hnext, hstats ▸ next_asrcStats hnext⟩
  have hzero : countAt Call.unsettled x.1.calls = 0 := by
    refine countAt_eq_zero.2 fun i => ?_
    cases hi : x.1.calls i with
    | none => rfl
    | some call =>
      cases call with
      | submit pc => exact absurd hi (hidle i pc)
      | _ => rfl
  have howes : x.2.submits = x.2.successes + x.2.fallbacks := by
    have := hinv.1
    rwa [hzero] at this
  refine ⟨?_, howes⟩
  rw [← hinv.2] at howes
  exact howes

theorem no_submit {s : Sys (Fin 2)} (h₀ : s.calls 0 = none) (h₁ : s.calls 1 = none) (i : Fin 2)
    (pc : SubmitPc) : s.calls i ≠ some (.submit pc) := by
  match i with
  | 0 => simp [h₀]
  | 1 => simp [h₁]

/-- One submit succeeds, and one is overtaken by a stop. -/
theorem submits_settled_overtaken : ∃ x : Sys (Fin 2) × Counters, x.2.successes = 1 ∧
    x.2.fallbacks = 1 ∧ x.2.submits = x.2.successes + x.2.fallbacks := by
  have hrun : ((accounted (Fin 2)).runBy (fun x a => x.1.QuietPrep a) (start true, .zero)
      (prepared 1 ++ callSteps 0 .processAsrc 3 ++ [.call 0 (.ok 1), .call 0 (.ok 0)] ++
        callSteps 0 .processAsrc 3 ++ callSteps 1 .streamStop 3 ++
        [.call 0 (.ok 0), .call 0 (.ok 0)])).map
      (fun x => (x.2.successes, x.2.fallbacks, x.1.calls 0, x.1.calls 1)) =
        some (1, 1, none, none) := by decide +kernel
  obtain ⟨x, hx, hx'⟩ := Option.map_eq_some_iff.1 hrun
  simp only [Prod.mk.injEq] at hx'
  obtain ⟨hsuccess, hfallback, hcall₀, hcall₁⟩ := hx'
  exact ⟨x, hsuccess, hfallback, (submits_settled
    (Machine.ReachableBy.runBy (.init ⟨⟨true, rfl⟩, rfl⟩) hx) (no_submit hcall₀ hcall₁)).2⟩

/-- A submit is overtaken by a stop, a start and the preparation that clears the counters: it
falls back, and is not counted any more. -/
theorem fallback_without_submit : ∃ x : Sys (Fin 2) × Counters, (accounted (Fin 2)).Reachable x ∧
    (∀ i pc, x.1.calls i ≠ some (.submit pc)) ∧
    x.1.core.submitCount ≠ x.1.core.successCount + x.1.core.fallbackCount ∧
    x.2.submits ≠ x.2.successes + x.2.fallbacks := by
  have hrun : ((accounted (Fin 2)).run (start true, .zero)
      (prepared 1 ++ callSteps 0 .processAsrc 3 ++ callSteps 1 .streamStop 3 ++ prepared 1 ++
        [.call 0 (.ok 0), .call 0 (.ok 0)])).map
      (fun x => (x.1.core.asrcStats, x.2, x.1.calls 0, x.1.calls 1)) =
        some (⟨0, 0, 1⟩, ⟨0, 0, 1⟩, none, none) := by decide +kernel
  obtain ⟨x, hx, hx'⟩ := Option.map_eq_some_iff.1 hrun
  simp only [Prod.mk.injEq] at hx'
  obtain ⟨hstats, hstatus, hcall₀, hcall₁⟩ := hx'
  simp only [Core.asrcStats, Counters.mk.injEq] at hstats
  refine ⟨x, Machine.Reachable.run (.init ⟨⟨true, rfl⟩, rfl⟩) hx, no_submit hcall₀ hcall₁, ?_, ?_⟩
  · rw [hstats.1, hstats.2.1, hstats.2.2]
    decide
  · rw [hstatus]
    decide

end Sys

end Lifecycle

end Offload

end LeAudioReceiver
