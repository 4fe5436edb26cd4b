import LeAudioReceiver.Offload.Policy
import Mathlib.Order.Nat

/-!
# Bounded recovery

How often the offload tries to recover a stream.  `Record` counts, since the recovery tries were
last reset, the recovery cycles that tried to reset the rings or to restart the other core, and
the submits committed in a row.  A cycle that was running when the tries were reset may still make
its attempt; it is counted apart.

* `Sys.bounded_recovery` : the bounds, the exits of FALLBACK and the end of the probation.
-/

namespace LeAudioReceiver

namespace Offload

namespace Lifecycle

/-- What has happened since the recovery tries were last reset. -/
structure Record where
  /-- Cycles that began since then and made an attempt. -/
  own : ℕ
  /-- Cycles that began before and made an attempt since then. -/
  carried : ℕ
  /-- The latest cycle began since then. -/
  mine : Bool
  /-- Its attempt has been counted. -/
  counted : Bool
  /-- Commits since the latest fault or recovery. -/
  streak : ℕ
  deriving DecidableEq

namespace Record

/-- Nothing has happened. -/
def empty : Record := ⟨0, 0, false, false, 0⟩

variable (r : Record)

/-- The cycles that made an attempt. -/
def attempts : ℕ := r.own + r.carried

/-- The record after an event. -/
def note : Event → Record
  | .start | .stop | .prepared _ => empty
  | .cleared => { empty with streak := r.streak + 1 }
  | .success => { r with streak := r.streak + 1 }
  | .fault | .unhealthy | .recovered _ => { r with streak := 0 }
  | .cycle => { r with mine := true, counted := false, streak := 0 }
  | .attempt =>
    -- a cycle may try both the rings and the other core
    if r.counted then r
    else if r.mine then { r with own := r.own + 1, counted := true }
    else { r with carried := r.carried + 1, counted := true }
  | .quiet | .prepFailed | .prepExhausted | .cycleFailed | .exhausted => r

end Record

/-! ### The policy -/

namespace Policy

/-- A delay between two tries. -/
def Bounded (ms : ℕ) : Prop := recoveryBaseMs ≤ ms ∧ ms ≤ recoveryMaxMs

theorem bounded_base : Bounded recoveryBaseMs := ⟨le_refl _, by decide⟩

theorem Bounded.double {ms : ℕ} (h : Bounded ms) : Bounded (Core.doubleBackoff ms) := by
  have hle := h.1
  have hbase : recoveryBaseMs ≤ recoveryMaxMs := by decide
  unfold Core.doubleBackoff
  split_ifs with hmax
  · exact ⟨hbase, le_refl _⟩
  · exact ⟨by omega, by omega⟩

/-- The policy beside the record of its events. -/
def recorded : Machine (Policy × Record) Event :=
  machine.watch .empty fun _ e _ r => r.note e

/-- What holds between the policy and the record. -/
structure Inv (p : Policy) (r : Record) : Prop where
  prepBackoff : Bounded p.prepBackoffMs
  recoveryBackoff : Bounded p.recoveryBackoffMs
  /-- The latest cycle has used one try, also if it has not made its attempt yet. -/
  tries : r.own + (r.mine && !r.counted).toNat ≤ p.recoveryTries
  own : r.own + (r.mine && !r.counted).toNat ≤ recoveryMaxTries
  carried : r.carried ≤ (r.mine || r.counted).toNat
  streak : p.state = .active → p.probationActive = true →
    r.streak = p.probationSuccess ∧ p.probationSuccess < probationSuccessThreshold

namespace Inv

variable {p p' : Policy} {r : Record} {e : Event}

theorem of_reset {n : ℕ} (hprep : Bounded p.prepBackoffMs) (hrec : Bounded p.recoveryBackoffMs)
    (hprobation : p.probationActive = false) : Inv p { Record.empty with streak := n } :=
  ⟨hprep, hrec, Nat.zero_le _, Nat.zero_le _, Nat.zero_le _,
    fun _ h => Bool.noConfusion (hprobation.symm.trans h)⟩

theorem of_not_active (h : Inv p r) {n : ℕ} (hprep : Bounded p'.prepBackoffMs)
    (hrec : Bounded p'.recoveryBackoffMs) (htries : p.recoveryTries ≤ p'.recoveryTries)
    (hstate : p'.state ≠ .active) : Inv p' { r with streak := n } :=
  ⟨hprep, hrec, h.tries.trans htries, h.own, h.carried, fun h => absurd h hstate⟩

theorem attempt (h : Inv p r) : Inv p (r.note .attempt) := by
  obtain ⟨own, carried, mine, counted, streak⟩ := r
  have htries := h.tries
  have hown := h.own
  have hcarried := h.carried
  cases counted with
  | true => exact h
  | false =>
    cases mine with
    | true => exact ⟨h.prepBackoff, h.recoveryBackoff, htries, hown, hcarried, h.streak⟩
    | false =>
      refine ⟨h.prepBackoff, h.recoveryBackoff, htries, hown, ?_, h.streak⟩
      exact Nat.succ_le_succ hcarried

theorem cycle (h : Inv p r) (hstate : p.state = .recovering)
    (htries : p.recoveryTries + 1 ≤ recoveryMaxTries) :
    Inv { p with recoveryTries := p.recoveryTries + 1 } (r.note .cycle) := by
  have hown : r.own ≤ p.recoveryTries := (Nat.le_add_right _ _).trans h.tries
  refine ⟨h.prepBackoff, h.recoveryBackoff, Nat.succ_le_succ hown,
    (Nat.succ_le_succ hown).trans htries, h.carried.trans (Bool.toNat_le _), fun hactive => ?_⟩
  exact State.noConfusion (hstate.symm.trans hactive)

theorem success (h : Inv p r)
    (hclear : p.probationActive = true → p.probationSuccess + 1 < probationSuccessThreshold) :
    Inv (if p.probationActive then { p with probationSuccess := p.probationSuccess + 1 } else p)
      (r.note .success) := by
  split_ifs with hp
  · refine ⟨h.prepBackoff, h.recoveryBackoff, h.tries, h.own, h.carried, fun hstate _ => ?_⟩
    exact ⟨congrArg (· + 1) (h.streak hstate hp).1, hclear hp⟩
  · exact ⟨h.prepBackoff, h.recoveryBackoff, h.tries, h.own, h.carried, fun _ h => absurd h hp⟩

theorem next (h : Inv p r) (hnext : p.next e = some p') : Inv p' (r.note e) := by
  -- a backoff starts at its base, and only a failure doubles it
  cases e with
  | quiet =>
    obtain rfl := Option.some.inj hnext
    exact h
  | attempt =>
    obtain rfl := Option.some.inj hnext
    exact h.attempt
  | start | stop =>
    obtain rfl := Option.some.inj hnext
    exact of_reset bounded_base bounded_base rfl
  | prepared epoch =>
    simp only [Policy.next] at hnext
    split_ifs at hnext
    obtain rfl := Option.some.inj hnext
    exact of_reset bounded_base bounded_base rfl
  | cleared =>
    simp only [Policy.next] at hnext
    split_ifs at hnext
    obtain rfl := Option.some.inj hnext
    exact of_reset h.prepBackoff bounded_base rfl
  | success =>
    simp only [Policy.next] at hnext
    split_ifs at hnext with hguard
    all_goals obtain rfl := Option.some.inj hnext
    · simpa [*] using h.success hguard.2
    · simpa [*] using h.success hguard.2
  | cycle =>
    simp only [Policy.next] at hnext
    split_ifs at hnext with hguard
    obtain rfl := Option.some.inj hnext
    exact h.cycle hguard.1 hguard.2
  | recovered epoch =>
    simp only [Policy.next] at hnext
    split_ifs at hnext
    obtain rfl := Option.some.inj hnext
    have hzero : 0 < probationSuccessThreshold := by decide
    exact ⟨h.prepBackoff, h.recoveryBackoff, h.tries, h.own, h.carried, fun _ _ => ⟨rfl, hzero⟩⟩
  | unhealthy =>
    simp only [Policy.next] at hnext
    split_ifs at hnext
    obtain rfl := Option.some.inj hnext
    exact h.of_not_active h.prepBackoff h.recoveryBackoff le_rfl State.noConfusion
  | fault =>
    simp only [Policy.next] at hnext
    split_ifs at hnext <;> obtain rfl := Option.some.inj hnext
    · exact h.of_not_active h.prepBackoff h.recoveryBackoff.double le_rfl State.noConfusion
    · exact h.of_not_active h.prepBackoff h.recoveryBackoff le_rfl State.noConfusion
  | prepFailed =>
    simp only [Policy.next] at hnext
    split_ifs at hnext with hguard
    obtain rfl := Option.some.inj hnext
    exact h.of_not_active h.prepBackoff.double h.recoveryBackoff le_rfl (by simp [hguard])
  | cycleFailed =>
    simp only [Policy.next] at hnext
    split_ifs at hnext with hguard
    obtain rfl := Option.some.inj hnext
    exact h.of_not_active h.prepBackoff h.recoveryBackoff.double le_rfl (by simp [hguard])
  | prepExhausted =>
    simp only [Policy.next] at hnext
    split_ifs at hnext
    obtain rfl := Option.some.inj hnext
    exact h.of_not_active h.prepBackoff h.recoveryBackoff le_rfl State.noConfusion
  | exhausted =>
    simp only [Policy.next] at hnext
    split_ifs at hnext
    obtain rfl := Option.some.inj hnext
    exact h.of_not_active h.prepBackoff h.recoveryBackoff (Nat.le_succ _) State.noConfusion

end Inv

theorem inv_of_reachable {x : Policy × Record} (h : recorded.Reachable x) : Inv x.1 x.2 := by
  refine h.invariant (I := fun x => Inv x.1 x.2) (fun x ⟨hp, hr⟩ => ?_) fun x e x' hx hnext => ?_
  · obtain ⟨p, r⟩ := x
    obtain rfl : p = init := hp
    obtain rfl : r = .empty := hr
    exact Inv.of_reset (n := 0) bounded_base bounded_base rfl
  · obtain ⟨hnext, hr⟩ := Machine.watch_next hnext
    rw [hr]
    exact hx.next hnext

/-- FALLBACK is left by a start or a stop. -/
theorem next_fallback {p p' : Policy} {e : Event} (h : p.state = .fallback)
    (hnext : p.next e = some p') (hleft : p'.state ≠ .fallback) : e = .start ∨ e = .stop := by
  cases e with
  | start => exact .inl rfl
  | stop => exact .inr rfl
  | quiet | attempt =>
    obtain rfl := Option.some.inj hnext
    exact absurd h hleft
  | _ => simp [next, h] at hnext

/-- The probation ends by a start, a stop, a preparation or the last commit. -/
theorem next_probation {p p' : Policy} {e : Event} (h : p.probationActive = true)
    (hnext : p.next e = some p') (hend : p'.probationActive = false) :
    e = .start ∨ e = .stop ∨ (∃ epoch, e = .prepared epoch) ∨
      e = .cleared ∧ p.state = .active ∧ p.probationSuccess + 1 ≥ probationSuccessThreshold := by
  cases e with
  | start => exact .inl rfl
  | stop => exact .inr (.inl rfl)
  | prepared epoch => exact .inr (.inr (.inl ⟨epoch, rfl⟩))
  | cleared =>
    simp only [next] at hnext
    split_ifs at hnext with hguard
    exact .inr (.inr (.inr ⟨rfl, hguard.1, hguard.2.2⟩))
  | quiet | attempt =>
    obtain rfl := Option.some.inj hnext
    exact Bool.noConfusion (h.symm.trans hend)
  | _ =>
    simp only [next, h, if_true] at hnext
    split_ifs at hnext
    obtain rfl := Option.some.inj hnext
    first | exact Bool.noConfusion (h.symm.trans hend) | exact Bool.noConfusion hend

end Policy

/-! ### The module -/

namespace Sys

variable {ι : Type*} {s s' : Sys ι} {a : Action ι}

section

variable [DecidableEq ι]

/-- The module beside the record of its events. -/
def recorded (ι : Type*) [DecidableEq ι] : Machine (Sys ι × Record) (Action ι) :=
  (machine ι).watch .empty fun s a _ r => r.note (s.event a)

/-- The records of the module are records of the policy. -/
theorem recorded_policy {x : Sys ι × Record} (h : (recorded ι).Reachable x) :
    Policy.recorded.Reachable (x.1.core.policy, x.2) := by
  refine Machine.ReachableBy.simulate (f := fun x : Sys ι × Record => (x.1.core.policy, x.2)) h
    (fun x ⟨⟨_, hs⟩, hr⟩ => ?_) fun x a x' hx _ hnext => ?_
  · exact ⟨by rw [hs]; rfl, hr⟩
  · obtain ⟨hnext, hr⟩ := Machine.watch_next hnext
    have hcaptured := capturedActive (Machine.Reachable.unwatch hx)
    refine ⟨x.1.event a, ?_⟩
    rw [hr]
    exact congrArg (Option.map _) (next_refines hcaptured hnext)

theorem exhausted_of_tries {r : Result} (hw : s.worker = .recovery .entry)
    (hstate : s.core.state = .recovering) (htries : recoveryMaxTries ≤ s.core.recoveryTries)
    (hnext : s.next (.worker r) = some s') : s'.core.state = .fallback := by
  obtain ⟨x, hx, rfl⟩ := Option.map_eq_some_iff.1 hnext
  rw [hw] at hx
  obtain rfl := Option.some.inj hx
  simp only [Core.recoveryWork]
  rw [if_neg (not_not.2 hstate), if_pos (Nat.lt_succ_of_le htries)]

/-- In every run the recovery is bounded.  Since the tries were last reset, at most
`OFFLOAD_RECOVERY_MAX_TRIES` of the recovery cycles begun since then have made an attempt, and at
most one cycle that was begun before; the next cycle after them leads to FALLBACK.  FALLBACK is
left by a stream start or stop only, the backoffs keep to their range, and the probation is cleared
by the last of `PROBATION_SUCCESS_THRESHOLD` commits in a row, if not by a start, a stop or a
preparation. -/
theorem bounded_recovery {x : Sys ι × Record} (h : (recorded ι).Reachable x) :
    x.2.own ≤ recoveryMaxTries ∧ x.2.carried ≤ 1 ∧
    (∀ r s', x.1.worker = .recovery .entry → x.1.core.state = .recovering →
      x.2.own = recoveryMaxTries → x.1.next (.worker r) = some s' → s'.core.state = .fallback) ∧
    (∀ a s', x.1.next a = some s' → x.1.core.state = .fallback → s'.core.state ≠ .fallback →
      ∃ i r, a = .call i r ∧
        (x.1.calls i = some .startLock ∨ x.1.calls i = some .stopLock)) ∧
    (recoveryBaseMs ≤ x.1.core.recoveryBackoffMs ∧
      x.1.core.recoveryBackoffMs ≤ recoveryMaxMs) ∧
    (recoveryBaseMs ≤ x.1.core.prepBackoffMs ∧ x.1.core.prepBackoffMs ≤ recoveryMaxMs) ∧
    (∀ a s', x.1.next a = some s' → x.1.core.probationActive = true →
      s'.core.probationActive = false →
      (∃ i r, a = .call i r ∧
        (x.1.calls i = some .startLock ∨ x.1.calls i = some .stopLock)) ∨
      (∃ r g epoch, a = .worker r ∧ x.1.worker = .prep (.commit g epoch)) ∨
      (∃ i r t, a = .call i r ∧ x.1.calls i = some (.submit (.commit t)) ∧
        x.2.streak + 1 = probationSuccessThreshold)) := by
  have hinv : Policy.Inv x.1.core.policy x.2 := Policy.inv_of_reachable (recorded_policy h)
  have hcaptured := capturedActive (Machine.Reachable.unwatch h)
  -- the tries of the core bound those of the record
  have hown : x.2.own ≤ x.1.core.recoveryTries := (Nat.le_add_right _ _).trans hinv.tries
  refine ⟨(Nat.le_add_right _ _).trans hinv.own, hinv.carried.trans (Bool.toNat_le _),
    fun r s' hw hstate hmax hnext => ?_, fun a s' hnext hstate hleft => ?_, hinv.recoveryBackoff,
    hinv.prepBackoff, fun a s' hnext hp hend => ?_⟩
  · exact exhausted_of_tries hw hstate (hmax ▸ hown) hnext
  · have hcause := causes_event x.1 a
    rcases Policy.next_fallback hstate (next_refines hcaptured hnext) hleft with he | he
    · rw [he] at hcause
      obtain ⟨i, r, ha, hi⟩ := hcause
      exact ⟨i, r, ha, .inl hi⟩
    · rw [he] at hcause
      obtain ⟨i, r, ha, hi⟩ := hcause
      exact ⟨i, r, ha, .inr hi⟩
  · have hcause := causes_event x.1 a
    rcases Policy.next_probation hp (next_refines hcaptured hnext) hend with
      he | he | ⟨epoch, he⟩ | ⟨he, hactive, hn⟩ <;> rw [he] at hcause
    · obtain ⟨i, r, ha, hi⟩ := hcause
      exact .inl ⟨i, r, ha, .inl hi⟩
    · obtain ⟨i, r, ha, hi⟩ := hcause
      exact .inl ⟨i, r, ha, .inr hi⟩
    · obtain ⟨r, g, ha, hw⟩ := hcause
      exact .inr (.inl ⟨r, g, epoch, ha, hw⟩)
    · obtain ⟨i, r, t, ha, hi⟩ := hcause
      obtain ⟨hstreak, hlt⟩ := hinv.streak hactive hp
      refine .inr (.inr ⟨i, r, t, ha, hi, ?_⟩)
      rw [hstreak]
      exact Nat.le_antisymm hlt hn

end

/-! ### A cycle that outlives a reset -/

/-- Thread `i` starts a stream, which is prepared; thread `j` finds the other core unhealthy, and a
recovery cycle begins. -/
def recoveryBegun (i j : ι) : List (Action ι) :=
  prepared i ++ callSteps j .healthTransition 2 ++ [.takeRecovery, .worker (.ok 7)]

/-- The stream is started again before the cycle resets the rings; the other core is unhealthy
again. -/
def startedMeanwhile (i j : ι) : List (Action ι) :=
  callSteps i .streamStart 4 ++ List.replicate 3 (.worker (.ok 7)) ++
    callSteps j .healthTransition 2

/-- A cycle in which the restart fails. -/
def failedCycle : List (Action ι) :=
  [.takeRecovery, .worker (.ok 7), .worker .fail, .worker (.ok 7), .worker .fail, .worker (.ok 7),
    .worker (.ok 7), .worker (.ok 7)]

/-- Five such cycles follow. -/
def sixAttempts (i j : ι) : List (Action ι) :=
  recoveryBegun i j ++ startedMeanwhile i j ++ (List.replicate 5 failedCycle).flatten

/-- Six recovery cycles reset the rings or restart the other core without a reset of the tries
between them. -/
theorem six_attempts : ∃ x : Sys (Fin 2) × Record, (recorded (Fin 2)).Reachable x ∧
    recoveryMaxTries < x.2.attempts ∧ x.1.core.state = .recovering := by
  have hrun : ((recorded (Fin 2)).run (start true, .empty) (sixAttempts 0 1)).map
      (fun x => (x.2.attempts, x.1.core.state)) = some (6, .recovering) := by decide +kernel
  obtain ⟨x, hx, hx'⟩ := Option.map_eq_some_iff.1 hrun
  have hreach : (recorded (Fin 2)).Reachable x :=
    Machine.Reachable.run (.init ⟨⟨true, rfl⟩, rfl⟩) hx
  obtain ⟨hattempts, hstate⟩ := Prod.mk.inj hx'
  refine ⟨x, hreach, ?_, hstate⟩
  rw [hattempts]
  decide

/-- After these attempts, five of them by cycles of the second stream, the next cycle gives up. -/
theorem bounded_recovery_exhausted : ∃ x : Sys (Fin 2) × Record,
    x.2.own = recoveryMaxTries ∧ x.2.carried = 1 ∧ x.1.worker = .recovery .entry ∧
      ∀ r s', x.1.next (.worker r) = some s' → s'.core.state = .fallback := by
  have hrun : ((recorded (Fin 2)).run (start true, .empty)
      (sixAttempts 0 1 ++ [.takeRecovery])).map
      (fun x => (x.2.own, x.2.carried, x.1.worker, x.1.core.state)) =
        some (5, 1, .recovery .entry, .recovering) := by decide +kernel
  obtain ⟨x, hx, hx'⟩ := Option.map_eq_some_iff.1 hrun
  have hreach : (recorded (Fin 2)).Reachable x :=
    Machine.Reachable.run (.init ⟨⟨true, rfl⟩, rfl⟩) hx
  simp only [Prod.mk.injEq] at hx'
  obtain ⟨hown, hcarried, hworker, hstate⟩ := hx'
  exact ⟨x, hown, hcarried, hworker, fun r s' =>
    (bounded_recovery hreach).2.2.1 r s' hworker hstate hown⟩

end Sys

end Lifecycle

end Offload

end LeAudioReceiver
