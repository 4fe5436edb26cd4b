import LeAudioReceiver.UserPairingIo.Basic
import Mathlib.Data.List.GetD
import Mathlib.Data.Nat.Basic

/-!
# Isolation of the holds

The generation that a handler compares with the current one is read from the work item when it
takes the lock, and each press stores its own there.  So while the button is pressed the test of
the generation always passes, and a handler that was called for an earlier hold fires in the
current one.

* `State.generation_eq` : the test of the generation never fails while the button is pressed;
* `State.requests_isolated` : in every run in which no handler takes the lock in a later hold, and
  no release comes between the lock and the request, every request belongs to the hold whose timeout
  made it;
* `State.stale_reset` : a reset at the start of a short press.
-/

namespace LeAudioReceiver

namespace UserPairingIo

/-- The threshold that has fired and the hold for which it has, before the request. -/
def WorkPc.decided : WorkPc → Option (Kind × ℕ)
  | .cancelBonding _ hold => some (.reset, hold)
  | .request k _ hold => some (k, hold)
  | _ => none

/-- The hold whose timeout the thread serves, until the request. -/
def WorkPc.cause : WorkPc → Option (Kind × ℕ)
  | .started k cause => some (k, cause)
  | .cancelBonding cause _ => some (.reset, cause)
  | .request k cause _ => some (k, cause)
  | _ => none

namespace State

variable (cfg : Config) (s : State)

/-- A handler is about to take the lock in a later hold than that of its timeout, with the button
pressed and the threshold armed. -/
def stale : Bool :=
  match s.workPc with
  | .started k cause => cause ≠ s.hold && s.pressed && s.armed k
  | _ => false

/-- No handler takes the lock in a later hold, and no release is processed between the lock and
the request. -/
def orderly : Action → Bool
  | .release => s.workPc.decided = none
  | .work _ => !s.stale
  | _ => true

/-- The requests of a threshold for a hold. -/
def requested (k : Kind) (h : ℕ) : ℕ := s.requests.countP fun r => r.kind = k ∧ r.hold = h

/-- What is asked of a request. -/
structure Fits (r : Request) : Prop where
  /-- It was caused by a timeout of its own hold. -/
  cause : r.cause = r.hold
  /-- Its hold had lasted long enough. -/
  time : s.pressTime r.hold + cfg.holdMs r.kind ≤ r.time
  /-- No release of its hold had been processed. -/
  released : r.released = false

/-- Every request fits its hold, and each threshold makes one for a hold at most. -/
structure Isolated : Prop where
  fits : ∀ r ∈ s.requests, s.Fits cfg r
  once : ∀ k h, s.requested k h ≤ 1

/-! ### The invariant -/

/-- A hold has lasted as long as a threshold asks for. -/
def Due (k : Kind) (h : ℕ) : Prop := h ≤ s.hold ∧ s.pressTime h + cfg.holdMs k ≤ s.now

/-- The requests of a threshold for a hold, with the one that is decided. -/
def spent (k : Kind) (h : ℕ) : ℕ :=
  s.requested k h + if s.workPc.decided = some (k, h) then 1 else 0

/-- The threshold can still fire for the hold. -/
def remaining (k : Kind) (h : ℕ) : ℕ := if h = s.hold ∧ s.armed k = true then 1 else 0

/-- What holds between two steps. -/
structure Inv : Prop where
  begun : s.pressTime s.hold ≤ s.now
  released : s.released ≤ s.hold
  pressed : s.pressed = true → s.released < s.hold
  timeout : ∀ k t, (s.work k).timeout = some t →
    t.hold ≤ s.hold ∧ s.pressTime t.hold + cfg.holdMs k ≤ t.deadline
  queued : ∀ k h, (s.work k).queued = some h → s.Due cfg k h
  cause : ∀ k h, s.workPc.cause = some (k, h) → s.Due cfg k h
  decided : ∀ k h, s.workPc.decided = some (k, h) →
    s.workPc.cause = some (k, h) ∧ s.released < h
  fits : ∀ r ∈ s.requests, s.Fits cfg r ∧ r.hold ≤ s.hold
  once : ∀ k h, s.spent k h + s.remaining k h ≤ 1

/-- What a step can do that begins no hold and makes no request. -/
structure Advances (s t : State) : Prop where
  now : s.now ≤ t.now
  presses : t.presses = s.presses
  requests : t.requests = s.requests
  pressed : t.pressed = true → s.pressed = true
  armed : ∀ k, t.armed k = true → s.armed k = true
  /-- A release is processed. -/
  released : t.released = s.released ∨
    t.released = s.hold ∧ t.pressed = false ∧ t.workPc.decided = none
  /-- A timeout is started. -/
  timeout : ∀ k x, (t.work k).timeout = some x →
    (s.work k).timeout = some x ∨ x = ⟨s.now + cfg.holdMs k, s.hold⟩
  /-- A timeout expires. -/
  queued : ∀ k h, (t.work k).queued = some h →
    (s.work k).queued = some h ∨ ∃ d ≤ s.now, (s.work k).timeout = some ⟨d, h⟩
  /-- A handler is called. -/
  cause : ∀ k h, t.workPc.cause = some (k, h) →
    s.workPc.cause = some (k, h) ∨ (s.work k).queued = some h
  /-- A threshold fires, in the hold of its timeout. -/
  decided : ∀ k h, t.workPc.decided = some (k, h) →
    s.workPc.decided = some (k, h) ∧ t.workPc.cause = s.workPc.cause ∨
      t.workPc.cause = some (k, h) ∧ s.pressed = true ∧ s.armed k = true ∧ t.armed k = false ∧
        h = s.hold

variable {cfg s} {t : State}

theorem Due.mono {k : Kind} {h : ℕ} (hd : s.Due cfg k h) (hpresses : t.presses = s.presses)
    (hnow : s.now ≤ t.now) : t.Due cfg k h := by
  unfold Due hold pressTime
  rw [hpresses]
  exact ⟨hd.1, Nat.le_trans hd.2 hnow⟩

theorem Fits.mono {r : Request} (hr : s.Fits cfg r) (hpresses : t.presses = s.presses) :
    t.Fits cfg r := by
  refine ⟨hr.cause, ?_, hr.released⟩
  unfold pressTime
  rw [hpresses]
  exact hr.time

theorem Inv.unspent (h : s.Inv cfg) {k : Kind} (harmed : s.armed k = true) :
    s.spent k s.hold = 0 := by
  have honce := h.once k s.hold
  unfold remaining at honce
  rw [if_pos ⟨rfl, harmed⟩] at honce
  omega

theorem Advances.once (ha : s.Advances cfg t) (h : s.Inv cfg) (k : Kind) (n : ℕ) :
    t.spent k n + t.remaining k n ≤ 1 := by
  have honce := h.once k n
  have hremaining : t.remaining k n ≤ s.remaining k n := by
    unfold remaining hold
    rw [ha.presses]
    split_ifs with h₁ h₂
    · exact le_rfl
    · exact absurd ⟨h₁.1, ha.armed k h₁.2⟩ h₂
    · exact Nat.zero_le _
    · exact le_rfl
  have hrequested : t.requested k n = s.requested k n := by
    unfold requested
    rw [ha.requests]
  by_cases hd : t.workPc.decided = some (k, n)
  · rcases ha.decided k n hd with ⟨hold, -⟩ | ⟨-, -, harmed, hspent, rfl⟩
    · unfold spent at honce ⊢
      rw [if_pos hold] at honce
      rw [if_pos hd]
      omega
    · -- the threshold was armed, and is not any more
      have hzero := h.unspent harmed
      unfold remaining
      unfold spent at hzero ⊢
      rw [if_pos hd, hspent]
      simp only [Bool.false_eq_true, and_false, if_false]
      omega
  · unfold spent at honce ⊢
    rw [if_neg hd]
    omega

theorem Inv.advance (h : s.Inv cfg) (ha : s.Advances cfg t) : t.Inv cfg := by
  have hhold : t.hold = s.hold := congrArg List.length ha.presses
  have htime : t.pressTime = s.pressTime := by
    funext n
    unfold pressTime
    rw [ha.presses]
  -- a handler starts for a timeout that was queued
  have hcause : ∀ k n, t.workPc.cause = some (k, n) → s.Due cfg k n := by
    intro k n hc
    rcases ha.cause k n hc with hc | hq
    · exact h.cause k n hc
    · exact h.queued k n hq
  refine ⟨?_, ?_, ?_, ?_, ?_, ?_, ?_, ?_, ha.once h⟩
  · rw [htime, hhold]
    exact Nat.le_trans h.begun ha.now
  · rw [hhold]
    rcases ha.released with heq | ⟨heq, -⟩
    · rw [heq]
      exact h.released
    · exact Nat.le_of_eq heq
  · intro hp
    rw [hhold]
    rcases ha.released with heq | ⟨-, hnot, -⟩
    · rw [heq]
      exact h.pressed (ha.pressed hp)
    · rw [hnot] at hp
      cases hp
  · intro k x hx
    rw [hhold, htime]
    rcases ha.timeout k x hx with hx | rfl
    · exact h.timeout k x hx
    · exact ⟨le_rfl, Nat.add_le_add_right h.begun _⟩
  · intro k n hq
    rcases ha.queued k n hq with hq | ⟨d, hd, hx⟩
    · exact (h.queued k n hq).mono ha.presses ha.now
    · obtain ⟨hle, hdeadline⟩ := h.timeout k _ hx
      -- a timeout is queued at its deadline or later
      have hdue : s.Due cfg k n := ⟨hle, Nat.le_trans hdeadline hd⟩
      exact hdue.mono ha.presses ha.now
  · intro k n hc
    exact (hcause k n hc).mono ha.presses ha.now
  · intro k n hd
    rcases ha.released with heq | ⟨-, -, hnone⟩
    · rw [heq]
      rcases ha.decided k n hd with ⟨hold, hc⟩ | ⟨hc, hp, -, -, rfl⟩
      · rw [hc]
        exact h.decided k n hold
      · exact ⟨hc, h.pressed hp⟩
    · rw [hnone] at hd
      cases hd
  · rw [ha.requests, hhold]
    intro r hr
    exact ⟨(h.fits r hr).1.mono ha.presses, (h.fits r hr).2⟩

/-! ### The steps -/

theorem Inv.spent_next (h : s.Inv cfg) {k : Kind} {n : ℕ} (hn : s.hold < n) : s.spent k n = 0 := by
  have hrequested : s.requested k n = 0 := by
    unfold requested
    rw [List.countP_eq_zero]
    intro r hr
    have hle := (h.fits r hr).2
    simp only [decide_eq_true_eq]
    omega
  have hdecided : s.workPc.decided ≠ some (k, n) := by
    intro hd
    have hle := (h.cause k n (h.decided k n hd).1).1
    omega
  unfold spent
  rw [hrequested, if_neg hdecided]

/-- An earlier press is not affected by a new one. -/
theorem pressTime_append {x n : ℕ} (hn : n ≤ s.hold) :
    (0 :: (s.presses ++ [x])).getD n 0 = s.pressTime n := by
  rw [← List.cons_append]
  exact List.getD_append _ _ _ _ (Nat.lt_succ_of_le hn)

theorem Inv.press (h : s.Inv cfg) : s.press.Inv cfg := by
  cases hp : s.pressed with
  | true =>
    -- a press while the button is pressed is ignored
    have hsame : s.press = s := if_pos hp
    rw [hsame]
    exact h
  | false =>
    have hpress : s.press = _ := if_neg (by simp [hp])
    have hhold : s.press.hold = s.hold + 1 := by
      rw [hpress]
      exact List.length_append
    -- the times of the earlier holds stay
    have htime : ∀ n ≤ s.hold, s.press.pressTime n = s.pressTime n := by
      intro n hn
      rw [hpress]
      exact pressTime_append hn
    have hdue : ∀ k n, s.Due cfg k n → s.press.Due cfg k n := by
      intro k n hd
      refine ⟨?_, ?_⟩
      · rw [hhold]
        exact Nat.le_succ_of_le hd.1
      · rw [htime n hd.1, hpress]
        exact hd.2
    have hpc : s.press.workPc = s.workPc := by rw [hpress]
    have hrequests : s.press.requests = s.requests := by rw [hpress]
    have hreleased : s.press.released = s.released := by rw [hpress]
    refine ⟨?_, ?_, ?_, ?_, ?_, ?_, ?_, ?_, ?_⟩
    · rw [hhold, hpress]
      refine Nat.le_of_eq ?_
      change (0 :: (s.presses ++ [s.now])).getD (s.presses.length + 1) 0 = s.now
      rw [List.getD_cons_succ, List.getD_append_right _ _ _ _ le_rfl, Nat.sub_self]
      rfl
    · rw [hhold, hreleased]
      exact Nat.le_succ_of_le h.released
    · intro _
      rw [hhold, hreleased]
      exact Nat.lt_succ_of_le h.released
    · intro k x hx
      have hold : (s.work k).timeout = some x := by
        rw [hpress] at hx
        exact hx
      obtain ⟨hle, hdeadline⟩ := h.timeout k x hold
      rw [hhold, htime _ hle]
      exact ⟨Nat.le_succ_of_le hle, hdeadline⟩
    · intro k n hq
      rw [hpress] at hq
      exact hdue k n (h.queued k n hq)
    · rw [hpc]
      intro k n hc
      exact hdue k n (h.cause k n hc)
    · rw [hpc, hreleased]
      exact h.decided
    · rw [hrequests, hhold]
      intro r hr
      obtain ⟨hfits, hle⟩ := h.fits r hr
      refine ⟨⟨hfits.cause, ?_, hfits.released⟩, Nat.le_succ_of_le hle⟩
      rw [htime _ hle]
      exact hfits.time
    · intro k n
      have hspent : s.press.spent k n = s.spent k n := by
        unfold spent requested
        rw [hpc, hrequests]
      unfold remaining
      rw [hspent, hhold]
      -- the new hold has spent nothing of its thresholds
      by_cases hn : n = s.hold + 1
      · have hzero := h.spent_next (k := k) (n := n) (by omega)
        split_ifs <;> omega
      · rw [if_neg (fun hand => hn hand.1)]
        have honce := h.once k n
        omega

/-- A work keeps its timeout and its place on the queue, or loses them. -/
def Loses (w w' : ThresholdWork) : Prop :=
  (w'.timeout = none ∨ w'.timeout = w.timeout) ∧ (w'.queued = none ∨ w'.queued = w.queued)

@[simp]
theorem setWork_work_self (k : Kind) (f : ThresholdWork → ThresholdWork) :
    (s.setWork k f).work k = f (s.work k) := if_pos rfl

theorem setWork_work_ne {k k' : Kind} (hk : k' ≠ k) (f : ThresholdWork → ThresholdWork) :
    (s.setWork k f).work k' = s.work k' := if_neg hk

theorem loses_setWork {k : Kind} {f : ThresholdWork → ThresholdWork} (hf : ∀ w, Loses w (f w))
    (k' : Kind) : Loses (s.work k') ((s.setWork k f).work k') := by
  by_cases hk : k' = k
  · rw [hk, setWork_work_self]
    exact hf _
  · rw [setWork_work_ne hk]
    exact ⟨.inr rfl, .inr rfl⟩

theorem Advances.quiet (hnow : s.now ≤ t.now) (hpresses : t.presses = s.presses)
    (hrequests : t.requests = s.requests) (hreleased : t.released = s.released)
    (hpressed : t.pressed = true → s.pressed = true)
    (harmed : ∀ k, t.armed k = true → s.armed k = true) (hwork : ∀ k, Loses (s.work k) (t.work k))
    (hpc : t.workPc = s.workPc ∨ t.workPc.cause = none ∧ t.workPc.decided = none) :
    s.Advances cfg t := by
  refine ⟨hnow, hpresses, hrequests, hpressed, harmed, .inl hreleased, ?_, ?_, ?_, ?_⟩
  · intro k x hx
    rcases (hwork k).1 with hnone | hsame
    · rw [hnone] at hx
      cases hx
    · exact .inl (hsame ▸ hx)
  · intro k n hq
    rcases (hwork k).2 with hnone | hsame
    · rw [hnone] at hq
      cases hq
    · exact .inl (hsame ▸ hq)
  · intro k n hc
    rcases hpc with hsame | ⟨hnone, -⟩
    · exact .inl (hsame ▸ hc)
    · rw [hnone] at hc
      cases hc
  · intro k n hd
    rcases hpc with hsame | ⟨-, hnone⟩
    · rw [hsame] at hd ⊢
      exact .inl ⟨hd, rfl⟩
    · rw [hnone] at hd
      cases hd

theorem loses_cancel (k k' : Kind) : Loses (s.work k') ((s.cancel k).work k') :=
  loses_setWork (fun _ => ⟨.inl rfl, .inl rfl⟩) k'

theorem loses_finish (k k' : Kind) : Loses (s.work k') ((s.finish k).work k') :=
  loses_setWork (f := fun w => { w with canceling := false }) (fun _ => ⟨.inr rfl, .inr rfl⟩) k'

theorem loses_refl (w : ThresholdWork) : Loses w w := ⟨.inr rfl, .inr rfl⟩

theorem Inv.makeRequest {k : Kind} {cause hold : ℕ} (h : s.Inv cfg)
    (hpc : s.workPc = .request k cause hold) (ret : ℤ) :
    (s.makeRequest k cause hold ret).Inv cfg := by
  obtain ⟨hcause, hreleased⟩ := h.decided k hold (by rw [hpc]; rfl)
  have heq : cause = hold := by
    rw [hpc] at hcause
    exact (Prod.mk.inj (Option.some.inj hcause)).2
  obtain ⟨hle, htime⟩ := h.cause k hold hcause
  -- the request is made, and the thread has nothing decided any more
  have hmade : ({ s with
      requests := s.requests ++ [⟨k, hold, cause, s.now, hold ≤ s.released⟩]
      workPc := .idle } : State).Inv cfg := by
    refine ⟨h.begun, h.released, h.pressed, h.timeout, h.queued, nofun, nofun, ?_, ?_⟩
    · intro r hr
      rcases List.mem_append.1 hr with hr | hr
      · exact ⟨(h.fits r hr).1.mono rfl, (h.fits r hr).2⟩
      · rw [List.mem_singleton] at hr
        subst hr
        exact ⟨⟨heq, htime, decide_eq_false (Nat.not_le.2 hreleased)⟩, hle⟩
    · intro k' n
      refine Nat.le_trans (Nat.add_le_add_right ?_ _) (h.once k' n)
      unfold spent requested
      rw [hpc, List.countP_append, List.countP_singleton]
      by_cases hsame : k = k' ∧ hold = n
      · obtain ⟨rfl, rfl⟩ := hsame
        simp [WorkPc.decided]
      · have hne : ¬ (k, hold) = (k', n) := fun h => hsame (Prod.mk.inj h)
        simp [WorkPc.decided, hsame]
  refine hmade.advance ?_
  unfold State.makeRequest
  dsimp only
  split_ifs
  · exact .quiet le_rfl rfl rfl rfl id (fun _ => id) (fun _ => loses_refl _) (.inr ⟨rfl, rfl⟩)
  · exact .quiet le_rfl rfl rfl rfl id (fun _ => id) (fun k' => loses_finish k k')
      (.inr ⟨rfl, rfl⟩)

theorem schedule_work (k k' : Kind) (ret : ℤ) :
    ((s.schedule cfg k ret).work k').queued = (s.work k').queued ∧
      (((s.schedule cfg k ret).work k').timeout = (s.work k').timeout ∨
        ((s.schedule cfg k ret).work k').timeout = none ∨
        ((s.schedule cfg k ret).work k').timeout = some ⟨s.now + cfg.holdMs k', s.hold⟩) := by
  by_cases hk : k' = k
  · subst hk
    unfold schedule
    dsimp only
    rw [setWork_work_self]
    refine ⟨rfl, .inr ?_⟩
    split_ifs
    · exact .inl rfl
    · exact .inr rfl
  · unfold schedule
    dsimp only
    rw [setWork_work_ne hk]
    exact ⟨rfl, .inl rfl⟩

theorem advances_schedule (k : Kind) (ret : ℤ) : s.Advances cfg (s.schedule cfg k ret) := by
  refine ⟨le_rfl, rfl, rfl, id, fun _ => id, .inl rfl, ?_, ?_, fun _ _ => .inl,
    fun _ _ hd => .inl ⟨hd, rfl⟩⟩
  · intro k' x hx
    rcases (schedule_work k k' ret).2 with hsame | hnone | hnew
    · exact .inl (hsame ▸ hx)
    · rw [hnone] at hx
      cases hx
    · rw [hnew] at hx
      exact .inr (Option.some.inj hx).symm
  · intro k' n hq
    rw [(schedule_work k k' ret).1] at hq
    exact .inl hq

theorem advances_inputRun {ret : ℤ} (hnext : s.inputRun cfg ret = some t) :
    s.Advances cfg t := by
  unfold inputRun at hnext
  split at hnext
  · cases hnext
  · obtain rfl := Option.some.inj hnext
    exact advances_schedule _ ret
  · obtain rfl := Option.some.inj hnext
    exact .quiet le_rfl rfl rfl rfl id (fun _ => id) (loses_cancel .bond) (.inl rfl)
  · obtain rfl := Option.some.inj hnext
    exact .quiet le_rfl rfl rfl rfl id (fun _ => id) (loses_cancel .reset) (.inl rfl)
  · obtain rfl := Option.some.inj hnext
    exact .quiet le_rfl rfl rfl rfl nofun (fun _ => nofun) (fun _ => loses_refl _) (.inl rfl)
  · obtain rfl := Option.some.inj hnext
    exact .quiet le_rfl rfl rfl rfl id (fun _ => id) (loses_cancel .bond) (.inl rfl)
  · obtain rfl := Option.some.inj hnext
    exact .quiet le_rfl rfl rfl rfl id (fun _ => id) (loses_cancel .reset) (.inl rfl)

theorem advances_release (hidle : s.workPc.decided = none) : s.Advances cfg s.release := by
  unfold release
  dsimp only
  split_ifs with hp
  · refine ⟨le_rfl, rfl, rfl, id, fun _ => id, .inr ⟨rfl, by simpa using hp, hidle⟩,
      fun _ _ => .inl, fun _ _ => .inl, fun _ _ => .inl, fun _ _ hd => .inl ⟨hd, rfl⟩⟩
  · exact ⟨le_rfl, rfl, rfl, nofun, fun _ => nofun, .inr ⟨rfl, rfl, hidle⟩,
      fun _ _ => .inl, fun _ _ => .inl, fun _ _ => .inl, fun _ _ hd => .inl ⟨hd, rfl⟩⟩

theorem advances_expire {k : Kind} (hnext : s.expire k = some t) : s.Advances cfg t := by
  unfold expire at hnext
  split at hnext
  · cases hnext
  · rename_i x hx
    split_ifs at hnext with hdue
    obtain rfl := Option.some.inj hnext
    refine ⟨le_rfl, rfl, rfl, id, fun _ => id, .inl rfl, ?_, ?_, fun _ _ => .inl,
      fun _ _ hd => .inl ⟨hd, rfl⟩⟩
    · intro k' y hy
      by_cases hk : k' = k
      · rw [hk, setWork_work_self] at hy
        cases hy
      · rw [setWork_work_ne hk] at hy
        exact .inl hy
    · intro k' n hq
      by_cases hk : k' = k
      · rw [hk, setWork_work_self] at hq
        dsimp only at hq
        rw [hk]
        split_ifs at hq
        · exact .inl hq
        · cases hold : (s.work k).queued with
          | none =>
            rw [hold] at hq
            obtain rfl := Option.some.inj hq
            exact .inr ⟨x.deadline, hdue, hx⟩
          | some n' =>
            rw [hold] at hq
            exact .inl hq
      · rw [setWork_work_ne hk] at hq
        exact .inl hq

theorem advances_start {k : Kind} (hnext : s.start k = some t) : s.Advances cfg t := by
  unfold start at hnext
  split at hnext
  · rename_i cause hpc hq
    obtain rfl := Option.some.inj hnext
    have hloses : ∀ k', Loses (s.work k')
        ((s.setWork k fun w => { w with queued := none }).work k') :=
      loses_setWork fun _ => ⟨.inr rfl, .inl rfl⟩
    -- the place on the queue becomes the cause of the handler
    have hquiet : s.Advances cfg { s.setWork k fun w => { w with queued := none } with
        workPc := .idle } :=
      .quiet le_rfl rfl rfl rfl id (fun _ => id) hloses (.inr ⟨rfl, rfl⟩)
    refine ⟨le_rfl, rfl, rfl, id, fun _ => id, .inl rfl, hquiet.timeout, hquiet.queued, ?_, nofun⟩
    intro k' n hc
    obtain ⟨rfl, rfl⟩ := Prod.mk.inj (Option.some.inj hc)
    exact .inr hq
  · cases hnext

theorem advances_take {k : Kind} {cause : ℕ} (hpc : s.workPc = .started k cause)
    (hstale : s.stale = false) : s.Advances cfg (s.take k cause) := by
  unfold take
  cases hfires : s.fires k with
  | false =>
    exact .quiet le_rfl rfl rfl rfl id (fun _ => id) (fun k' => loses_finish k k')
      (.inr ⟨rfl, rfl⟩)
  | true =>
    -- a handler that fires has found its threshold armed in the hold of its generation
    obtain ⟨⟨hp, harmed⟩, -⟩ : (s.pressed = true ∧ s.armed k = true) ∧
        (s.work k).generation = s.holdGeneration := by
      unfold fires at hfires
      simpa only [Bool.and_eq_true, decide_eq_true_eq] using hfires
    -- by the condition it is the hold of its timeout
    have hcause : cause = s.hold := by
      have hnot : (cause ≠ s.hold && s.pressed && s.armed k) = false := by
        unfold stale at hstale
        rw [hpc] at hstale
        exact hstale
      rw [hp, harmed] at hnot
      simpa using hnot
    have hstarted : s.workPc.cause = some (k, cause) := by
      rw [hpc]
      rfl
    rw [if_neg (by simp)]
    cases k with
    | bond =>
      refine ⟨le_rfl, rfl, rfl, id, ?_, .inl rfl, fun _ _ => .inl, fun _ _ => .inl, ?_, ?_⟩
      · intro k' hk'
        dsimp only at hk'
        split_ifs at hk'
        exact hk'
      · intro k' n hc
        exact .inl (hstarted.trans hc)
      · intro k' n hd
        obtain ⟨rfl, rfl⟩ := Prod.mk.inj (Option.some.inj hd)
        exact .inr ⟨by rw [← hcause]; rfl, hp, harmed, rfl, rfl⟩
    | reset =>
      refine ⟨le_rfl, rfl, rfl, id, fun _ => nofun, .inl rfl, fun _ _ => .inl, fun _ _ => .inl,
        ?_, ?_⟩
      · intro k' n hc
        dsimp only at hc
        split_ifs at hc
        · exact .inl (hstarted.trans hc)
        · exact .inl (hstarted.trans hc)
      · intro k' n hd
        dsimp only at hd ⊢
        split_ifs at hd ⊢
        · obtain ⟨rfl, rfl⟩ := Prod.mk.inj (Option.some.inj hd)
          exact .inr ⟨by rw [← hcause]; rfl, hp, harmed, rfl, rfl⟩
        · obtain ⟨rfl, rfl⟩ := Prod.mk.inj (Option.some.inj hd)
          exact .inr ⟨by rw [← hcause]; rfl, hp, harmed, rfl, rfl⟩

theorem Inv.workRun {ret : ℤ} (h : s.Inv cfg) (hstale : s.stale = false)
    (hnext : s.workRun ret = some t) : t.Inv cfg := by
  unfold State.workRun at hnext
  split at hnext
  · cases hnext
  · rename_i k cause hpc
    obtain rfl := Option.some.inj hnext
    exact h.advance (advances_take hpc hstale)
  · rename_i cause hold hpc
    obtain rfl := Option.some.inj hnext
    have hquiet : s.Advances cfg { s.cancel .bond with workPc := .idle } :=
      .quiet le_rfl rfl rfl rfl id (fun _ => id) (loses_cancel .bond) (.inr ⟨rfl, rfl⟩)
    refine h.advance ⟨le_rfl, rfl, rfl, id, fun _ => id, .inl rfl, hquiet.timeout, hquiet.queued,
      ?_, ?_⟩
    · intro k n hc
      rw [hpc]
      exact .inl hc
    · intro k n hd
      rw [hpc]
      exact .inl ⟨hd, rfl⟩
  · rename_i k cause hold hpc
    obtain rfl := Option.some.inj hnext
    exact h.makeRequest hpc ret
  · rename_i k err hpc
    obtain rfl := Option.some.inj hnext
    exact h.advance (.quiet le_rfl rfl rfl rfl id (fun _ => id) (fun k' => loses_finish k k')
      (.inr ⟨rfl, rfl⟩))

/-- One step. -/
theorem Inv.next {a : Action} (h : s.Inv cfg) (hok : s.orderly a = true)
    (hnext : s.next cfg a = some t) : t.Inv cfg := by
  cases a with
  | tick ms =>
    obtain rfl := Option.some.inj hnext
    exact h.advance (.quiet (Nat.le_add_right _ _) rfl rfl rfl id (fun _ => id)
      (fun _ => loses_refl _) (.inl rfl))
  | press =>
    unfold State.next at hnext
    dsimp only at hnext
    split_ifs at hnext
    obtain rfl := Option.some.inj hnext
    exact h.press
  | release =>
    unfold State.next at hnext
    dsimp only at hnext
    split_ifs at hnext
    obtain rfl := Option.some.inj hnext
    exact h.advance (advances_release (by simpa [orderly] using hok))
  | input ret => exact h.advance (advances_inputRun hnext)
  | expire k => exact h.advance (advances_expire hnext)
  | start k => exact h.advance (advances_start hnext)
  | work ret => exact h.workRun (by simpa [orderly] using hok) hnext

theorem inv_boot : boot.Inv cfg := by
  refine ⟨le_rfl, le_rfl, nofun, fun _ => nofun, fun _ => nofun, nofun, nofun, nofun, ?_⟩
  intro k n
  unfold remaining
  rw [if_neg (by simp [boot])]
  exact Nat.zero_le _

/-! ### The generation -/

/-- A step that leaves the generations alone. -/
def SameGeneration (s t : State) : Prop :=
  (t.pressed = true → s.pressed = true) ∧ t.holdGeneration = s.holdGeneration ∧
    ∀ k, (t.work k).generation = (s.work k).generation

theorem setWork_generation {k : Kind} {f : ThresholdWork → ThresholdWork}
    (hf : ∀ w, (f w).generation = w.generation) (k' : Kind) :
    ((s.setWork k f).work k').generation = (s.work k').generation := by
  by_cases hk : k' = k
  · rw [hk, setWork_work_self]
    exact hf _
  · rw [setWork_work_ne hk]

theorem cancel_generation (k k' : Kind) :
    ((s.cancel k).work k').generation = (s.work k').generation := by
  unfold cancel
  refine setWork_generation ?_ k'
  intro w
  rfl

theorem finish_generation (k k' : Kind) :
    ((s.finish k).work k').generation = (s.work k').generation :=
  setWork_generation (f := fun w => { w with canceling := false }) (fun _ => rfl) k'

theorem sameGeneration_take (k : Kind) (cause : ℕ) : s.SameGeneration (s.take k cause) := by
  unfold take
  by_cases hfires : s.fires k = true
  · rw [if_neg (by simp [hfires])]
    cases k with
    | bond => exact ⟨id, rfl, fun _ => rfl⟩
    | reset => exact ⟨id, rfl, fun _ => rfl⟩
  · rw [if_pos (by simp [hfires])]
    exact ⟨id, rfl, finish_generation k⟩

theorem sameGeneration_inputRun {ret : ℤ} (hnext : s.inputRun cfg ret = some t) :
    s.SameGeneration t := by
  unfold inputRun at hnext
  split at hnext
  · cases hnext
  · rename_i k _
    obtain rfl := Option.some.inj hnext
    refine ⟨id, rfl, fun k' => ?_⟩
    by_cases hk : k' = k
    · unfold schedule
      dsimp only
      rw [hk, setWork_work_self]
    · unfold schedule
      dsimp only
      rw [setWork_work_ne hk]
  all_goals obtain rfl := Option.some.inj hnext
  · exact ⟨id, rfl, cancel_generation .bond⟩
  · exact ⟨id, rfl, cancel_generation .reset⟩
  · exact ⟨nofun, rfl, fun _ => rfl⟩
  · exact ⟨id, rfl, cancel_generation .bond⟩
  · exact ⟨id, rfl, cancel_generation .reset⟩

theorem sameGeneration_workRun {ret : ℤ} (hnext : s.workRun ret = some t) :
    s.SameGeneration t := by
  unfold State.workRun at hnext
  split at hnext
  · cases hnext
  all_goals obtain rfl := Option.some.inj hnext
  · exact sameGeneration_take _ _
  · exact ⟨id, rfl, cancel_generation .bond⟩
  · unfold State.makeRequest
    dsimp only
    split_ifs
    · exact ⟨id, rfl, fun _ => rfl⟩
    · exact ⟨id, rfl, finish_generation _⟩
  · exact ⟨id, rfl, finish_generation _⟩

theorem sameGeneration_next {a : Action} (hpress : a ≠ .press) (hrelease : a ≠ .release)
    (hnext : s.next cfg a = some t) : s.SameGeneration t := by
  cases a with
  | tick ms =>
    obtain rfl := Option.some.inj hnext
    exact ⟨id, rfl, fun _ => rfl⟩
  | press => exact absurd rfl hpress
  | release => exact absurd rfl hrelease
  | input ret => exact sameGeneration_inputRun hnext
  | expire k =>
    change s.expire k = some t at hnext
    unfold expire at hnext
    split at hnext
    · cases hnext
    · split_ifs at hnext
      obtain rfl := Option.some.inj hnext
      exact ⟨id, rfl, setWork_generation fun _ => rfl⟩
  | start k =>
    change s.start k = some t at hnext
    unfold start at hnext
    split at hnext
    · obtain rfl := Option.some.inj hnext
      exact ⟨id, rfl, setWork_generation (f := fun w => { w with queued := none }) fun _ => rfl⟩
    · cases hnext
  | work ret => exact sameGeneration_workRun hnext

/-- While the button is pressed, the works carry the current generation, whichever hold the
handler was called for. -/
theorem generation_eq (h : (machine cfg).Reachable s) (hp : s.pressed = true) (k : Kind) :
    (s.work k).generation = s.holdGeneration := by
  have hinv : s.pressed = true → ∀ k, (s.work k).generation = s.holdGeneration := by
    refine h.invariant (I := fun s => s.pressed = true → ∀ k, (s.work k).generation =
      s.holdGeneration) ?_ fun s a t hs hnext => ?_
    · rintro s rfl
      exact nofun
    · by_cases hpress : a = .press
      · subst hpress
        change (if s.inputPc = .idle then some s.press else none) = some t at hnext
        split_ifs at hnext
        obtain rfl := Option.some.inj hnext
        unfold State.press
        split_ifs
        · exact hs
        · exact fun _ _ => rfl
      · by_cases hrelease : a = .release
        · subst hrelease
          change (if s.inputPc = .idle then some s.release else none) = some t at hnext
          split_ifs at hnext
          obtain rfl := Option.some.inj hnext
          unfold State.release
          dsimp only
          split_ifs
          · exact hs
          · exact nofun
        · obtain ⟨hpressed, hgen, hwork⟩ := sameGeneration_next hpress hrelease hnext
          intro hp k
          rw [hgen, hwork]
          exact hs (hpressed hp) k
  exact hinv hp k

/-! ### All runs -/

/-- **Isolation.**  In every run in which no handler takes the lock in a later hold than that of
its timeout, and no release comes between the lock and the request, each threshold makes at most
one request for a hold, and every request was caused by a timeout of its own hold, comes when the
hold has lasted long enough, and comes before the release. -/
theorem requests_isolated (h : (machine cfg).ReachableBy (fun s a => s.orderly a = true) s) :
    s.Isolated cfg := by
  have hinv : s.Inv cfg := by
    refine h.invariant ?_ fun s a t h hok hnext => h.next hok hnext
    rintro s rfl
    exact inv_boot
  refine ⟨fun r hr => (hinv.fits r hr).1, ?_⟩
  intro k n
  have honce := hinv.once k n
  unfold spent at honce
  omega

/-- The default hold times. -/
def defaults : Config := ⟨3000, 8000, by decide, by decide⟩

/-- A hold of three seconds. -/
def bondingHold : List Action :=
  [.press, .input 1, .input 1, .tick 3000, .expire .bond, .start .bond, .work 0, .work 0, .release]

theorem requests_isolated_bonding :
    ∃ s, (machine defaults).runBy (fun s a => s.orderly a = true) boot bondingHold = some s ∧
      s.requests = [⟨.bond, 1, 1, 3000, false⟩] ∧ s.Isolated defaults := by
  obtain ⟨s, hrun, hrequests⟩ : ∃ s, (machine defaults).runBy (fun s a => s.orderly a = true) boot
      bondingHold = some s ∧ s.requests = [⟨.bond, 1, 1, 3000, false⟩] := ⟨_, rfl, rfl⟩
  exact ⟨s, hrun, hrequests, requests_isolated (Machine.ReachableBy.runBy (.init rfl) hrun)⟩

/-- The handler of an expired reset threshold is called, and takes the lock only behind the release
and the next press. -/
def staleHold : List Action :=
  [.press, .input 1, .input 1, .tick 8000, .expire .reset, .start .reset, .release, .input 0,
    .input 0, .press, .work 0, .work 0, .work 0]

/-- A reset for a hold that has just begun, made by the timeout of the one before. -/
theorem stale_reset :
    ∃ s, (machine defaults).run boot staleHold = some s ∧
      s.requests = [⟨.reset, 2, 1, 8000, false⟩] ∧ s.pressTime 2 = 8000 ∧
      ¬ s.Isolated defaults := by
  refine ⟨_, rfl, rfl, rfl, ?_⟩
  intro h
  exact absurd (h.fits _ (List.mem_singleton.2 rfl)).cause (by decide)

/-- The release comes between the lock and the request. -/
def lateHold : List Action :=
  [.press, .input 1, .input 1, .tick 3000, .expire .bond, .start .bond, .work 0, .release, .work 0]

/-- A bonding request for a hold that has ended. -/
theorem late_bonding :
    ∃ s, (machine defaults).run boot lateHold = some s ∧
      s.requests = [⟨.bond, 1, 1, 3000, true⟩] ∧ ¬ s.Isolated defaults := by
  refine ⟨_, rfl, rfl, ?_⟩
  intro h
  exact absurd (h.fits _ (List.mem_singleton.2 rfl)).released (by decide)

end State

end UserPairingIo

end LeAudioReceiver
