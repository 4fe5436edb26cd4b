import Mathlib.Data.Option.Basic
import Mathlib.Tactic.Common

/-!
# Programs under a schedule

A sequential program whose surroundings act between its steps.  Every step takes the next turn of a
schedule, which says what the surroundings do first and how they answer; where the schedule ends,
the run has not come to an end.  All interleavings are all schedules.

* `Triple ok P p Q` : from a state with `P`, under turns with `ok`, a run of `p` that returns ends
  with `Q`;
* `Triple.bind`, `Triple.stepAfter`, `Triple.loop` : the rules for sequence, for a step behind its
  surroundings and for a loop with its invariant;
* `Keeps f p` : a run of `p` leaves `f` as it was;
* `bind_run`, `loop_run` : single runs.
-/

namespace LeAudioReceiver

namespace Scheduled

/-- A program over states `σ` under turns `τ`. -/
abbrev Prog (τ σ : Type) := StateT (σ × List τ) Option

variable {τ σ α β : Type}

/-- One step: the next turn, and the state, to a result and a state. -/
def step (f : τ → σ → α × σ) : Prog τ σ α := fun p =>
  match p.2 with
  | [] => none
  | t :: ts => some ((f t p.1).1, ((f t p.1).2, ts))

/-- A loop of at most `n` turns of its body, which ends it with `.inl`. -/
def loopUpTo (body : β → Prog τ σ (α ⊕ β)) : ℕ → β → Prog τ σ α
  | 0, _ => fun _ => none
  | n + 1, b => do
    match ← body b with
    | .inl a => pure a
    | .inr b' => loopUpTo body n b'

/-- A loop; a body takes a turn of the schedule each time, which bounds the number of times. -/
def loop (body : β → Prog τ σ (α ⊕ β)) (b : β) : Prog τ σ α := fun p =>
  loopUpTo body (p.2.length + 1) b p

/-! ## Runs -/

theorem bind_run {p : Prog τ σ α} {f : α → Prog τ σ β} {x y : σ × List τ} {a : α}
    (h : p x = some (a, y)) : (p >>= f) x = f a y := by
  show (p x).bind _ = _
  rw [h]
  rfl

theorem loop_run {body : β → Prog τ σ (α ⊕ β)} {b : β} {s : σ} {l : List τ} {n : ℕ}
    (h : l.length = n) : loop body b (s, l) = loopUpTo body (n + 1) b (s, l) := by
  rw [← h]
  rfl

theorem loopUpTo_inl {body : β → Prog τ σ (α ⊕ β)} {b : β} {x y : σ × List τ} {a : α}
    (h : body b x = some (.inl a, y)) (n : ℕ) : loopUpTo body (n + 1) b x = some (a, y) := by
  rw [loopUpTo, bind_run h]
  rfl

theorem loopUpTo_inr {body : β → Prog τ σ (α ⊕ β)} {b c : β} {x y : σ × List τ}
    (h : body b x = some (.inr c, y)) (n : ℕ) :
    loopUpTo body (n + 1) b x = loopUpTo body n c y := by
  rw [loopUpTo, bind_run h]

/-! ## What holds after a run -/

/-- A run of `p` from `P` under turns that are all `ok` ends with `Q`. -/
def Triple (ok : τ → Prop) (P : σ → Prop) (p : Prog τ σ α) (Q : α → σ → Prop) : Prop :=
  ∀ s l a s' l', (∀ t ∈ l, ok t) → P s → p (s, l) = some (a, (s', l')) →
    Q a s' ∧ ∀ t ∈ l', ok t

namespace Triple

variable {ok : τ → Prop} {P P' : σ → Prop} {p : Prog τ σ α} {Q Q' : α → σ → Prop}

theorem mono (h : Triple ok P p Q) (hP : ∀ s, P' s → P s) (hQ : ∀ a s, Q a s → Q' a s) :
    Triple ok P' p Q' := by
  intro s l a s' l' hok hs hrun
  obtain ⟨hq, hl'⟩ := h s l a s' l' hok (hP s hs) hrun
  exact ⟨hQ a s' hq, hl'⟩

theorem pure {a : α} (h : ∀ s, P s → Q a s) : Triple ok P (pure a) Q := by
  intro s l a' s' l' hok hs hrun
  cases hrun
  exact ⟨h s hs, hok⟩

theorem bind {f : α → Prog τ σ β} {R : α → σ → Prop} {Q : β → σ → Prop}
    (hp : Triple ok P p R) (hf : ∀ a, Triple ok (R a) (f a) Q) : Triple ok P (p >>= f) Q := by
  intro s l b s' l' hok hs hrun
  obtain ⟨⟨a, s₁, l₁⟩, hrun₁, hrun₂⟩ := Option.bind_eq_some_iff.1 hrun
  obtain ⟨hr, hok₁⟩ := hp s l a s₁ l₁ hok hs hrun₁
  exact hf a s₁ l₁ b s' l' hok₁ hr hrun₂

theorem step {f : τ → σ → α × σ} (h : ∀ t s, ok t → P s → Q (f t s).1 (f t s).2) :
    Triple ok P (step f) Q := by
  intro s l a s' l' hok hs hrun
  cases l with
  | nil => cases hrun
  | cons t ts =>
    cases hrun
    exact ⟨h t s (hok t List.mem_cons_self) hs, fun u hu => hok u (List.mem_cons_of_mem t hu)⟩

/-- A step behind what the surroundings do, where the surroundings keep the assertion. -/
theorem stepAfter {env : τ → σ → σ} {f : τ → σ → α × σ}
    (hstable : ∀ t s, ok t → P s → P (env t s))
    (h : ∀ t s, ok t → P s → Q (f t s).1 (f t s).2) :
    Triple ok P (Scheduled.step fun t s => f t (env t s)) Q := by
  refine Triple.step fun t s ht hs => ?_
  exact h t (env t s) ht (hstable t s ht hs)

theorem ite {c : Prop} [Decidable c] {q : Prog τ σ α}
    (hp : c → Triple ok P p Q) (hq : ¬ c → Triple ok P q Q) :
    Triple ok P (if c then p else q) Q := by
  split
  · exact hp ‹c›
  · exact hq ‹¬ c›

theorem exists_pre {γ : Sort*} {P : γ → σ → Prop} (h : ∀ c, Triple ok (P c) p Q) :
    Triple ok (fun s => ∃ c, P c s) p Q := by
  intro s l a s' l' hok hs hrun
  obtain ⟨c, hc⟩ := hs
  exact h c s l a s' l' hok hc hrun

theorem trivial : Triple (fun _ => True) P p fun _ _ => True :=
  fun _ _ _ _ _ _ _ _ => ⟨True.intro, fun _ _ => True.intro⟩

theorem of_pre {c : Prop} (h : c → Triple ok P p Q) (hc : ∀ s, P s → c) : Triple ok P p Q := by
  intro s l a s' l' hok hs hrun
  exact h (hc s hs) s l a s' l' hok hs hrun

/-- The invariant of a loop holds before each turn of its body. -/
theorem loop {body : β → Prog τ σ (α ⊕ β)} {I : β → σ → Prop} {Q : α → σ → Prop}
    (h : ∀ b, Triple ok (I b) (body b) fun r s =>
      match r with
      | .inl a => Q a s
      | .inr b' => I b' s) (b : β) : Triple ok (I b) (loop body b) Q := by
  have hbound : ∀ n b, Triple ok (I b) (loopUpTo body n b) Q := by
    intro n
    induction n with
    | zero =>
      intro b s l a s' l' _ _ hrun
      cases hrun
    | succ n ih =>
      intro b
      refine (h b).bind fun r => ?_
      cases r with
      | inl a => exact pure fun s hs => hs
      | inr b' => exact ih b'
  intro s l a s' l' hok hs hrun
  exact hbound (l.length + 1) b s l a s' l' hok hs hrun

end Triple

/-! ## What a program leaves alone -/

/-- A run of `p` leaves `f` as it was. -/
def Keeps {γ : Type} (f : σ → γ) (p : Prog τ σ α) : Prop :=
  ∀ c, Triple (fun _ => True) (fun s => f s = c) p fun _ s => f s = c

namespace Keeps

variable {γ : Type} {f : σ → γ} {p : Prog τ σ α}

theorem pure (a : α) : Keeps f (Pure.pure a : Prog τ σ α) := by
  intro c
  exact Triple.pure fun s hs => hs

theorem bind {q : α → Prog τ σ β} (hp : Keeps f p) (hq : ∀ a, Keeps f (q a)) :
    Keeps f (p >>= q) := by
  intro c
  exact (hp c).bind fun a => hq a c

theorem step {g : τ → σ → α × σ} (h : ∀ t s, f (g t s).2 = f s) : Keeps f (step g) := by
  intro c
  exact Triple.step fun t s _ hs => (h t s).trans hs

theorem ite {c : Prop} [Decidable c] {q : Prog τ σ α} (hp : Keeps f p) (hq : Keeps f q) :
    Keeps f (if c then p else q) := by
  split
  · exact hp
  · exact hq

theorem loop {body : β → Prog τ σ (α ⊕ β)} (h : ∀ b, Keeps f (body b)) (b : β) :
    Keeps f (loop body b) := by
  intro c
  refine Triple.loop (I := fun _ s => f s = c) (fun b => ?_) b
  refine (h b c).mono (fun s hs => hs) fun r s hs => ?_
  cases r <;> exact hs

end Keeps

end Scheduled

end LeAudioReceiver
