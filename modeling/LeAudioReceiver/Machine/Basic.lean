import Mathlib.Data.List.Induction
import Mathlib.Data.Option.Basic
import Mathlib.Tactic.Common

/-!
# State machines

A component whose behaviour unfolds step by step is given as a `Machine`: a set of initial states
and a partial transition function.  The nondeterminism of the surroundings (which thread runs
next, what a peer answers) is in the action, so a machine can be executed on a list of actions.

* `Machine.ReachableBy ok` : the states reached by runs whose steps all satisfy `ok`;
* `Machine.ReachableBy.invariant` : what holds initially and is kept by every such step holds in
  all of them;
* `Machine.Reachable.run`, `Machine.ReachableBy.runBy` : executing a list of actions reaches a
  state;
* `Machine.startingAt` : the machine that starts in one state;
* `Machine.watch` : the machine beside a record that notes every step;
* `Machine.ReachableBy.simulate` : a machine whose steps are steps of another one reaches only
  states of the other one;
* `Machine.forall_prefix_iff` : the runs of a total step function along which a property holds.
-/

namespace LeAudioReceiver

/-- A state machine with states `σ` and actions `α`. -/
structure Machine (σ α : Type*) where
  /-- The initial states. -/
  init : σ → Prop
  /-- The state after an action; `none` where the action cannot happen. -/
  next : σ → α → Option σ

namespace Machine

variable {σ α : Type*} (M : Machine σ α)

/-- The states reached by runs whose steps all satisfy `ok`. -/
inductive ReachableBy (ok : σ → α → Prop) : σ → Prop
  | init {s : σ} : M.init s → ReachableBy ok s
  | step {s s' : σ} {a : α} : ReachableBy ok s → ok s a → M.next s a = some s' →
      ReachableBy ok s'

/-- The states reached by any run. -/
def Reachable : σ → Prop := M.ReachableBy fun _ _ => True

/-- Executing a list of actions. -/
def run : σ → List α → Option σ
  | s, [] => some s
  | s, a :: as => (M.next s a).bind fun s' => run s' as

/-- Executing a list of actions, each of which has to satisfy `ok`. -/
def runBy (ok : σ → α → Prop) [∀ s a, Decidable (ok s a)] : σ → List α → Option σ
  | s, [] => some s
  | s, a :: as => if ok s a then (M.next s a).bind fun s' => runBy ok s' as else none

variable {M}

/-- An invariant of the initial states and of the steps satisfying `ok` holds in every state
reached by them. -/
theorem ReachableBy.invariant {ok : σ → α → Prop} {I : σ → Prop} {s : σ}
    (h : M.ReachableBy ok s) (h₀ : ∀ s, M.init s → I s)
    (hstep : ∀ s a s', I s → ok s a → M.next s a = some s' → I s') : I s := by
  induction h with
  | init hs => exact h₀ _ hs
  | step _ hok hnext ih => exact hstep _ _ _ ih hok hnext

theorem Reachable.invariant {I : σ → Prop} {s : σ} (h : M.Reachable s)
    (h₀ : ∀ s, M.init s → I s) (hstep : ∀ s a s', I s → M.next s a = some s' → I s') : I s :=
  ReachableBy.invariant h h₀ fun s a s' hs _ hnext => hstep s a s' hs hnext

theorem ReachableBy.reachable {ok : σ → α → Prop} {s : σ} (h : M.ReachableBy ok s) :
    M.Reachable s := by
  induction h with
  | init hs => exact .init hs
  | step _ _ hnext ih => exact .step ih trivial hnext

/-- Executing actions reaches a state. -/
theorem Reachable.run {s s' : σ} {as : List α} (h : M.Reachable s) (hrun : M.run s as = some s') :
    M.Reachable s' := by
  induction as generalizing s with
  | nil => exact Option.some.inj hrun ▸ h
  | cons a as ih =>
    obtain ⟨s'', hnext, hrun'⟩ := Option.bind_eq_some_iff.1 hrun
    exact ih (ReachableBy.step h trivial hnext) hrun'

theorem ReachableBy.runBy {ok : σ → α → Prop} [∀ s a, Decidable (ok s a)] {s s' : σ}
    {as : List α} (h : M.ReachableBy ok s) (hrun : M.runBy ok s as = some s') :
    M.ReachableBy ok s' := by
  induction as generalizing s with
  | nil => exact Option.some.inj hrun ▸ h
  | cons a as ih =>
    rw [Machine.runBy] at hrun
    split_ifs at hrun with hok
    obtain ⟨s'', hnext, hrun'⟩ := Option.bind_eq_some_iff.1 hrun
    exact ih (.step h hok hnext) hrun'

/-! ### A machine in a given state -/

/-- The machine that starts in `s₀`. -/
def startingAt (M : Machine σ α) (s₀ : σ) : Machine σ α := { M with init := fun s => s = s₀ }

theorem ReachableBy.of_startingAt {ok : σ → α → Prop} {s₀ s : σ} (h₀ : M.init s₀)
    (h : (M.startingAt s₀).ReachableBy ok s) : M.ReachableBy ok s := by
  induction h with
  | init hs => exact .init (hs ▸ h₀)
  | step _ hok hnext ih => exact .step ih hok hnext

/-! ### A record beside a machine -/

/-- The machine beside a record: `note` says what a step does to it. -/
def watch {γ : Type*} (M : Machine σ α) (γ₀ : γ) (note : σ → α → σ → γ → γ) :
    Machine (σ × γ) α where
  init p := M.init p.1 ∧ p.2 = γ₀
  next p a := (M.next p.1 a).map fun s => (s, note p.1 a s p.2)

section Watch

variable {γ : Type*} {γ₀ : γ} {note : σ → α → σ → γ → γ}

theorem watch_next {p p' : σ × γ} {a : α} (h : (M.watch γ₀ note).next p a = some p') :
    M.next p.1 a = some p'.1 ∧ p'.2 = note p.1 a p'.1 p.2 := by
  obtain ⟨s, hs, rfl⟩ := Option.map_eq_some_iff.1 h
  exact ⟨hs, rfl⟩

/-- The record does not influence the machine. -/
theorem Reachable.unwatch {p : σ × γ} (h : (M.watch γ₀ note).Reachable p) : M.Reachable p.1 := by
  induction h with
  | init h₀ => exact .init h₀.1
  | step _ _ hnext ih => exact .step ih trivial (watch_next hnext).1

end Watch

/-! ### Simulation -/

/-- Every step of `M` from a state reached is a step of `N` between the images. -/
theorem ReachableBy.simulate {τ β : Type*} {N : Machine τ β} {ok : σ → α → Prop} {f : σ → τ}
    {s : σ} (h : M.ReachableBy ok s) (h₀ : ∀ s, M.init s → N.init (f s))
    (hstep : ∀ s a s', M.ReachableBy ok s → ok s a → M.next s a = some s' →
      ∃ b, N.next (f s) b = some (f s')) : N.Reachable (f s) := by
  induction h with
  | init hs => exact .init (h₀ _ hs)
  | step hs hok hnext ih =>
    obtain ⟨b, hb⟩ := hstep _ _ _ hs hok hnext
    exact .step ih trivial hb

/-! ### Runs of a total step function -/

/-- Where a step keeps `P` exactly if it is `ok`, all states of a run satisfy `P` exactly if all
its steps are `ok`. -/
theorem forall_prefix_iff {step : σ → α → σ} {P : σ → Prop} {ok : σ → α → Prop}
    (hstep : ∀ s a, P s → (P (step s a) ↔ ok s a)) {s : σ} (hs : P s) (as : List α) :
    (∀ as', as' <+: as → P (as'.foldl step s)) ↔
      ∀ as' a, as' ++ [a] <+: as → ok (as'.foldl step s) a := by
  constructor
  · intro h as' a hpre
    have hbefore : P (as'.foldl step s) := h as' ((List.prefix_append as' [a]).trans hpre)
    have hafter : P ((as' ++ [a]).foldl step s) := h (as' ++ [a]) hpre
    rw [List.foldl_append] at hafter
    exact (hstep _ a hbefore).1 hafter
  · intro h as'
    induction as' using List.reverseRecOn with
    | nil => exact fun _ => hs
    | append_singleton as' a ih =>
      intro hpre
      have hbefore := ih ((List.prefix_append as' [a]).trans hpre)
      rw [List.foldl_append]
      exact (hstep _ a hbefore).2 (h as' a hpre)

end Machine

end LeAudioReceiver
