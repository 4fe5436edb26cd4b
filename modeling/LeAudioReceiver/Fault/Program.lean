import Mathlib.Logic.Basic

/-!
# Programs with one failing step

A program with exceptions and a state, run in a world that may hold one fault.  The points of a
program have names; the fault names the point where it raises, once.  `Runs` is the big step of such
a program, with a rule for each way to build one.

* `runs_point` and `runs_point_fault` : a point other than the fault's is passed, and the fault's
  own point raises and leaves a world without fault.
* `Runs.bind` and `Runs.bind_error`, `Runs.try_ok` and `Runs.try_error` : the rules of sequence and
  of handlers.
* `Runs.unique` : a program has one result from each world.
-/

namespace LeAudioReceiver

namespace Fault

/-- The single failing step: the point that raises, and what it raises. -/
structure Failure (ι ε : Type) where
  point : ι
  raises : ε

/-- The state of a program beside the fault that it has not met yet. -/
structure World (σ ι ε : Type) where
  state : σ
  fault : Option (Failure ι ε)

/-- A program over states `σ` with points `ι` and exceptions `ε`. -/
abbrev Prog (σ ι ε : Type) := ExceptT ε (StateM (World σ ι ε))

variable {σ ι ε : Type} {α β : Type} {w w' w'' : World σ ι ε}

/-- A point where the program raises if the fault is there. -/
def point [DecidableEq ι] (i : ι) : Prog σ ι ε Unit :=
  ExceptT.mk fun w =>
    match w.fault with
    | some f => if f.point = i then (.error f.raises, { w with fault := none }) else (.ok (), w)
    | none => (.ok (), w)

/-- A step on the state. -/
def onState (f : σ → Except ε (α × σ)) : Prog σ ι ε α :=
  ExceptT.mk fun w =>
    match f w.state with
    | .ok (a, s) => (.ok a, { w with state := s })
    | .error e => (.error e, w)

/-- What a program does from a world. -/
def final (p : Prog σ ι ε α) (w : World σ ι ε) : Except ε α × World σ ι ε :=
  (p.run.run w).run

/-- From `w` the program ends in `w'` with result `r`. -/
def Runs (p : Prog σ ι ε α) (w : World σ ι ε) (r : Except ε α) (w' : World σ ι ε) : Prop :=
  final p w = (r, w')

/-- The fault of the world, if it holds one, is not at `i`. -/
def World.Misses (w : World σ ι ε) (i : ι) : Prop := ∀ f ∈ w.fault, f.point ≠ i

theorem misses_none (s : σ) (i : ι) : (⟨s, none⟩ : World σ ι ε).Misses i := by
  intro f hf
  cases hf

theorem misses_some {s : σ} {f : Failure ι ε} {i : ι} (h : f.point ≠ i) :
    (⟨s, some f⟩ : World σ ι ε).Misses i := by
  intro f' hf'
  cases hf'
  exact h

theorem runs_onState_error {f : σ → Except ε (α × σ)} {e : ε} (h : f w.state = .error e) :
    Runs (onState f : Prog σ ι ε α) w (.error e) w := by
  change (match f w.state with | .ok (a, s) => _ | .error e => _) = _
  rw [h]

theorem final_bind (p : Prog σ ι ε α) (f : α → Prog σ ι ε β) (w : World σ ι ε) :
    final (p >>= f) w =
      match final p w with
      | (.ok a, w') => final (f a) w'
      | (.error e, w') => (.error e, w') := by
  simp only [final, ExceptT.run_bind, StateT.run_bind, Id.run_bind]
  split <;> split <;> simp_all

theorem final_tryCatch (p : Prog σ ι ε α) (f : ε → Prog σ ι ε α) (w : World σ ι ε) :
    final (tryCatch p f) w =
      match final p w with
      | (.ok a, w') => (.ok a, w')
      | (.error e, w') => final (f e) w' := by
  simp only [final, ExceptT.run_tryCatch, StateT.run_bind, Id.run_bind]
  split <;> split <;> simp_all

/-- The fault of the world is at none of the points of `l`. -/
def World.Avoids (w : World σ ι ε) (l : List ι) : Prop := ∀ i ∈ l, w.Misses i

theorem avoids_none (s : σ) (l : List ι) : (⟨s, none⟩ : World σ ι ε).Avoids l :=
  fun i _ => misses_none s i

theorem avoids_some {s : σ} {f : Failure ι ε} {l : List ι} (h : f.point ∉ l) :
    (⟨s, some f⟩ : World σ ι ε).Avoids l := by
  intro i hi
  apply misses_some
  rintro rfl
  exact h hi

theorem Runs.unique {p : Prog σ ι ε α} {r r' : Except ε α} (h : Runs p w r w')
    (h' : Runs p w r' w'') : r = r' ∧ w' = w'' := by
  have := Eq.trans (Eq.symm h) h'
  exact ⟨congrArg Prod.fst this, congrArg Prod.snd this⟩

theorem runs_pure (a : α) : Runs (pure a : Prog σ ι ε α) w (.ok a) w := rfl

theorem runs_throw (e : ε) : Runs (throw e : Prog σ ι ε α) w (.error e) w := rfl

theorem runs_point [DecidableEq ι] {i : ι} (h : w.Misses i) :
    Runs (point i : Prog σ ι ε Unit) w (.ok ()) w := by
  obtain ⟨s, _ | f⟩ := w
  · rfl
  · have hne : f.point ≠ i := h f rfl
    change (if f.point = i then _ else _) = _
    rw [if_neg hne]

theorem runs_point_fault [DecidableEq ι] {s : σ} {f : Failure ι ε} {i : ι} (h : f.point = i) :
    Runs (point i : Prog σ ι ε Unit) ⟨s, some f⟩ (.error f.raises) ⟨s, none⟩ := by
  change (if f.point = i then _ else _) = _
  rw [if_pos h]

theorem runs_onState {f : σ → Except ε (α × σ)} {a : α} {s : σ} (h : f w.state = .ok (a, s)) :
    Runs (onState f : Prog σ ι ε α) w (.ok a) { w with state := s } := by
  change (match f w.state with | .ok (a, s) => _ | .error e => _) = _
  rw [h]

theorem Runs.bind {p : Prog σ ι ε α} {f : α → Prog σ ι ε β} {a : α} {r : Except ε β}
    (hp : Runs p w (.ok a) w') (hf : Runs (f a) w' r w'') : Runs (p >>= f) w r w'' := by
  rw [Runs, final_bind, hp]
  exact hf

theorem Runs.bind_error {p : Prog σ ι ε α} {f : α → Prog σ ι ε β} {e : ε}
    (hp : Runs p w (.error e) w') : Runs (p >>= f) w (.error e) w' := by
  rw [Runs, final_bind, hp]

theorem Runs.try_ok {p : Prog σ ι ε α} {f : ε → Prog σ ι ε α} {a : α}
    (hp : Runs p w (.ok a) w') : Runs (tryCatch p f) w (.ok a) w' := by
  rw [Runs, final_tryCatch, hp]

theorem Runs.try_error {p : Prog σ ι ε α} {f : ε → Prog σ ι ε α} {e : ε} {r : Except ε α}
    (hp : Runs p w (.error e) w') (hf : Runs (f e) w' r w'') : Runs (tryCatch p f) w r w'' := by
  rw [Runs, final_tryCatch, hp]
  exact hf

/-! ## Loops -/

/-- A loop whose turns leave the world as it is. -/
theorem Runs.mapM {f : α → Prog σ ι ε β} {g : α → β} {l : List α}
    (h : ∀ a ∈ l, Runs (f a) w (.ok (g a)) w) : Runs (l.mapM f) w (.ok (l.map g)) w := by
  induction l with
  | nil => exact runs_pure []
  | cons a l ih =>
    rw [List.mapM_cons]
    have htail := ih fun b hb => h b (List.mem_cons_of_mem a hb)
    exact (h a List.mem_cons_self).bind (htail.bind (runs_pure _))

/-- The first turn that raises ends the loop. -/
theorem Runs.mapM_error {f : α → Prog σ ι ε β} {g : α → β} {l : List α} {e : ε}
    (h : ∀ a ∈ l, Runs (f a) w (.ok (g a)) w ∨ Runs (f a) w (.error e) w')
    (hraise : ∃ a ∈ l, Runs (f a) w (.error e) w') : Runs (l.mapM f) w (.error e) w' := by
  induction l with
  | nil =>
    obtain ⟨a, ha, -⟩ := hraise
    cases ha
  | cons a l ih =>
    rw [List.mapM_cons]
    rcases h a List.mem_cons_self with hok | herror
    · have htail : ∃ b ∈ l, Runs (f b) w (.error e) w' := by
        obtain ⟨b, hb, hrun⟩ := hraise
        rcases List.mem_cons.mp hb with rfl | hb
        · cases (hok.unique hrun).1
        · exact ⟨b, hb, hrun⟩
      exact hok.bind (ih (fun b hb => h b (List.mem_cons_of_mem a hb)) htail).bind_error
    · exact herror.bind_error

/-- A loop whose turns all pass steps the state through its elements. -/
theorem Runs.forM {f : α → Prog σ ι ε Unit} {g : σ → α → σ}
    (h : ∀ a w, Runs (f a) w (.ok ()) { w with state := g w.state a }) (l : List α) :
    Runs (l.forM f) w (.ok ()) { w with state := l.foldl g w.state } := by
  induction l generalizing w with
  | nil => exact runs_pure ()
  | cons a l ih =>
    change Runs (f a >>= fun _ => l.forM f) w _ _
    exact (h a w).bind ih

end Fault

end LeAudioReceiver
