import Mathlib.Data.List.Range
import Mathlib.Algebra.Order.Monoid.Unbundled.Basic
import Mathlib.Tactic.Ring

/-!
# Linear resampling by a phase accumulator

A fixed-point phase accumulator walks over a sequence `ext : ℕ → α`.  A phase `p` stands for the
source position `p / one` with the fraction `p % one`; the output at `p` is `ext (p / one)` when
the fraction is zero, and otherwise the interpolation of `ext (p / one)` and its successor.  From
a start phase the accumulator advances by `step` after each output and stops at the first phase
above a limit.

* `due step limit phase` is the number of outputs, in closed form;
* `render` lists the outputs;
* `render_resume` : stopping behind any of the outputs due up to an intermediate limit and resuming
  at the phase reached gives the same outputs as one run, and `render_shift` moves the origin of
  the sequence.

Together they are the reason why a resampler can be fed block by block.
-/

namespace LeAudioReceiver

namespace Resample

/-! ### Counting the outputs -/

/-- The number of phases `phase, phase + step, …` that are at most `limit`. -/
def due (step limit phase : ℕ) : ℕ :=
  if phase ≤ limit then (limit - phase) / step + 1 else 0

theorem due_of_lt {step limit phase : ℕ} (h : limit < phase) : due step limit phase = 0 := by
  simp [due, Nat.not_le.2 h]

theorem due_of_le {step limit phase : ℕ} (hs : 0 < step) (h : phase ≤ limit) :
    due step limit phase = due step limit (phase + step) + 1 := by
  by_cases h' : phase + step ≤ limit
  · have hd : (limit - phase) / step = (limit - (phase + step)) / step + 1 := by
      rw [Nat.div_eq_sub_div hs (by omega), Nat.sub_sub]
    simp [due, h, h', hd]
  · have hd : (limit - phase) / step = 0 := Nat.div_eq_of_lt (by omega)
    simp [due, h, h', hd]

theorem lt_add_due {step : ℕ} (hs : 0 < step) (limit : ℕ) :
    ∀ phase, limit < phase + due step limit phase * step := by
  suffices H : ∀ n phase, limit + 1 - phase ≤ n → limit < phase + due step limit phase * step from
    fun phase => H _ phase le_rfl
  intro n
  induction n with
  | zero => intro phase hn; rw [due_of_lt (by omega)]; omega
  | succ n ih =>
    intro phase hn
    by_cases h : phase ≤ limit
    · have := ih (phase + step) (by omega)
      rw [due_of_le hs h, Nat.add_mul]
      omega
    · rw [due_of_lt (by omega)]; omega

/-- Every phase that produces an output is at most the limit. -/
theorem add_mul_le_of_lt_due {step limit phase k : ℕ} (hs : 0 < step)
    (h : k < due step limit phase) : phase + k * step ≤ limit := by
  unfold due at h
  split_ifs at h with hp
  · have : k * step ≤ limit - phase := (Nat.le_div_iff_mul_le hs).1 (by omega)
    omega
  · omega

theorem due_mono {step limit₁ limit₂ : ℕ} (hl : limit₁ ≤ limit₂) (phase : ℕ) :
    due step limit₁ phase ≤ due step limit₂ phase := by
  unfold due
  split_ifs with h₁ h₂
  · exact Nat.succ_le_succ (Nat.div_le_div_right (by omega))
  · omega
  · exact Nat.zero_le _
  · exact le_rfl

/-- Stopping behind any `k` of the outputs and resuming there gives the outputs of one run. -/
theorem due_resume {step limit : ℕ} (hs : 0 < step) :
    ∀ k phase, k ≤ due step limit phase →
      due step limit phase = k + due step limit (phase + k * step) := by
  intro k
  induction k with
  | zero => intro phase _; simp
  | succ k ih =>
    intro phase hk
    have hle : phase ≤ limit := by
      by_contra h
      rw [due_of_lt (by omega)] at hk
      omega
    have hrec := due_of_le hs hle
    have e : phase + (k + 1) * step = phase + step + k * step := by ring
    rw [hrec, e, ih (phase + step) (by omega)]
    omega

theorem due_add_right (step limit phase c : ℕ) :
    due step (limit + c) (phase + c) = due step limit phase := by
  simp [due, Nat.add_sub_add_right]

/-! ### Rendering -/

section Render

variable {α : Type*} (lerp : α → α → ℕ → α) (one : ℕ)

/-- The output at a phase. -/
def sample (ext : ℕ → α) (p : ℕ) : α :=
  if p % one = 0 then ext (p / one) else lerp (ext (p / one)) (ext (p / one + 1)) (p % one)

/-- The outputs from `phase` up to `limit`. -/
def render (ext : ℕ → α) (step limit phase : ℕ) : List α :=
  (List.range (due step limit phase)).map fun k => sample lerp one ext (phase + k * step)

variable {lerp one}

theorem render_of_lt {ext : ℕ → α} {step limit phase : ℕ} (h : limit < phase) :
    render lerp one ext step limit phase = [] := by
  simp [render, due_of_lt h]

theorem render_of_le {ext : ℕ → α} {step limit phase : ℕ} (hs : 0 < step) (h : phase ≤ limit) :
    render lerp one ext step limit phase =
      sample lerp one ext phase :: render lerp one ext step limit (phase + step) := by
  simp only [render, due_of_le hs h, List.range_succ_eq_map, List.map_cons, List.map_map,
    Nat.zero_mul, Nat.add_zero]
  congr 1
  refine List.map_congr_left fun k _ => ?_
  simp only [Function.comp_apply]
  congr 1
  rw [Nat.succ_mul]
  omega

theorem length_render (ext : ℕ → α) (step limit phase : ℕ) :
    (render lerp one ext step limit phase).length = due step limit phase := by
  simp [render]

/-- The first `k` outputs do not depend on the limit. -/
theorem take_render (ext : ℕ → α) {step limit phase k : ℕ} (hk : k ≤ due step limit phase) :
    (render lerp one ext step limit phase).take k =
      (List.range k).map fun j => sample lerp one ext (phase + j * step) := by
  rw [render, ← List.map_take, List.take_range, Nat.min_eq_left hk]

/-- **Resuming behind any `k` of the outputs** due up to an intermediate limit gives the outputs
of one run. -/
theorem render_resume {ext : ℕ → α} {step : ℕ} (hs : 0 < step) {limit₁ limit₂ phase k : ℕ}
    (hl : limit₁ ≤ limit₂) (hk : k ≤ due step limit₁ phase) :
    render lerp one ext step limit₂ phase = (render lerp one ext step limit₁ phase).take k ++
      render lerp one ext step limit₂ (phase + k * step) := by
  have hk₂ : k ≤ due step limit₂ phase := hk.trans (due_mono hl phase)
  rw [take_render ext hk, render, due_resume hs k phase hk₂, List.range_add, List.map_append,
    List.map_map]
  congr 1
  refine List.map_congr_left fun j _ => ?_
  simp only [Function.comp_apply]
  congr 1
  ring

theorem sample_shift (ho : 0 < one) (ext : ℕ → α) (n p : ℕ) :
    sample lerp one (fun i => ext (n + i)) p = sample lerp one ext (p + n * one) := by
  have hd : (p + n * one) / one = n + p / one := by
    rw [Nat.add_mul_div_right _ _ ho, Nat.add_comm]
  simp only [sample, Nat.add_mul_mod_self_right, hd, Nat.add_assoc]

theorem render_shift (ho : 0 < one) (ext : ℕ → α) (step limit phase n : ℕ) :
    render lerp one (fun i => ext (n + i)) step limit phase =
      render lerp one ext step (limit + n * one) (phase + n * one) := by
  simp only [render, due_add_right]
  refine List.map_congr_left fun k _ => ?_
  rw [sample_shift ho]
  congr 1
  omega

/-- Outputs up to frame `n` read no frame after the `n`-th, and none before the first position. -/
theorem render_congr (ho : 0 < one) {ext ext' : ℕ → α} {step n phase : ℕ} (hs : 0 < step)
    (h : ∀ i, phase / one ≤ i → i ≤ n → ext i = ext' i) :
    render lerp one ext step (n * one) phase = render lerp one ext' step (n * one) phase := by
  refine List.map_congr_left fun k hk => ?_
  have hle := add_mul_le_of_lt_due hs (List.mem_range.1 hk)
  have hlo : phase / one ≤ (phase + k * step) / one := Nat.div_le_div_right (by omega)
  have hpos : (phase + k * step) / one ≤ n := by
    rw [← Nat.mul_div_cancel n ho]
    exact Nat.div_le_div_right hle
  unfold sample
  split_ifs with hf
  · exact h _ hlo hpos
  · -- a positive fraction at a phase below `n * one` leaves room for the successor
    have hlt : (phase + k * step) / one < n := by
      rcases Nat.lt_or_eq_of_le hpos with h' | h'
      · exact h'
      · exfalso
        apply hf
        have := Nat.div_add_mod (phase + k * step) one
        rw [h', Nat.mul_comm] at this
        omega
    rw [h _ hlo hpos, h _ (by omega) hlt]

end Render

end Resample

end LeAudioReceiver
