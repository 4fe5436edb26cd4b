import Mathlib.Algebra.Order.Ring.Int
import Mathlib.Logic.Function.Iterate
import Mathlib.Tactic.Common

/-!
# Smoothing with a floor

An integer follows a measurement: each update moves it by the difference divided by `d`, rounded
towards minus infinity.

* `smooth_mem` : an update does not overshoot;
* `smooth_eq_self_iff` : it rests at the measurement and up to `d - 1` below, but not above;
* `smooth_rests` : it comes to rest, from any start.
-/

namespace LeAudioReceiver

namespace Rounding

/-- One update of `f` towards the measurement `m`. -/
def smooth (d m f : ℤ) : ℤ := f + (m - f) / d

variable {d m f : ℤ}

/-- From below the update stays between the value and the measurement. -/
theorem smooth_of_le (hd : 0 < d) (h : f ≤ m) : f ≤ smooth d m f ∧ smooth d m f ≤ m := by
  have hdiff : 0 ≤ m - f := Int.sub_nonneg.2 h
  have hnonneg := Int.ediv_nonneg hdiff hd.le
  have hle := Int.ediv_le_self d hdiff
  unfold smooth
  omega

/-- From above it moves by at least one. -/
theorem smooth_of_lt (hd : 0 < d) (h : m < f) : m ≤ smooth d m f ∧ smooth d m f < f := by
  have hdiff : m - f < 0 := Int.sub_neg_of_lt h
  have hneg : (m - f) / d < 0 := Int.ediv_neg_of_neg_of_pos hdiff hd
  have hge : m - f ≤ (m - f) / d := by
    rw [Int.le_ediv_iff_mul_le hd]
    exact mul_le_of_one_le_right hdiff.le hd
  unfold smooth
  omega

theorem smooth_mem (hd : 0 < d) : min f m ≤ smooth d m f ∧ smooth d m f ≤ max f m := by
  rcases le_or_gt f m with h | h
  · rw [min_eq_left h, max_eq_right h]
    exact smooth_of_le hd h
  · rw [min_eq_right h.le, max_eq_left h.le]
    exact ⟨(smooth_of_lt hd h).1, (smooth_of_lt hd h).2.le⟩

theorem smooth_eq_self_iff (hd : 0 < d) : smooth d m f = f ↔ m - d < f ∧ f ≤ m := by
  have hzero : (m - f) / d = 0 ↔ 0 ≤ m - f ∧ m - f < d := by
    rw [Int.ediv_eq_iff_of_pos hd]
    omega
  unfold smooth
  omega

/-- Each update that moves comes nearer to the measurement. -/
theorem natAbs_smooth_lt (hd : 0 < d) (h : smooth d m f ≠ f) :
    (m - smooth d m f).natAbs < (m - f).natAbs := by
  rcases le_or_gt f m with hle | hgt
  · have hmem := smooth_of_le hd hle
    omega
  · have hmem := smooth_of_lt hd hgt
    omega

/-- After as many updates as the distance from the measurement at most, nothing moves. -/
theorem smooth_rests (hd : 0 < d) (m f : ℤ) :
    ∃ g, m - d < g ∧ g ≤ m ∧ ∀ n, (m - f).natAbs ≤ n → (smooth d m)^[n] f = g := by
  generalize hdist : (m - f).natAbs = dist
  induction dist using Nat.strong_induction_on generalizing f with
  | _ dist ih =>
    by_cases hrest : smooth d m f = f
    · obtain ⟨hlo, hhi⟩ := (smooth_eq_self_iff hd).1 hrest
      exact ⟨f, hlo, hhi, fun n _ => Function.iterate_fixed hrest n⟩
    · have hlt := natAbs_smooth_lt hd hrest
      obtain ⟨g, hlo, hhi, hg⟩ := ih _ (hdist ▸ hlt) (smooth d m f) rfl
      refine ⟨g, hlo, hhi, ?_⟩
      intro n hn
      -- the first update has happened, since the distance was not zero
      obtain ⟨n, rfl⟩ := Nat.exists_eq_succ_of_ne_zero (by omega : n ≠ 0)
      rw [Function.iterate_succ_apply]
      exact hg n (by omega)

end Rounding

end LeAudioReceiver
