import Mathlib.Algebra.Order.Round
import Mathlib.Data.Rat.Floor
import Mathlib.Tactic.FieldSimp
import Mathlib.Tactic.Linarith
import Mathlib.Tactic.Positivity
import Mathlib.Tactic.Ring

/-!
# Rounding to nearest, ties away from zero

`roundAway x` is the integer nearest to `x`; halfway between two integers it is the one further
from zero.  Fixed-point code computes it with truncating division: `tdivAway s h` rounds `s / 2h`
by looking at the remainder; elsewhere half the divisor is added before dividing.

* `roundAway_eq_of_nonneg`, `roundAway_eq_of_nonpos` : the interval that rounds to `n`;
* `roundAway_mono` : rounding is monotone, and so it keeps integer bounds;
* `roundAway_neg` : it treats both signs alike;
* `tdivAway_eq`, `tdiv_add_half` : the fixed-point code rounds.
-/

namespace LeAudioReceiver

namespace Rounding

section RoundAway

variable {α : Type*} [Field α] [LinearOrder α] [IsStrictOrderedRing α] [FloorRing α] {x y : α}

/-- The nearest integer, ties away from zero. -/
def roundAway (x : α) : ℤ := if 0 ≤ x then ⌊x + 1 / 2⌋ else ⌈x - 1 / 2⌉

theorem roundAway_eq_of_nonneg (hx : 0 ≤ x) {n : ℤ} (h₁ : (n : α) ≤ x + 1 / 2)
    (h₂ : x < n + 1 / 2) : roundAway x = n := by
  rw [roundAway, if_pos hx, Int.floor_eq_iff]
  exact ⟨h₁, by linarith⟩

theorem roundAway_eq_of_nonpos (hx : x ≤ 0) {n : ℤ} (h₁ : x - 1 / 2 ≤ n)
    (h₂ : (n : α) - 1 / 2 < x) : roundAway x = n := by
  rcases hx.lt_or_eq with hx | rfl
  · rw [roundAway, if_neg (not_le.2 hx), Int.ceil_eq_iff]
    exact ⟨by linarith, h₁⟩
  · -- both sides of zero round to zero
    have hn : n = 0 := by
      have hlt : (n : α) < 1 := by linarith
      have hgt : (-1 : α) < n := by linarith
      have hlt' : n < 1 := by exact_mod_cast hlt
      have hgt' : -1 < n := by exact_mod_cast hgt
      omega
    subst hn
    exact roundAway_eq_of_nonneg le_rfl (by norm_num) (by norm_num)

@[simp] theorem roundAway_intCast (n : ℤ) : roundAway (n : α) = n := by
  rcases le_total 0 (n : α) with h | h
  · exact roundAway_eq_of_nonneg h (by linarith) (by linarith)
  · exact roundAway_eq_of_nonpos h (by linarith) (by linarith)

@[simp] theorem roundAway_zero : roundAway (0 : α) = 0 := by
  have h := roundAway_intCast (α := α) 0
  rwa [Int.cast_zero] at h

theorem roundAway_nonneg (h : 0 ≤ x) : 0 ≤ roundAway x := by
  rw [roundAway, if_pos h]
  exact Int.floor_nonneg.2 (by linarith)

theorem roundAway_nonpos (h : x ≤ 0) : roundAway x ≤ 0 := by
  rcases h.lt_or_eq with h | rfl
  · rw [roundAway, if_neg (not_le.2 h), Int.ceil_le]
    push_cast
    linarith
  · exact roundAway_zero.le

theorem roundAway_mono (hxy : x ≤ y) : roundAway x ≤ roundAway y := by
  rcases le_or_gt 0 x with hx | hx
  · rw [roundAway, roundAway, if_pos hx, if_pos (hx.trans hxy)]
    exact Int.floor_le_floor (add_le_add hxy le_rfl)
  · rcases le_or_gt 0 y with hy | hy
    · exact (roundAway_nonpos hx.le).trans (roundAway_nonneg hy)
    · rw [roundAway, roundAway, if_neg (not_le.2 hx), if_neg (not_le.2 hy)]
      exact Int.ceil_le_ceil (sub_le_sub hxy le_rfl)

theorem roundAway_neg (x : α) : roundAway (-x) = -roundAway x := by
  rcases le_total 0 x with hx | hx
  · have h₁ : (⌊x + 1 / 2⌋ : α) ≤ x + 1 / 2 := Int.floor_le _
    have h₂ : x + 1 / 2 < ⌊x + 1 / 2⌋ + 1 := Int.lt_floor_add_one _
    have hround : roundAway x = ⌊x + 1 / 2⌋ := if_pos hx
    rw [hround]
    refine roundAway_eq_of_nonpos (by linarith) ?_ ?_ <;> push_cast <;> linarith
  · have h₁ : x - 1 / 2 ≤ ⌈x - 1 / 2⌉ := Int.le_ceil _
    have h₂ : (⌈x - 1 / 2⌉ : α) < x - 1 / 2 + 1 := Int.ceil_lt_add_one _
    have hround : roundAway x = ⌈x - 1 / 2⌉ :=
      roundAway_eq_of_nonpos hx h₁ (by linarith)
    rw [hround]
    refine roundAway_eq_of_nonneg (by linarith) ?_ ?_ <;> push_cast <;> linarith

theorem roundAway_mem {a b : ℤ} (h₁ : (a : α) ≤ x) (h₂ : x ≤ b) :
    a ≤ roundAway x ∧ roundAway x ≤ b := by
  have hlo := roundAway_mono h₁
  have hhi := roundAway_mono h₂
  rw [roundAway_intCast] at hlo hhi
  exact ⟨hlo, hhi⟩

end RoundAway

/-! ### By truncating division -/

/-- `s / 2h` by truncating division; a remainder of at least half the divisor moves the quotient
away from zero. -/
def tdivAway (s h : ℤ) : ℤ :=
  let result := s.tdiv (2 * h)
  let rem := s - result * (2 * h)
  if rem > h ∨ rem < -h ∨ rem = h ∨ rem = -h then result + (if s ≥ 0 then 1 else -1) else result

theorem roundAway_div {s h n : ℤ} (hh : 0 < h)
    (hpos : 0 ≤ s → n * (2 * h) ≤ s + h ∧ s < n * (2 * h) + h)
    (hneg : s < 0 → s - h ≤ n * (2 * h) ∧ n * (2 * h) - h < s) :
    roundAway ((s : ℚ) / (2 * h)) = n := by
  have hq : (0 : ℚ) < 2 * h := by exact_mod_cast (by omega : 0 < 2 * h)
  rcases le_or_gt 0 s with hs | hs
  · obtain ⟨h₁, h₂⟩ := hpos hs
    have h₁' : (n : ℚ) * (2 * h) ≤ s + h := by exact_mod_cast h₁
    have h₂' : (s : ℚ) < n * (2 * h) + h := by exact_mod_cast h₂
    refine roundAway_eq_of_nonneg (div_nonneg (by exact_mod_cast hs) hq.le) ?_ ?_
    · rw [← sub_le_iff_le_add, le_div_iff₀ hq]
      linarith
    · rw [div_lt_iff₀ hq]
      linarith
  · obtain ⟨h₁, h₂⟩ := hneg hs
    have h₁' : (s : ℚ) - h ≤ n * (2 * h) := by exact_mod_cast h₁
    have h₂' : (n : ℚ) * (2 * h) - h < s := by exact_mod_cast h₂
    refine roundAway_eq_of_nonpos (div_nonpos_of_nonpos_of_nonneg (by exact_mod_cast hs.le) hq.le)
      ?_ ?_
    · rw [sub_le_iff_le_add, div_le_iff₀ hq]
      linarith
    · rw [lt_div_iff₀ hq]
      linarith

theorem tdivAway_eq {s h : ℤ} (hh : 0 < h) :
    tdivAway s h = roundAway ((s : ℚ) / (2 * h)) := by
  have hpos : 0 < 2 * h := by omega
  have hdiv : s.tdiv (2 * h) * (2 * h) + s.tmod (2 * h) = s := by
    rw [mul_comm]
    exact Int.mul_tdiv_add_tmod s (2 * h)
  have hlt := Int.tmod_lt_of_pos s hpos
  have hgt := Int.lt_tmod_of_pos s hpos
  -- the remainder has the sign of the dividend
  have hsign : (0 ≤ s → 0 ≤ s.tmod (2 * h)) ∧ (s ≤ 0 → s.tmod (2 * h) ≤ 0) := by
    refine ⟨Int.tmod_nonneg _, fun hs => ?_⟩
    have hneg := Int.tmod_nonneg (2 * h) (neg_nonneg.2 hs)
    rw [Int.neg_tmod] at hneg
    omega
  unfold tdivAway
  dsimp only
  generalize s.tdiv (2 * h) = q at hdiv
  generalize s.tmod (2 * h) = r at hdiv hlt hgt hsign
  have hup : (q + 1) * (2 * h) = q * (2 * h) + 2 * h := by ring
  have hdown : (q + -1) * (2 * h) = q * (2 * h) - 2 * h := by ring
  symm
  split_ifs with hrem hs
  · exact roundAway_div hh (by omega) (by omega)
  · exact roundAway_div hh (by omega) (by omega)
  · exact roundAway_div hh (by omega) (by omega)

/-- Adding half the divisor, away from zero, before dividing. -/
theorem tdiv_add_half {s h : ℤ} (hh : 0 < h) :
    (s + if s < 0 then -h else h).tdiv (2 * h) = roundAway ((s : ℚ) / (2 * h)) := by
  have hpos : 0 < 2 * h := by omega
  symm
  split_ifs with hs
  · have hdiv : (s + -h).tdiv (2 * h) * (2 * h) + (s + -h).tmod (2 * h) = s + -h := by
      rw [mul_comm]
      exact Int.mul_tdiv_add_tmod _ _
    have hgt := Int.lt_tmod_of_pos (s + -h) hpos
    have hsign := Int.tmod_nonneg (2 * h) (by omega : 0 ≤ -(s + -h))
    rw [Int.neg_tmod] at hsign
    exact roundAway_div hh (by omega) (by omega)
  · have hdiv : (s + h).tdiv (2 * h) * (2 * h) + (s + h).tmod (2 * h) = s + h := by
      rw [mul_comm]
      exact Int.mul_tdiv_add_tmod _ _
    have hlt := Int.tmod_lt_of_pos (s + h) hpos
    have hsign := Int.tmod_nonneg (2 * h) (by omega : 0 ≤ s + h)
    exact roundAway_div hh (by omega) (by omega)

end Rounding

end LeAudioReceiver
