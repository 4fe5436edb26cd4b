import Mathlib.Algebra.BigOperators.Group.Finset.Basic
import Mathlib.Algebra.Order.BigOperators.Group.Finset
import Mathlib.Data.Fintype.BigOperators

/-!
# Counting threads

Counters in shared state often say how many threads are at certain program points.  `countAt p pc`
is that number, for a predicate `p` on program points; `countAt_update` is what a step of one
thread does to it.
-/

namespace LeAudioReceiver

namespace Threads

variable {ι α : Type*} [Fintype ι] {p : α → Bool} {pc : ι → α} {i j : ι}

/-- The number of threads at the program points `p`. -/
def countAt (p : α → Bool) (pc : ι → α) : ℕ := ∑ i, (p (pc i)).toNat

theorem countAt_update [DecidableEq ι] (p : α → Bool) (pc : ι → α) (i : ι) (a : α) :
    countAt p (Function.update pc i a) + (p (pc i)).toNat = countAt p pc + (p a).toNat := by
  have hcomp : (fun j => (p (Function.update pc i a j)).toNat) =
      Function.update (fun j => (p (pc j)).toNat) i (p a).toNat := by
    funext j
    by_cases hj : j = i
    · subst hj
      simp
    · simp [hj]
  have hi : i ∈ (Finset.univ : Finset ι) := Finset.mem_univ i
  rw [countAt, countAt, hcomp, Finset.sum_update_of_mem hi,
    Finset.sum_eq_add_sum_sdiff_singleton_of_mem hi fun j => (p (pc j)).toNat]
  omega

theorem countAt_eq_zero : countAt p pc = 0 ↔ ∀ i, p (pc i) = false := by
  rw [countAt, Finset.sum_eq_zero_iff]
  simp

theorem countAt_pos (h : p (pc i) = true) : 0 < countAt p pc := by
  rw [Nat.pos_iff_ne_zero]
  intro h₀
  have := countAt_eq_zero.1 h₀ i
  rw [h] at this
  exact absurd this (by simp)

theorem toNat_le_countAt : (p (pc i)).toNat ≤ countAt p pc := by
  cases h : p (pc i) with
  | false => exact Nat.zero_le _
  | true => exact countAt_pos h

theorem exists_of_countAt_pos (h : 0 < countAt p pc) : ∃ i, p (pc i) = true := by
  by_contra hne
  refine h.ne' (countAt_eq_zero.2 fun i => ?_)
  by_contra hp
  exact hne ⟨i, by simpa using hp⟩

end Threads

end LeAudioReceiver
