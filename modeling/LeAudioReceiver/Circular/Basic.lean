import Mathlib.Data.List.Basic
import Mathlib.Tactic.Common

/-!
# Circular queues

A queue of at most `n` elements in an array of `n` slots, with the index of the oldest element and
the number of elements.  What a slot holds after its element was taken is kept: users read the
slot of the oldest element without asking whether there is one.

* `Queue.toList` : the elements, oldest first;
* `Queue.toList_enqueue`, `Queue.toList_pop` : the two operations on the elements.
-/

namespace LeAudioReceiver

namespace Circular

variable {n : ℕ} {α : Type*}

/-- An array of slots, the index of the oldest element and the number of elements. -/
structure Queue (n : ℕ) (α : Type*) where
  slots : Fin n → α
  head : Fin n
  count : ℕ

namespace Queue

/-- The slot `i` places after the oldest element. -/
def index (q : Queue n α) (i : ℕ) : Fin n := ⟨(q.head + i) % n, Nat.mod_lt _ q.head.pos⟩

/-- The slot of the oldest element. -/
def oldest (q : Queue n α) : α := q.slots q.head

/-- Writes an element behind the newest one. -/
def enqueue (q : Queue n α) (x : α) : Queue n α :=
  { q with slots := Function.update q.slots (q.index q.count) x, count := q.count + 1 }

/-- Takes the oldest element, if there is one; `f` is what happens to its slot. -/
def pop (f : α → α) (q : Queue n α) : Queue n α :=
  if q.count = 0 then q
  else
    ⟨Function.update q.slots q.head (f (q.slots q.head)), q.index 1, q.count - 1⟩

/-- The elements, oldest first. -/
def toList (q : Queue n α) : List α := (List.range q.count).map fun i => q.slots (q.index i)

variable {q : Queue n α}

@[simp] theorem length_toList : q.toList.length = q.count := by simp [toList]

theorem index_zero : q.index 0 = q.head := by
  apply Fin.ext
  simp [index, Nat.mod_eq_of_lt q.head.isLt]

/-- Two places less than `n` apart are different slots. -/
theorem index_ne {i j : ℕ} (hij : i < j) (hj : j < i + n) : q.index i ≠ q.index j := by
  intro h
  have hmod : (q.head + i) % n = (q.head + j) % n := congrArg Fin.val h
  have hdvd : n ∣ q.head + j - (q.head + i) :=
    Nat.dvd_of_mod_eq_zero (Nat.sub_mod_eq_zero_of_mod_eq hmod.symm)
  have := Nat.le_of_dvd (by omega) hdvd
  omega

theorem toList_enqueue (x : α) (h : q.count < n) : (q.enqueue x).toList = q.toList ++ [x] := by
  have hold : ∀ i ∈ List.range q.count,
      Function.update q.slots (q.index q.count) x (q.index i) = q.slots (q.index i) := by
    intro i hi
    have hi := List.mem_range.1 hi
    exact Function.update_of_ne (index_ne hi (by omega)) _ _
  calc (q.enqueue x).toList
      = (List.range (q.count + 1)).map fun i =>
          Function.update q.slots (q.index q.count) x (q.index i) := rfl
    _ = q.toList ++ [x] := by
      rw [List.range_succ, List.map_append, List.map_congr_left hold]
      simp [toList]

/-- A nonempty queue starts with its oldest element, and taking it leaves the others. -/
theorem oldest_cons_pop (f : α → α) (h₀ : q.count ≠ 0) (h : q.count ≤ n) :
    q.toList = q.oldest :: (q.pop f).toList := by
  obtain ⟨k, hk⟩ := Nat.exists_eq_succ_of_ne_zero h₀
  have hindex : ∀ i, (q.pop f).index i = q.index (i + 1) := by
    intro i
    apply Fin.ext
    simp only [pop, if_neg h₀, index, Nat.mod_add_mod]
    congr 1
    omega
  have hrest : ∀ i ∈ List.range k,
      (q.pop f).slots ((q.pop f).index i) = q.slots (q.index (i + 1)) := by
    intro i hi
    have hi := List.mem_range.1 hi
    have hne : q.index (i + 1) ≠ q.head := by
      rw [← index_zero]
      exact (index_ne (Nat.succ_pos i) (by omega)).symm
    rw [hindex]
    simp only [pop, if_neg h₀]
    exact Function.update_of_ne hne _ _
  have hcount : (q.pop f).count = k := by
    simp only [pop, if_neg h₀]
    omega
  calc q.toList
      = (List.range (k + 1)).map fun i => q.slots (q.index i) := by rw [toList, hk]
    _ = q.oldest :: (List.range k).map fun i => q.slots (q.index (i + 1)) := by
      rw [List.range_succ_eq_map, List.map_cons, List.map_map, index_zero]
      rfl
    _ = q.oldest :: (q.pop f).toList := by
      rw [toList, hcount, List.map_congr_left hrest]

theorem pop_of_count_eq_zero (f : α → α) (h : q.count = 0) : q.pop f = q := if_pos h

end Queue

end Circular

end LeAudioReceiver
