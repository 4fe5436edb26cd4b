import Mathlib.Data.List.Basic

/-!
# Buffers with checked accesses

A buffer is the list of its elements, so its length is its size.  `load` and `store` are the block
accesses of a language without bounds checks: outside the buffer they fail, and a function that
never fails stays inside.

* `load_eq`, `store_eq` : an access inside the buffer, in terms of `take` and `drop`;
* `put_put` : writing a block and then the next one is writing both at once, which is how a loop
  that appends to a buffer is followed;
* `put_all` : writing a block as large as the buffer forgets what was there.
-/

namespace LeAudioReceiver

namespace Buffer

variable {α : Type*}

/-- An access outside a buffer, with the index behind its last element. -/
inductive OutOfBounds where
  | load (stop : ℕ)
  | store (stop : ℕ)
  deriving DecidableEq, Repr

/-- Reading `len` elements from `off` on. -/
def load (buf : List α) (off len : ℕ) : Except OutOfBounds (List α) :=
  if off + len ≤ buf.length then .ok ((buf.drop off).take len) else .error (.load (off + len))

/-- The buffer with `xs` from `off` on. -/
def put (buf : List α) (off : ℕ) (xs : List α) : List α :=
  buf.take off ++ xs ++ buf.drop (off + xs.length)

/-- Writing `xs` from `off` on. -/
def store (buf : List α) (off : ℕ) (xs : List α) : Except OutOfBounds (List α) :=
  if off + xs.length ≤ buf.length then .ok (put buf off xs)
  else .error (.store (off + xs.length))

variable {buf xs ys : List α} {off len : ℕ}

theorem load_eq (h : off + len ≤ buf.length) : load buf off len = .ok ((buf.drop off).take len) :=
  if_pos h

theorem store_eq (h : off + xs.length ≤ buf.length) : store buf off xs = .ok (put buf off xs) :=
  if_pos h

@[simp] theorem put_nil : put buf off [] = buf := by
  rw [put, List.append_nil, List.length_nil, Nat.add_zero, List.take_append_drop]

theorem length_put (h : off + xs.length ≤ buf.length) : (put buf off xs).length = buf.length := by
  rw [put, List.length_append, List.length_append, List.length_take_of_le (by omega),
    List.length_drop]
  omega

theorem take_drop_put (h : off ≤ buf.length) :
    ((put buf off xs).drop off).take xs.length = xs := by
  have hlen : (buf.take off).length = off := List.length_take_of_le h
  rw [put, List.append_assoc, List.drop_append_of_le_length (Nat.le_of_eq hlen.symm),
    List.drop_of_length_le (Nat.le_of_eq hlen), List.nil_append, List.take_left]

/-- **Two blocks, one behind the other.** -/
theorem put_put (h : off + xs.length ≤ buf.length) :
    put (put buf off xs) (off + xs.length) ys = put buf off (xs ++ ys) := by
  have hlen : (buf.take off ++ xs).length = off + xs.length := by
    rw [List.length_append, List.length_take_of_le (by omega)]
  have htake : (put buf off xs).take (off + xs.length) = buf.take off ++ xs := by
    rw [put, ← hlen, List.take_left]
  have hdrop : (put buf off xs).drop (off + xs.length + ys.length) =
      buf.drop (off + (xs ++ ys).length) := by
    rw [put, List.drop_append, hlen, List.drop_of_length_le (by rw [hlen]; omega), List.nil_append,
      List.drop_drop, List.length_append]
    congr 1
    omega
  rw [put, htake, hdrop, put, List.append_assoc (buf.take off)]

/-- A block as large as the buffer. -/
theorem put_all (h : xs.length = buf.length) : put buf 0 xs = xs := by
  rw [put, List.take_zero, List.nil_append, Nat.zero_add,
    List.drop_of_length_le (Nat.le_of_eq h.symm), List.append_nil]

end Buffer

end LeAudioReceiver
