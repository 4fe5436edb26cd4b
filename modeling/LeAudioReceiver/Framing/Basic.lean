import Mathlib.Data.List.Flatten
import Mathlib.Tactic.Common

/-!
# Frames in a stream

A stream of symbols in which a delimiter ends a frame.  What has been received so far consists of
the frames that are complete and of the rest behind the last delimiter.

* `frames`, `rest` : the complete frames, and what follows them;
* `frames_append` : **the frames do not depend on where the stream is cut**;
* `frames_encode` : what is encoded is received.
-/

namespace LeAudioReceiver

namespace Framing

variable {α : Type*} {delim : α}

section Stream

variable [BEq α]

/-- The complete frames of a stream. -/
def frames (delim : α) (xs : List α) : List (List α) := (xs.splitOn delim).dropLast

/-- What follows the last delimiter. -/
def rest (delim : α) (xs : List α) : List α := (xs.splitOn delim).getLastD []

@[simp] theorem frames_nil : frames delim ([] : List α) = [] := rfl

@[simp] theorem rest_nil : rest delim ([] : List α) = [] := rfl

end Stream

/-- Frames with their delimiters. -/
def encode (delim : α) (fs : List (List α)) : List α := fs.flatMap (· ++ [delim])

variable (delim) in
/-- A stream is its frames and its rest, none of which has a delimiter. -/
theorem exists_encode (xs : List α) :
    ∃ fs r, (∀ f ∈ fs, delim ∉ f) ∧ delim ∉ r ∧ xs = encode delim fs ++ r := by
  induction xs with
  | nil => exact ⟨[], [], nofun, nofun, rfl⟩
  | cons x xs ih =>
    obtain ⟨fs, r, hfs, hr, rfl⟩ := ih
    by_cases hx : x = delim
    · subst hx
      refine ⟨[] :: fs, r, fun f hf => ?_, hr, rfl⟩
      rcases List.mem_cons.1 hf with rfl | hf
      · exact List.not_mem_nil
      · exact hfs f hf
    · have hne : delim ≠ x := fun h => hx h.symm
      cases fs with
      | nil => exact ⟨[], x :: r, nofun, by simp [hne, hr], rfl⟩
      | cons f fs =>
        refine ⟨(x :: f) :: fs, r, fun g hg => ?_, hr, rfl⟩
        rcases List.mem_cons.1 hg with rfl | hg
        · simp [hne, hfs f List.mem_cons_self]
        · exact hfs g (List.mem_cons_of_mem f hg)

variable [BEq α] [LawfulBEq α]

theorem frames_of_not_mem {xs : List α} (h : delim ∉ xs) : frames delim xs = [] := by
  unfold frames
  rw [List.splitOn_eq_singleton h]
  rfl

theorem rest_of_not_mem {xs : List α} (h : delim ∉ xs) : rest delim xs = xs := by
  unfold rest
  rw [List.splitOn_eq_singleton h]
  rfl

theorem frames_cons {f : List α} (h : delim ∉ f) (xs : List α) :
    frames delim (f ++ delim :: xs) = f :: frames delim xs := by
  unfold frames
  rw [List.splitOn_append_cons_self, List.splitOn_eq_singleton h, List.singleton_append,
    List.dropLast_cons_of_ne_nil (List.splitOn_ne_nil delim xs)]

theorem rest_cons {f : List α} (xs : List α) :
    rest delim (f ++ delim :: xs) = rest delim xs := by
  have hne : xs.splitOn delim ≠ [] := List.splitOn_ne_nil delim xs
  unfold rest
  rw [List.splitOn_append_cons_self, List.getLastD_eq_getLast?, List.getLastD_eq_getLast?,
    List.getLast?_append, List.getLast?_eq_some_getLast hne, Option.some_or]

section Encode

variable {fs : List (List α)} (hfs : ∀ f ∈ fs, delim ∉ f)

include hfs

theorem frames_encode_append (xs : List α) :
    frames delim (encode delim fs ++ xs) = fs ++ frames delim xs := by
  induction fs with
  | nil => rfl
  | cons f fs ih =>
    have hf : delim ∉ f := hfs f List.mem_cons_self
    have hstream : encode delim (f :: fs) ++ xs = f ++ delim :: (encode delim fs ++ xs) := by
      simp [encode]
    rw [hstream, frames_cons hf, ih fun g hg => hfs g (List.mem_cons_of_mem f hg)]
    rfl

omit hfs in
theorem rest_encode_append (xs : List α) : rest delim (encode delim fs ++ xs) = rest delim xs := by
  induction fs with
  | nil => rfl
  | cons f fs ih =>
    have hstream : encode delim (f :: fs) ++ xs = f ++ delim :: (encode delim fs ++ xs) := by
      simp [encode]
    rw [hstream, rest_cons, ih]

/-- What is encoded is received. -/
theorem frames_encode : frames delim (encode delim fs) = fs := by
  have h := frames_encode_append hfs []
  rwa [List.append_nil, frames_nil, List.append_nil] at h

end Encode

/-- **The frames do not depend on where the stream is cut.** -/
theorem frames_append (xs ys : List α) :
    frames delim (xs ++ ys) = frames delim xs ++ frames delim (rest delim xs ++ ys) := by
  obtain ⟨fs, r, hfs, hr, rfl⟩ := exists_encode delim xs
  rw [List.append_assoc, frames_encode_append hfs, frames_encode_append hfs,
    rest_encode_append, rest_of_not_mem hr, frames_of_not_mem hr, List.append_nil]

theorem rest_append (xs ys : List α) :
    rest delim (xs ++ ys) = rest delim (rest delim xs ++ ys) := by
  obtain ⟨fs, r, hfs, hr, rfl⟩ := exists_encode delim xs
  rw [List.append_assoc, rest_encode_append, rest_encode_append, rest_of_not_mem hr]

/-- The frames of a stream stay as it grows. -/
theorem frames_prefix {xs ys : List α} (h : xs <+: ys) : frames delim xs <+: frames delim ys := by
  obtain ⟨zs, rfl⟩ := h
  exact ⟨_, (frames_append xs zs).symm⟩

/-- A stream ends with its rest. -/
theorem rest_suffix (xs : List α) : rest delim xs <:+ xs := by
  obtain ⟨fs, r, -, hr, rfl⟩ := exists_encode delim xs
  rw [rest_encode_append, rest_of_not_mem hr]
  exact List.suffix_append _ r

/-- A frame is in the stream with its delimiter. -/
theorem infix_of_mem_frames {f xs : List α} (h : f ∈ frames delim xs) : f ++ [delim] <:+: xs := by
  obtain ⟨fs, r, hfs, hr, rfl⟩ := exists_encode delim xs
  rw [frames_encode_append hfs, frames_of_not_mem hr, List.append_nil] at h
  obtain ⟨before, after, rfl⟩ := List.append_of_mem h
  refine ⟨encode delim before, encode delim after ++ r, ?_⟩
  simp [encode]

end Framing

end LeAudioReceiver
