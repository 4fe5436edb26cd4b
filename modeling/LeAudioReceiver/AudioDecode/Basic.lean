import Mathlib.Algebra.Group.Nat.Even
import Mathlib.Data.Int.Init
import Mathlib.Data.List.Basic
import Mathlib.Tactic.Common

/-!
# Mono and stereo samples in memory

A model of the two sample copies of `src/audio_decode.c`.  Memory is one array of 16-bit samples,
and a buffer is the index of its first sample, so two buffers may share storage; the code compares
the pointers and chooses the direction of its loop.  Buffers are smaller than half the address
space, so the indices do not overflow an `int`.

* `samplesAt mem p n` : the `n` samples of a buffer;
* `samplesAt_monoToStereo_self` : the backward loop over a shared buffer, from what a round leaves
  untouched for the rounds to come (`round_below`);
* `samplesAt_monoToStereo_of_disjoint` : the forward loop into another buffer;
* `monoToStereo_in_place` : both write the same samples, and every sample is read as it was.
-/

namespace LeAudioReceiver

namespace AudioDecode

/-- Memory as an array of samples. -/
abbrev Memory := ℕ → Int16

/-- `p[i] = x`. -/
def write (mem : Memory) (a : ℕ) (x : Int16) : Memory := Function.update mem a x

/-- The backward loop, from sample `i - 1` down. -/
def expandDown (mem : Memory) (buf : ℕ) : ℕ → Memory
  | 0 => mem
  | i + 1 =>
    let m := write mem (buf + (2 * i + 1)) (mem (buf + i))
    -- the second read is from the memory after the first write
    expandDown (write m (buf + 2 * i) (m (buf + i))) buf i

/-- The forward loop, with `k` samples left and sample `i` next. -/
def expandUp (mem : Memory) (mono stereoOut : ℕ) : ℕ → ℕ → Memory
  | _, 0 => mem
  | i, k + 1 =>
    let m := write mem (stereoOut + 2 * i) (mem (mono + i))
    expandUp (write m (stereoOut + (2 * i + 1)) (m (mono + i))) mono stereoOut (i + 1) k

/-- `audio_decode_mono_to_stereo`.  No loop runs for a negative number of samples. -/
def monoToStereo (mem : Memory) (mono stereoOut : ℕ) (samples : ℤ) : Memory :=
  if mono = stereoOut then expandDown mem stereoOut samples.toNat
  else expandUp mem mono stereoOut 0 samples.toNat

/-- The samples of a buffer. -/
def samplesAt (mem : Memory) (p n : ℕ) : List Int16 := (List.range n).map fun i => mem (p + i)

/-- Every sample twice. -/
def duplicate (xs : List Int16) : List Int16 := xs.flatMap fun x => [x, x]

/-! ### Single cells -/

section Cells

variable {mem mem' : Memory} {a b p n : ℕ} {x : Int16}

@[simp] theorem write_self : write mem a x a = x := Function.update_self ..

theorem write_of_ne (h : b ≠ a) : write mem a x b = mem b := Function.update_of_ne h ..

theorem samplesAt_succ : samplesAt mem p (n + 1) = samplesAt mem p n ++ [mem (p + n)] := by
  rw [samplesAt, List.range_succ, List.map_append, List.map_singleton, ← samplesAt]

theorem samplesAt_congr (h : ∀ i < n, mem' (b + i) = mem (p + i)) :
    samplesAt mem' b n = samplesAt mem p n := by
  apply List.map_congr_left
  intro i hi
  exact h i (List.mem_range.1 hi)

theorem samplesAt_eq_duplicate
    (h : ∀ i < n, mem' (b + 2 * i) = mem (p + i) ∧ mem' (b + (2 * i + 1)) = mem (p + i)) :
    samplesAt mem' b (2 * n) = duplicate (samplesAt mem p n) := by
  induction n with
  | zero => rfl
  | succ n ih =>
    obtain ⟨heven, hodd⟩ := h n (Nat.lt_succ_self n)
    have hinit : samplesAt mem' b (2 * n) = duplicate (samplesAt mem p n) :=
      ih fun i hi => h i (Nat.lt_succ_of_lt hi)
    calc samplesAt mem' b (2 * n + 1 + 1)
        = samplesAt mem' b (2 * n) ++ [mem (p + n)] ++ [mem (p + n)] := by
          rw [samplesAt_succ, samplesAt_succ, heven, hodd]
      _ = duplicate (samplesAt mem p n) ++ duplicate [mem (p + n)] := by
          rw [hinit, List.append_assoc]
          rfl
      _ = duplicate (samplesAt mem p (n + 1)) := by
          rw [samplesAt_succ, duplicate, duplicate, duplicate, List.flatMap_append]

end Cells

/-! ### The backward loop -/

section Down

variable {mem : Memory} {buf : ℕ}

theorem expandDown_succ (i : ℕ) :
    expandDown mem buf (i + 1) =
      expandDown (write (write mem (buf + (2 * i + 1)) (mem (buf + i))) (buf + 2 * i)
        (mem (buf + i))) buf i := by
  have hread : write mem (buf + (2 * i + 1)) (mem (buf + i)) (buf + i) = mem (buf + i) :=
    write_of_ne (by omega)
  rw [expandDown, hread]

/-- The round of sample `i` leaves everything below `2 * i` untouched, and so all samples that the
loop has yet to read. -/
theorem round_below {i a : ℕ} {x y : Int16} (h : a < buf + 2 * i) :
    write (write mem (buf + (2 * i + 1)) x) (buf + 2 * i) y a = mem a := by
  rw [write_of_ne (by omega), write_of_ne (by omega)]

theorem expandDown_frame (n : ℕ) {a : ℕ} (h : a < buf ∨ buf + 2 * n ≤ a) :
    expandDown mem buf n a = mem a := by
  induction n generalizing mem with
  | zero => rfl
  | succ n ih =>
    rw [expandDown_succ, ih (by omega), write_of_ne (by omega), write_of_ne (by omega)]

/-- The invariant is `round_below`: the rounds still to come see their samples as they were. -/
theorem expandDown_apply (n : ℕ) : ∀ i < n,
    expandDown mem buf n (buf + 2 * i) = mem (buf + i) ∧
      expandDown mem buf n (buf + (2 * i + 1)) = mem (buf + i) := by
  induction n generalizing mem with
  | zero =>
    intro i hi
    omega
  | succ n ih =>
    intro i hi
    rw [expandDown_succ]
    by_cases hin : i < n
    · obtain ⟨heven, hodd⟩ :=
        @ih (write (write mem (buf + (2 * n + 1)) (mem (buf + n))) (buf + 2 * n)
          (mem (buf + n))) i hin
      rw [heven, hodd, round_below (by omega)]
      exact ⟨rfl, rfl⟩
    · -- the sample of this round: the later rounds write below it
      obtain rfl : i = n := by omega
      rw [expandDown_frame i (.inr (by omega)), expandDown_frame i (.inr (by omega)), write_self,
        write_of_ne (by omega), write_self]
      exact ⟨rfl, rfl⟩

/-- The values that the backward loop reads, in order. -/
def readsDown (mem : Memory) (buf : ℕ) : ℕ → List Int16
  | 0 => []
  | i + 1 =>
    let m := write mem (buf + (2 * i + 1)) (mem (buf + i))
    mem (buf + i) :: m (buf + i) :: readsDown (write m (buf + 2 * i) (m (buf + i))) buf i

theorem samplesAt_monoToStereo_self (mem : Memory) (buf n : ℕ) :
    samplesAt (monoToStereo mem buf buf n) buf (2 * n) = duplicate (samplesAt mem buf n) := by
  rw [monoToStereo, if_pos rfl, Int.toNat_natCast]
  exact samplesAt_eq_duplicate (expandDown_apply n)

/-- **No sample is overwritten before it is read**: the loop reads the samples as they were before
it, from the last to the first. -/
theorem readsDown_eq (n : ℕ) :
    readsDown mem buf n = duplicate (samplesAt mem buf n).reverse := by
  induction n generalizing mem with
  | zero => rfl
  | succ n ih =>
    have hread : write mem (buf + (2 * n + 1)) (mem (buf + n)) (buf + n) = mem (buf + n) :=
      write_of_ne (by omega)
    have hrest : samplesAt (write (write mem (buf + (2 * n + 1)) (mem (buf + n))) (buf + 2 * n)
        (mem (buf + n))) buf n = samplesAt mem buf n :=
      samplesAt_congr fun i hi => round_below (by omega)
    rw [readsDown, hread, ih, hrest, samplesAt_succ, List.reverse_append]
    rfl

end Down

/-! ### The forward loop -/

section Up

variable {mem : Memory} {mono out : ℕ}

theorem expandUp_frame (k : ℕ) {i a : ℕ} (h : a < out + 2 * i ∨ out + 2 * (i + k) ≤ a) :
    expandUp mem mono out i k a = mem a := by
  induction k generalizing mem i with
  | zero => rfl
  | succ k ih =>
    rw [expandUp, ih (by omega), write_of_ne (by omega), write_of_ne (by omega)]

/-- Into a buffer apart from the samples, which no round touches. -/
theorem expandUp_apply {n : ℕ} (hdisj : ∀ a < n, ∀ b < 2 * n, mono + a ≠ out + b) (k : ℕ)
    {i : ℕ} (hik : i + k = n) : ∀ j, i ≤ j → j < n →
    expandUp mem mono out i k (out + 2 * j) = mem (mono + j) ∧
      expandUp mem mono out i k (out + (2 * j + 1)) = mem (mono + j) := by
  induction k generalizing mem i with
  | zero =>
    intro j hij hj
    omega
  | succ k ih =>
    intro j hij hj
    have hread : write mem (out + 2 * i) (mem (mono + i)) (mono + i) = mem (mono + i) :=
      write_of_ne (hdisj i (by omega) (2 * i) (by omega))
    rw [expandUp, hread]
    rcases Nat.eq_or_lt_of_le hij with rfl | hlt
    · -- the sample of this round: the later rounds write above it
      rw [expandUp_frame k (.inl (by omega)), expandUp_frame k (.inl (by omega)), write_self,
        write_of_ne (by omega), write_self]
      exact ⟨rfl, rfl⟩
    · obtain ⟨heven, hodd⟩ :=
        @ih (write (write mem (out + 2 * i) (mem (mono + i))) (out + (2 * i + 1))
          (mem (mono + i))) (i + 1) (by omega) j hlt hj
      rw [heven, hodd, write_of_ne (hdisj j hj _ (by omega)), write_of_ne (hdisj j hj _ (by omega))]
      exact ⟨rfl, rfl⟩

theorem samplesAt_monoToStereo_of_disjoint (mem : Memory) {n : ℕ}
    (hdisj : ∀ a < n, ∀ b < 2 * n, mono + a ≠ out + b) :
    samplesAt (monoToStereo mem mono out n) out (2 * n) = duplicate (samplesAt mem mono n) := by
  rcases Nat.eq_zero_or_pos n with rfl | hn
  · rfl
  · have hne : mono ≠ out := hdisj 0 hn 0 (by omega)
    rw [monoToStereo, if_neg hne, Int.toNat_natCast]
    exact samplesAt_eq_duplicate fun j hj =>
      expandUp_apply hdisj n (Nat.zero_add n) j (Nat.zero_le j) hj

end Up

/-- **In place and out of place**: expanding a buffer over itself writes the samples that expanding
it into another one writes, it reads every sample as it was, and nothing else changes. -/
theorem monoToStereo_in_place (mem : Memory) (buf out n : ℕ)
    (hdisj : ∀ a < n, ∀ b < 2 * n, buf + a ≠ out + b) :
    samplesAt (monoToStereo mem buf buf n) buf (2 * n) =
        samplesAt (monoToStereo mem buf out n) out (2 * n) ∧
      readsDown mem buf n = duplicate (samplesAt mem buf n).reverse ∧
      ∀ a, a < buf ∨ buf + 2 * n ≤ a → monoToStereo mem buf buf n a = mem a := by
  refine ⟨?_, readsDown_eq n, ?_⟩
  · rw [samplesAt_monoToStereo_self, samplesAt_monoToStereo_of_disjoint mem hdisj]
  · intro a ha
    rw [monoToStereo, if_pos rfl, Int.toNat_natCast]
    exact expandDown_frame n ha

theorem monoToStereo_in_place_three :
    samplesAt (monoToStereo Int16.ofNat 1 1 3) 1 6 = [1, 1, 2, 2, 3, 3] ∧
      samplesAt (monoToStereo Int16.ofNat 1 1 3) 1 6 =
        samplesAt (monoToStereo Int16.ofNat 1 20 3) 20 6 :=
  ⟨by decide, (monoToStereo_in_place Int16.ofNat 1 20 3 (fun a ha b hb => by omega)).1⟩

end AudioDecode

end LeAudioReceiver
