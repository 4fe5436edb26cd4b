import Mathlib.Algebra.BigOperators.Group.List.Basic
import Mathlib.Algebra.GroupWithZero.Nat
import Mathlib.Algebra.Order.BigOperators.Group.List
import Mathlib.Algebra.Order.Ring.Nat
import Mathlib.Tactic.Common

/-!
# Rate conversion of frame counts

The accumulator of `src/audio_rate_convert.c`, which says how many output frames a block of input
frames is worth and carries the fraction over to the next block.

* `RateConverter.sum_frames` : over any number of blocks the output frames are **the share of the
  input frames that is due**, up to the fraction carried;
* `RateConverter.returned_exact` : the frame counts that the calls return add up to the whole part
  of the share of the total, if and only if each of them fits `size_t`.
-/

namespace LeAudioReceiver

/-- `struct audio_rate_converter`. -/
structure RateConverter where
  remainder : UInt32
  inputRateHz : UInt32
  outputRateHz : UInt32
  deriving DecidableEq, Repr

namespace RateConverter

/-- `audio_rate_converter_init`. -/
def init (inputRateHz outputRateHz : UInt32) : RateConverter := ⟨0, inputRateHz, outputRateHz⟩

variable (ctx : RateConverter)

/-- The widened sum of `audio_rate_converter_next_frames`. -/
def acc (inputFrames : UInt32) : UInt64 :=
  ctx.remainder.toUInt64 + ctx.outputRateHz.toUInt64 * inputFrames.toUInt64

/-- `audio_rate_converter_next_frames`. -/
def nextFrames (inputFrames : UInt32) : RateConverter × UInt64 :=
  let acc := ctx.acc inputFrames
  let output := acc / ctx.inputRateHz.toUInt64
  ({ ctx with remainder := (acc % ctx.inputRateHz.toUInt64).toUInt32 }, output)

/-- The output frames of a list of blocks. -/
def frames : RateConverter → List UInt32 → List UInt64
  | _, [] => []
  | ctx, n :: ns => (ctx.nextFrames n).2 :: frames (ctx.nextFrames n).1 ns

/-- The converter behind a list of blocks. -/
def after (ns : List UInt32) : RateConverter := ns.foldl (fun ctx n => (ctx.nextFrames n).1) ctx

variable {ctx}

theorem toNat_acc (n : UInt32) :
    (ctx.acc n).toNat = ctx.remainder.toNat + ctx.outputRateHz.toNat * n.toNat := by
  have hr := ctx.remainder.toNat_lt
  have hprod : ctx.outputRateHz.toNat * n.toNat ≤ (2 ^ 32 - 1) * (2 ^ 32 - 1) :=
    Nat.mul_le_mul (Nat.le_pred_of_lt ctx.outputRateHz.toNat_lt) (Nat.le_pred_of_lt n.toNat_lt)
  rw [acc, UInt64.toNat_add, UInt64.toNat_mul]
  simp only [UInt32.toNat_toUInt64]
  rw [Nat.mod_eq_of_lt (a := ctx.outputRateHz.toNat * n.toNat) (by omega),
    Nat.mod_eq_of_lt (by omega)]

theorem toNat_remainder (hin : 0 < ctx.inputRateHz.toNat) (n : UInt32) :
    (ctx.nextFrames n).1.remainder.toNat = (ctx.acc n).toNat % ctx.inputRateHz.toNat := by
  have hlt := Nat.mod_lt (ctx.acc n).toNat hin
  have hrate := ctx.inputRateHz.toNat_lt
  rw [nextFrames, UInt64.toNat_toUInt32, UInt64.toNat_mod, UInt32.toNat_toUInt64]
  exact Nat.mod_eq_of_lt (Nat.lt_trans hlt hrate)

theorem nextFrames_spec (hin : 0 < ctx.inputRateHz.toNat) (n : UInt32) :
    (ctx.nextFrames n).2.toNat * ctx.inputRateHz.toNat + (ctx.nextFrames n).1.remainder.toNat =
      ctx.remainder.toNat + ctx.outputRateHz.toNat * n.toNat := by
  have hout : (ctx.nextFrames n).2.toNat = (ctx.acc n).toNat / ctx.inputRateHz.toNat := by
    rw [nextFrames, UInt64.toNat_div, UInt32.toNat_toUInt64]
  rw [toNat_remainder hin, hout, ← toNat_acc, Nat.mul_comm]
  exact Nat.div_add_mod _ _

/-- The output frames of any blocks, and what is carried behind them. -/
theorem sum_frames (hin : 0 < ctx.inputRateHz.toNat) (ns : List UInt32) :
    ((ctx.frames ns).map UInt64.toNat).sum * ctx.inputRateHz.toNat +
        (ctx.after ns).remainder.toNat =
      ctx.remainder.toNat + ctx.outputRateHz.toNat * (ns.map UInt32.toNat).sum := by
  induction ns generalizing ctx with
  | nil => simp [frames, after]
  | cons n ns ih =>
    have hstep := nextFrames_spec hin n
    have hin' : 0 < (ctx.nextFrames n).1.inputRateHz.toNat := hin
    have hrest := ih hin'
    have hrate : (ctx.nextFrames n).1.inputRateHz = ctx.inputRateHz := rfl
    have hrate' : (ctx.nextFrames n).1.outputRateHz = ctx.outputRateHz := rfl
    rw [hrate, hrate'] at hrest
    have hafter : ctx.after (n :: ns) = (ctx.nextFrames n).1.after ns := rfl
    rw [frames, hafter, List.map_cons, List.map_cons, List.sum_cons, List.sum_cons, Nat.add_mul,
      Nat.mul_add]
    omega

/-! ### The returned counts -/

/-- The counts that the calls return, where `size_t` has `w` bits. -/
def returned (w : ℕ) (ctx : RateConverter) (ns : List UInt32) : List ℕ :=
  (ctx.frames ns).map fun f => f.toNat % 2 ^ w

theorem remainder_after_lt (hin : 0 < ctx.inputRateHz.toNat)
    (hrem : ctx.remainder.toNat < ctx.inputRateHz.toNat) (ns : List UInt32) :
    (ctx.after ns).remainder.toNat < ctx.inputRateHz.toNat := by
  induction ns generalizing ctx with
  | nil => exact hrem
  | cons n ns ih =>
    have hstep : (ctx.nextFrames n).1.remainder.toNat < (ctx.nextFrames n).1.inputRateHz.toNat := by
      rw [toNat_remainder hin]
      exact Nat.mod_lt _ hin
    exact ih hin hstep

/-- Narrowing changes a sum unless it changes no summand. -/
theorem sum_mod_eq_iff (m : ℕ) (l : List ℕ) :
    (l.map (· % m)).sum = l.sum ↔ ∀ x ∈ l, x % m = x := by
  induction l with
  | nil => simp
  | cons x l ih =>
    have hx := Nat.mod_le x m
    have hl : (l.map (· % m)).sum ≤ (l.map fun y => y).sum :=
      List.sum_le_sum fun y _ => Nat.mod_le y m
    rw [List.map_id'] at hl
    rw [List.map_cons, List.sum_cons, List.sum_cons, List.forall_mem_cons, ← ih]
    omega

theorem nextFrames_lt (hin : 0 < ctx.inputRateHz.toNat)
    (hrem : ctx.remainder.toNat < ctx.inputRateHz.toNat)
    (hrate : ctx.outputRateHz.toNat ≤ 2 * ctx.inputRateHz.toNat) {n : UInt32}
    (hn : n.toNat < 2 ^ 31) : (ctx.nextFrames n).2.toNat < 2 ^ 32 := by
  have hspec := nextFrames_spec hin n
  have hprod : ctx.outputRateHz.toNat * n.toNat ≤ 2 * ctx.inputRateHz.toNat * (2 ^ 31 - 1) :=
    Nat.mul_le_mul hrate (Nat.le_pred_of_lt hn)
  by_contra hge
  have hbig := Nat.mul_le_mul_right ctx.inputRateHz.toNat (not_lt.1 hge)
  omega

theorem frames_lt (hin : 0 < ctx.inputRateHz.toNat)
    (hrem : ctx.remainder.toNat < ctx.inputRateHz.toNat)
    (hrate : ctx.outputRateHz.toNat ≤ 2 * ctx.inputRateHz.toNat) {ns : List UInt32}
    (hns : ∀ n ∈ ns, n.toNat < 2 ^ 31) : ∀ f ∈ ctx.frames ns, f.toNat < 2 ^ 32 := by
  induction ns generalizing ctx with
  | nil => exact nofun
  | cons n ns ih =>
    obtain ⟨hn, hns⟩ := List.forall_mem_cons.1 hns
    have hstep := remainder_after_lt hin hrem [n]
    exact List.forall_mem_cons.2 ⟨nextFrames_lt hin hrem hrate hn, ih hin hstep hrate hns⟩

/-- **Exactness.**  A fresh converter for any two rates, and any blocks below `2 ^ 31` frames.  No
64-bit intermediate overflows and less than an output frame is carried.  The returned counts add
up to the whole part of the share of the total input, which does not depend on the blocks, if and
only if the share of each block fits `size_t`; it always does in 64 bits, and in 32 bits if the
rate is at most doubled. -/
theorem returned_exact (w : ℕ) {inputRateHz outputRateHz : UInt32} (hin : 0 < inputRateHz.toNat)
    {ns : List UInt32} (hns : ∀ n ∈ ns, n.toNat < 2 ^ 31) :
    (∀ l n, (((init inputRateHz outputRateHz).after l).acc n).toNat =
        ((init inputRateHz outputRateHz).after l).remainder.toNat +
          ((init inputRateHz outputRateHz).after l).outputRateHz.toNat * n.toNat) ∧
      ((init inputRateHz outputRateHz).after ns).remainder.toNat < inputRateHz.toNat ∧
      ((returned w (init inputRateHz outputRateHz) ns).sum =
          outputRateHz.toNat * (ns.map UInt32.toNat).sum / inputRateHz.toNat ↔
        ∀ f ∈ (init inputRateHz outputRateHz).frames ns, f.toNat < 2 ^ w) ∧
      (64 ≤ w ∨ 32 ≤ w ∧ outputRateHz.toNat ≤ 2 * inputRateHz.toNat →
        ∀ f ∈ (init inputRateHz outputRateHz).frames ns, f.toNat < 2 ^ w) := by
  have hrem : ((init inputRateHz outputRateHz).after ns).remainder.toNat < inputRateHz.toNat :=
    @remainder_after_lt (init inputRateHz outputRateHz) hin hin ns
  refine ⟨fun l n => toNat_acc n, hrem, ?_, ?_⟩
  · have hsum := @sum_frames (init inputRateHz outputRateHz) hin ns
    have hshare : (((init inputRateHz outputRateHz).frames ns).map UInt64.toNat).sum =
        outputRateHz.toNat * (ns.map UInt32.toNat).sum / inputRateHz.toNat := by
      symm
      rw [Nat.div_eq_iff hin]
      change _ * inputRateHz.toNat + _ = 0 + outputRateHz.toNat * _ at hsum
      omega
    have hreturned : returned w (init inputRateHz outputRateHz) ns =
        (((init inputRateHz outputRateHz).frames ns).map UInt64.toNat).map (· % 2 ^ w) := by
      unfold returned
      rw [List.map_map]
      rfl
    rw [← hshare, hreturned, sum_mod_eq_iff, List.forall_mem_map]
    refine forall₂_congr fun f _ => ⟨fun h => ?_, Nat.mod_eq_of_lt⟩
    rw [← h]
    exact Nat.mod_lt _ (Nat.two_pow_pos w)
  · rintro (hw | ⟨hw, hrate⟩) f hf
    · exact f.toNat_lt.trans_le (Nat.pow_le_pow_right (by decide) hw)
    · have hlt := @frames_lt (init inputRateHz outputRateHz) hin hin hrate ns hns f hf
      exact hlt.trans_le (Nat.pow_le_pow_right (by decide) hw)

/-- The rates of the receiver. -/
theorem returned_exact_receiver :
    (returned 32 (init 48000 47619) [480, 480, 480]).sum = 47619 * 1440 / 48000 := by
  have hns : ∀ n ∈ ([480, 480, 480] : List UInt32), n.toNat < 2 ^ 31 := by
    simp
  obtain ⟨-, -, hsum, hfits⟩ := @returned_exact 32 48000 47619 (by decide) _ hns
  exact hsum.2 (hfits (.inr (by decide)))

/-- With a `size_t` of 32 bits a block of two frames comes out short. -/
theorem returned_short :
    (returned 32 (init 1 0xFFFFFFFF) [2]).sum = 0xFFFFFFFE ∧
      (returned 32 (init 1 0xFFFFFFFF) [2]).sum ≠ 0xFFFFFFFF * 2 / 1 := by
  decide

end RateConverter

end LeAudioReceiver
