import LeAudioReceiver.Asrc.Split
import LeAudioReceiver.Rounding.Basic
import Mathlib.Algebra.Order.Floor.Semifield

/-!
# The converter against the exact interpolation

The exact resampler interpolates the input sequence linearly at the positions `0`, `step`,
`2 step`, … and rounds each value to the nearest sample.  `drift_free` shows that the blocks of
`src/audio_asrc.c`, in any partition of the input, render exactly this: nothing is rounded in the
phase, so the error of an output does not grow with its index, and the number of outputs is the
number of positions up to the last input frame.

* `lerpAt` : the interpolated value at a rational position;
* `toInt_interpS16` : `interp_s16` is the rounded interpolation;
* `interpS16_kernel` : what follows for its bounds, its sign and its order;
* `drift_free` : the outputs of a stream in closed form.
-/

namespace LeAudioReceiver

namespace Asrc

open Resample Rounding

/-- The sequence `x`, interpolated linearly at position `p`. -/
def lerpAt (x : ℕ → ℤ) (p : ℚ) : ℚ :=
  (1 - Int.fract p) * x ⌊p⌋₊ + Int.fract p * x (⌊p⌋₊ + 1)

theorem lerpAt_div (x : ℕ → ℤ) (p : ℕ) :
    lerpAt x ((p : ℚ) / q32One) =
      ((x (p / q32One) * ((q32One : ℤ) - (p % q32One : ℕ)) +
        x (p / q32One + 1) * (p % q32One : ℕ) : ℤ) : ℚ) / q32One := by
  have hq : (q32One : ℚ) ≠ 0 := by norm_num [q32One]
  rw [lerpAt, Nat.floor_div_eq_div, Int.fract_div_natCast_eq_div_natCast_mod]
  generalize p % q32One = frac
  push_cast
  field_simp

/-! ### One sample -/

theorem toInt_bounds (a : Int16) : -32768 ≤ a.toInt ∧ a.toInt ≤ 32767 := by
  have h₁ := a.toInt_lt
  have h₂ := a.le_toInt
  omega

/-- `interp_s16` divides by `2 ^ 32`, rounding to the nearest integer, ties away from zero. -/
theorem interpS16_eq (a b : Int16) (frac : ℕ) :
    interpS16 a b frac =
      Int16.ofInt (tdivAway (a.toInt * ((q32One : ℤ) - frac) + b.toInt * frac) (2 ^ 31)) := rfl

/-- The dividend of `interp_s16`. -/
def lerpSum (a b : Int16) (frac : ℕ) : ℤ :=
  a.toInt * ((q32One : ℤ) - frac) + b.toInt * frac

/-- The value between two samples that a fraction means. -/
def lerp (a b : Int16) (frac : ℕ) : ℚ := (lerpSum a b frac : ℚ) / q32One

/-- Between two samples the rounded value is a sample. -/
theorem toInt_interpS16 (a b : Int16) {frac : ℕ} (hf : frac ≤ q32One) :
    (interpS16 a b frac).toInt =
      roundAway (((a.toInt * ((q32One : ℤ) - frac) + b.toInt * frac : ℤ) : ℚ) / q32One) := by
  rw [interpS16_eq]
  have hhalf : ((2 : ℚ) * ((2 ^ 31 : ℤ) : ℚ)) = q32One := by norm_num [q32One]
  have hround := tdivAway_eq (s := a.toInt * ((q32One : ℤ) - frac) + b.toInt * frac)
    (h := 2 ^ 31) (by decide)
  rw [hhalf] at hround
  obtain ⟨ha₁, ha₂⟩ := toInt_bounds a
  obtain ⟨hb₁, hb₂⟩ := toInt_bounds b
  have hq : (0 : ℚ) < q32One := by norm_num [q32One]
  -- the weights are not negative, and their sum is one
  have hw₁ : (0 : ℤ) ≤ (q32One : ℤ) - frac := by omega
  have hw₂ : (0 : ℤ) ≤ frac := Int.natCast_nonneg frac
  have hlo : (-32768 : ℤ) * q32One ≤ a.toInt * ((q32One : ℤ) - frac) + b.toInt * frac := by
    have h₁ := Int.mul_le_mul_of_nonneg_right ha₁ hw₁
    have h₂ := Int.mul_le_mul_of_nonneg_right hb₁ hw₂
    linarith
  have hhi : a.toInt * ((q32One : ℤ) - frac) + b.toInt * frac ≤ 32767 * q32One := by
    have h₁ := Int.mul_le_mul_of_nonneg_right ha₂ hw₁
    have h₂ := Int.mul_le_mul_of_nonneg_right hb₂ hw₂
    linarith
  generalize a.toInt * ((q32One : ℤ) - frac) + b.toInt * frac = sum at hround hlo hhi
  have hmem := roundAway_mem (α := ℚ) (a := -32768) (b := 32767) (x := (sum : ℚ) / q32One)
    (by rw [le_div_iff₀ hq]; exact_mod_cast hlo) (by rw [div_le_iff₀ hq]; exact_mod_cast hhi)
  rw [hround, Int16.toInt_ofInt_of_le (by omega) (by omega)]

theorem tdivAway_lerpSum (a b : Int16) (frac : ℕ) :
    tdivAway (lerpSum a b frac) (2 ^ 31) = roundAway (lerp a b frac) := by
  have hhalf : ((2 : ℚ) * ((2 ^ 31 : ℤ) : ℚ)) = q32One := by norm_num [q32One]
  rw [tdivAway_eq (by decide), hhalf, lerp]

/-- The exact value lies between the samples. -/
theorem lerp_mem (a b : Int16) {frac : ℕ} (hf : frac ≤ q32One) :
    ((min a.toInt b.toInt : ℤ) : ℚ) ≤ lerp a b frac ∧
      lerp a b frac ≤ ((max a.toInt b.toInt : ℤ) : ℚ) := by
  have hq : (0 : ℚ) < q32One := by norm_num [q32One]
  have hw₁ : (0 : ℤ) ≤ (q32One : ℤ) - frac := by omega
  have hw₂ : (0 : ℤ) ≤ frac := Int.natCast_nonneg frac
  have hlo : min a.toInt b.toInt * q32One ≤ lerpSum a b frac := by
    have h₁ := Int.mul_le_mul_of_nonneg_right (min_le_left a.toInt b.toInt) hw₁
    have h₂ := Int.mul_le_mul_of_nonneg_right (min_le_right a.toInt b.toInt) hw₂
    rw [lerpSum]
    linarith
  have hhi : lerpSum a b frac ≤ max a.toInt b.toInt * q32One := by
    have h₁ := Int.mul_le_mul_of_nonneg_right (le_max_left a.toInt b.toInt) hw₁
    have h₂ := Int.mul_le_mul_of_nonneg_right (le_max_right a.toInt b.toInt) hw₂
    rw [lerpSum]
    linarith
  rw [lerp, le_div_iff₀ hq, div_le_iff₀ hq]
  exact ⟨by exact_mod_cast hlo, by exact_mod_cast hhi⟩

/-- The weights are not negative, so the exact value grows with both samples. -/
theorem lerp_mono {a a' b b' : Int16} (ha : a.toInt ≤ a'.toInt) (hb : b.toInt ≤ b'.toInt)
    {frac : ℕ} (hf : frac ≤ q32One) : lerp a b frac ≤ lerp a' b' frac := by
  have hq : (0 : ℚ) < q32One := by norm_num [q32One]
  have hw : (0 : ℤ) ≤ (q32One : ℤ) - frac := by omega
  have hsum : lerpSum a b frac ≤ lerpSum a' b' frac :=
    add_le_add (Int.mul_le_mul_of_nonneg_right ha hw)
      (Int.mul_le_mul_of_nonneg_right hb (Int.natCast_nonneg frac))
  exact div_le_div_of_nonneg_right (by exact_mod_cast hsum) hq.le

theorem toInt_neg {a : Int16} (h : a.toInt ≠ -32768) : (-a).toInt = -a.toInt := by
  obtain ⟨h₁, h₂⟩ := toInt_bounds a
  rw [Int16.toInt_neg]
  exact Int.bmod_eq_of_le (by omega) (by omega)

theorem lerp_neg {a b : Int16} (ha : a.toInt ≠ -32768) (hb : b.toInt ≠ -32768) (frac : ℕ) :
    lerp (-a) (-b) frac = -lerp a b frac := by
  rw [lerp, lerp, lerpSum, lerpSum, toInt_neg ha, toInt_neg hb]
  push_cast
  ring

/-- **The interpolation kernel.**  For all samples and every 32-bit fraction the result is the
exact value rounded to nearest, ties away from zero; it lies between the samples, already before
it is narrowed to 16 bits; it is the first sample at fraction zero; negating both samples negates
it; and it grows with each sample. -/
theorem interpS16_kernel (a b : Int16) (frac : UInt32) :
    (interpS16 a b frac.toNat).toInt = roundAway (lerp a b frac.toNat) ∧
      tdivAway (lerpSum a b frac.toNat) (2 ^ 31) = (interpS16 a b frac.toNat).toInt ∧
      min a.toInt b.toInt ≤ (interpS16 a b frac.toNat).toInt ∧
      (interpS16 a b frac.toNat).toInt ≤ max a.toInt b.toInt ∧
      (frac = 0 → interpS16 a b frac.toNat = a) ∧
      (a.toInt ≠ -32768 → b.toInt ≠ -32768 →
        interpS16 (-a) (-b) frac.toNat = -interpS16 a b frac.toNat) ∧
      (∀ a' : Int16, a.toInt ≤ a'.toInt →
        (interpS16 a b frac.toNat).toInt ≤ (interpS16 a' b frac.toNat).toInt) ∧
      (∀ b' : Int16, b.toInt ≤ b'.toInt →
        (interpS16 a b frac.toNat).toInt ≤ (interpS16 a b' frac.toNat).toInt) := by
  have hf : frac.toNat ≤ q32One := frac.toNat_lt.le
  have hround : ∀ a b : Int16,
      (interpS16 a b frac.toNat).toInt = roundAway (lerp a b frac.toNat) := by
    intro a b
    exact toInt_interpS16 a b hf
  have hmem := roundAway_mem (lerp_mem a b hf).1 (lerp_mem a b hf).2
  refine ⟨hround a b, ?_, ?_, ?_, ?_, ?_, ?_, ?_⟩
  · rw [tdivAway_lerpSum, hround]
  · rw [hround]
    exact hmem.1
  · rw [hround]
    exact hmem.2
  · rintro rfl
    exact interpS16_zero a b
  · intro ha hb
    -- between two samples other than `-32768` there is no `-32768`
    have hlow : (interpS16 a b frac.toNat).toInt ≠ -32768 := by
      have := (toInt_bounds a).1
      have := (toInt_bounds b).1
      rw [hround]
      omega
    rw [← Int16.toInt_inj, toInt_neg hlow, hround, hround, lerp_neg ha hb, roundAway_neg]
  · intro a' ha
    rw [hround, hround]
    exact roundAway_mono (lerp_mono ha le_rfl hf)
  · intro b' hb
    rw [hround, hround]
    exact roundAway_mono (lerp_mono le_rfl hb hf)

/-- Halfway between `-3` and `0`: the tie goes to `-2`, and for the negated samples to `2`. -/
theorem interpS16_kernel_half :
    (interpS16 (-3) 0 2147483648).toInt = -2 ∧
      interpS16 (-(-3)) (-0) 2147483648 = -interpS16 (-3) 0 2147483648 ∧
      (interpS16 (-3) 0 2147483648).toInt ≤ (interpS16 (-3) 1 2147483648).toInt :=
  have h := interpS16_kernel (-3) 0 2147483648
  ⟨by decide, h.2.2.2.2.2.1 (by decide) (by decide), h.2.2.2.2.2.2.2 1 (by decide)⟩

/-! ### A stream -/

/-- The sequence of one channel. -/
def samples (frames : List Frame) (ch : Frame → Int16) (i : ℕ) : ℤ :=
  (ch (frames.getD i default)).toInt

/-- The rounded interpolation of a sequence at phase `p`. -/
def exactAt (x : ℕ → ℤ) (p : ℕ) : ℤ := roundAway (lerpAt x ((p : ℚ) / q32One))

theorem toInt_sample (ch : Frame → Int16)
    (hch : ∀ a b frac, ch (interpFrame a b frac) = interpS16 (ch a) (ch b) frac)
    (frames : List Frame) (p : ℕ) :
    (ch (sample interpFrame q32One (fun i => frames.getD i default) p)).toInt =
      exactAt (samples frames ch) p := by
  have hf : p % q32One ≤ q32One := (Nat.mod_lt _ (by decide)).le
  rw [sample_interpFrame, hch, toInt_interpS16 _ _ hf, exactAt, lerpAt_div]
  rfl

/-- **The converter does not drift.**  For every accepted pair of rates and every correction, `T`
input frames in any partition into blocks, with room for what is due, give
`⌊(T - 1) * 2 ^ 32 / step⌋ + 1` output frames, and output frame `k` is the linear interpolation of
the input at position `k * step / 2 ^ 32`, rounded to nearest with ties away from zero. -/
theorem drift_free {inRate outRate : ℕ} {ctx : AudioAsrc} (hinit : init inRate outRate = some ctx)
    {ppm : ℤ} (h₁ : -maxPpm ≤ ppm) (h₂ : ppm ≤ maxPpm) {prev : Frame} {prevValid : Bool}
    {bs : List (Block × ℕ)} (hne : bs ≠ [])
    (hroom : (Session.mk ctx prev prevValid).RoomyRun ppm bs) :
    ∃ s out, (Session.mk ctx prev prevValid).run ppm bs = some (s, out) ∧
      out.length = ((Session.framesOf bs).length - 1) * 2 ^ 32 / ctx.step ppm + 1 ∧
      ∀ (k : ℕ) (hk : k < out.length),
        out[k].l.toInt = exactAt (samples (Session.framesOf bs) Frame.l) (k * ctx.step ppm) ∧
        out[k].r.toInt = exactAt (samples (Session.framesOf bs) Frame.r) (k * ctx.step ppm) := by
  have hok : (Session.mk ctx prev prevValid).Ok :=
    (Session.Reachable.init prev prevValid hinit).ok
  have hphase : ctx.phase.toNat = q32One := (init_bounds hinit).2.2
  refine ⟨_, _, Session.run_eq h₁ h₂ hok hroom hne, ?_, ?_⟩
  · have hpos := List.length_pos_of_ne_nil (Session.framesOf_ne_nil hne)
    rw [Session.output, length_render, hphase, due, if_pos (Nat.le_mul_of_pos_left _ hpos),
      Nat.sub_mul, Nat.one_mul, q32One]
  · intro k hk
    -- the phase starts at the first input frame, one behind the previous block
    have hout : ((Session.mk ctx prev prevValid).output ppm (Session.framesOf bs))[k] =
        sample interpFrame q32One (fun i => (Session.framesOf bs).getD i default)
          (k * ctx.step ppm) := by
      have hshift : sample interpFrame q32One _ _ = _ := sample_shift (by decide)
        (ext prev (Session.framesOf bs)) 1 (k * ctx.step ppm)
      rw [Nat.one_mul] at hshift
      simp only [Session.output, render, List.getElem_map, List.getElem_range, hphase]
      rw [Nat.add_comm q32One, ← hshift]
      congr 1
      funext i
      rw [Nat.add_comm]
      rfl
    rw [hout]
    exact ⟨toInt_sample Frame.l (fun _ _ _ => rfl) _ _, toInt_sample Frame.r (fun _ _ _ => rfl) _ _⟩

/-- Doubling the rate of two frames, one block each: the frame between them is halfway. -/
theorem drift_free_doubled : ∃ s out,
    (Session.mk ⟨4294967296, 2147483648⟩ ⟨0, 0⟩ false).run 0
        [(⟨[⟨0, 0⟩], by decide, by decide⟩, 1), (⟨[⟨3, -3⟩], by decide, by decide⟩, 2)] =
      some (s, out) ∧ out.length = 3 ∧
    ∀ (k : ℕ) (hk : k < out.length),
      out[k].l.toInt = exactAt (samples [⟨0, 0⟩, ⟨3, -3⟩] Frame.l) (k * 2147483648) := by
  have hinit : init 1 2 = some ⟨4294967296, 2147483648⟩ := by decide
  have hroom : (Session.mk ⟨4294967296, 2147483648⟩ ⟨0, 0⟩ false).RoomyRun 0
      [(⟨[⟨0, 0⟩], by decide, by decide⟩, 1), (⟨[⟨3, -3⟩], by decide, by decide⟩, 2)] := by
    refine ⟨⟨by decide, by decide⟩, fun s output hfeed => ⟨?_, fun _ _ _ => trivial⟩⟩
    have hfirst : (Session.mk ⟨4294967296, 2147483648⟩ ⟨0, 0⟩ false).feed 0
        ⟨[⟨0, 0⟩], by decide, by decide⟩ 1 =
          some (⟨⟨2147483648, 2147483648⟩, ⟨0, 0⟩, true⟩, [⟨0, 0⟩]) := by decide
    obtain ⟨rfl, -⟩ := Prod.mk.inj (Option.some.inj (hfirst.symm.trans hfeed))
    exact ⟨by decide, by decide⟩
  obtain ⟨s, out, hrun, hlen, hout⟩ := drift_free hinit (show -maxPpm ≤ 0 by decide) (by decide)
    (by simp) hroom
  exact ⟨s, out, hrun, hlen, fun k hk => (hout k hk).1⟩

end Asrc

end LeAudioReceiver
