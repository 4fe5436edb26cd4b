import LeAudioReceiver.PcmOracle.Exact

/-!
# What a passed correlation means

`pcm_oracle_finalize` divides by the product of two square roots that are rounded down, so the
correlation that it returns is not below the exact one, and on quiet signals it can be far above:
energies 10 and 6 with dot product 6 have correlation `0.775`, and the roots 3 and 2 make it one.

* `le_correlation_iff` : the comparison of the verdict, without division;
* `pass_correlation` : a passed signal is correlated as far as the rounded roots tell, and exactly
  if the energies are squares;
* `pass_under_correlated` : the roots can lift a signal over the frozen limits.
-/

namespace LeAudioReceiver

namespace PcmOracle

/-- Clamping and truncation do not matter for a positive limit. -/
theorem le_correlation_iff {dot limit : ℤ} {denominator : ℕ} (hpos : 0 < denominator)
    (h₁ : 1 ≤ limit) (h₂ : limit ≤ 32767) :
    limit ≤ max (-32768) (min 32767 ((dot * 32768).tdiv denominator)) ↔
      limit * denominator ≤ dot * 32768 := by
  have hclamp : limit ≤ max (-32768) (min 32767 ((dot * 32768).tdiv denominator)) ↔
      limit ≤ (dot * 32768).tdiv denominator := by omega
  rw [hclamp]
  have hd : (0 : ℤ) < denominator := by exact_mod_cast hpos
  rcases le_or_gt 0 dot with hdot | hdot
  · rw [Int.tdiv_eq_ediv_of_nonneg (by omega), Int.le_ediv_iff_mul_le hd]
  · -- a negative quotient is below the limit
    have hquot : (dot * 32768).tdiv denominator ≤ 0 := by
      have hneg := Int.tdiv_nonneg (a := -(dot * 32768)) (by omega) hd.le
      rw [Int.neg_tdiv] at hneg
      omega
    have hprod : 0 < limit * denominator := mul_pos (by omega) hd
    constructor
    · intro h
      omega
    · intro h
      omega

section Pass

variable {sizeMax : ℕ} {calls : List Call} {limits : Limits} {o : Oracle} {m : Metrics}

/-- A passed signal has energy in both channels, and its correlation reaches the limit. -/
theorem correlation_of_pass (h : evaluate m limits = .pass) :
    m.actualEnergyScaled ≠ 0 ∧ m.referenceEnergyScaled ≠ 0 ∧
      limits.minCorrelationQ15 ≤ m.correlationQ15 := by
  unfold evaluate at h
  split_ifs at h with hsamples hmax hrms hcorrelation
  simp only [not_or, not_lt] at hcorrelation
  exact hcorrelation

/-- **What a passed correlation means.**  After any run of calls, if the metrics of the oracle pass
a limit in `[1, 32767]`, the dot product is positive, and the correlation with the energies rounded
down to squares reaches the limit; so does the exact one if the energies are squares, and else up to
the factor that the roots lose. -/
theorem pass_correlation (hlast : (run sizeMax Oracle.init calls).2 = o)
    (hm : finalize o = .ok m) (hpass : evaluate m limits = .pass)
    (h₁ : 1 ≤ limits.minCorrelationQ15) (h₂ : limits.minCorrelationQ15 ≤ 32767) :
    0 < o.dotProductScaled ∧
    limits.minCorrelationQ15 * (Nat.sqrt o.actualEnergyScaled * Nat.sqrt o.referenceEnergyScaled) ≤
      o.dotProductScaled * 2 ^ 15 ∧
    (IsSquare o.actualEnergyScaled → IsSquare o.referenceEnergyScaled →
      limits.minCorrelationQ15 ^ 2 * (o.actualEnergyScaled * o.referenceEnergyScaled) ≤
        o.dotProductScaled ^ 2 * 2 ^ 30) ∧
    limits.minCorrelationQ15 ^ 2 * (o.actualEnergyScaled * o.referenceEnergyScaled) *
        (Nat.sqrt o.actualEnergyScaled * Nat.sqrt o.referenceEnergyScaled) ^ 2 ≤
      o.dotProductScaled ^ 2 * 2 ^ 30 *
        ((Nat.sqrt o.actualEnergyScaled + 1) * (Nat.sqrt o.referenceEnergyScaled + 1)) ^ 2 := by
  obtain ⟨ps, h⟩ := @Holds.run sizeMax Oracle.init [] Holds.init calls
  rw [hlast] at h
  obtain ⟨m', hm', -, ha, hr, -, hcorrelation⟩ := h.finalize
  obtain rfl := Except.ok.inj (hm.symm.trans hm')
  obtain ⟨hne, hne', hlimit⟩ := correlation_of_pass hpass
  rw [ha] at hne
  rw [hr] at hne'
  have hq15 := (h.correlationOf_eq hne hne').symm.trans (hcorrelation hne hne')
  rw [← Except.ok.inj hq15] at hlimit
  have hs := Nat.sqrt_pos.2 (Nat.pos_of_ne_zero hne)
  have ht := Nat.sqrt_pos.2 (Nat.pos_of_ne_zero hne')
  rw [le_correlation_iff (Nat.mul_pos hs ht) h₁ h₂] at hlimit
  have hactual' := Nat.lt_succ_sqrt o.actualEnergyScaled
  have hreference' := Nat.lt_succ_sqrt o.referenceEnergyScaled
  -- a square is the square of its root
  have hsquareA : IsSquare o.actualEnergyScaled →
      o.actualEnergyScaled = Nat.sqrt o.actualEnergyScaled * Nat.sqrt o.actualEnergyScaled := by
    rintro ⟨x, hx⟩
    rw [hx, Nat.sqrt_eq]
  have hsquareR : IsSquare o.referenceEnergyScaled → o.referenceEnergyScaled =
      Nat.sqrt o.referenceEnergyScaled * Nat.sqrt o.referenceEnergyScaled := by
    rintro ⟨x, hx⟩
    rw [hx, Nat.sqrt_eq]
  -- from here on only the numbers count
  generalize Nat.sqrt o.actualEnergyScaled = s at *
  generalize Nat.sqrt o.referenceEnergyScaled = t at *
  generalize o.actualEnergyScaled = actual at *
  generalize o.referenceEnergyScaled = reference at *
  generalize o.dotProductScaled = dot at *
  generalize limits.minCorrelationQ15 = limit at *
  push_cast at hlimit
  have hs' : (0 : ℤ) < s := by exact_mod_cast hs
  have ht' : (0 : ℤ) < t := by exact_mod_cast ht
  have hfloor : 0 < limit * (s * t) := mul_pos (by omega) (mul_pos hs' ht')
  have hsquared : (limit * (s * t)) ^ 2 ≤ dot ^ 2 * 2 ^ 30 := by
    have hpow := pow_le_pow_left₀ hfloor.le hlimit 2
    linarith
  refine ⟨by omega, by linarith, ?_, ?_⟩
  · intro hA hR
    rw [hsquareA hA, hsquareR hR]
    push_cast
    linarith
  · have hA : (actual : ℤ) ≤ (s + 1) * (s + 1) := by exact_mod_cast hactual'.le
    have hR : (reference : ℤ) ≤ (t + 1) * (t + 1) := by exact_mod_cast hreference'.le
    -- each root loses less than one
    have hAR : (actual : ℤ) * reference ≤ ((s + 1) * (t + 1)) ^ 2 := by
      have hmul := mul_le_mul hA hR (Int.natCast_nonneg _) (by positivity)
      linarith
    have hmul := mul_le_mul hsquared hAR (by positivity) (by positivity)
    linarith

end Pass

/-! ### A quiet signal -/

/-- The limits of `portable-oracle-manifest.json`. -/
def frozenLimits : Limits := ⟨1, 2048, 512, 32750⟩

/-- The samples `256`, `512`, `-256` and `-512` against `0`, `256`, `-512` and `-256`. -/
def quietCall : Call where
  actual := some fun i => [256, 512, -256, -512].getD i 0
  actualStride := 1
  reference := some fun i => [0x00, 0x00, 0x00, 0x01, 0x00, 0xfe, 0x00, 0xff].getD i 0
  referenceByteStride := 2
  sampleCount := 4
  sampleCount_le := by decide

theorem run_quietCall : (run 65535 Oracle.init [quietCall]).2 = ⟨262144, 10, 6, 6, 4, 1, 256⟩ := by
  decide

theorem floorSqrtU64_of {value root : ℕ} (h₁ : root * root ≤ value)
    (h₂ : value < (root + 1) * (root + 1)) (h₃ : value < 2 ^ 64) : floorSqrtU64 value = root :=
  (floorSqrtU64_eq h₃).trans (Nat.eq_sqrt.2 ⟨h₁, h₂⟩).symm

theorem finalize_quietCall : finalize ⟨262144, 10, 6, 6, 4, 1, 256⟩ =
    .ok ⟨262144, 10, 6, 6, 4, 1, 256, 256, 32767⟩ := by
  have hrms : rmsOf 262144 4 = 256 := by
    show ceilSqrtU64 65536 = 256
    rw [ceilSqrtU64, floorSqrtU64_of (by decide : 256 * 256 ≤ 65536) (by decide) (by decide)]
    rfl
  have hcorrelation : correlationOf 10 6 6 = .ok 32767 := by
    rw [correlationOf, floorSqrtU64_of (by decide : 3 * 3 ≤ 10) (by decide) (by decide),
      floorSqrtU64_of (by decide : 2 * 2 ≤ 6) (by decide) (by decide)]
    rfl
  unfold finalize
  dsimp only
  rw [hrms, hcorrelation]
  rfl

/-- The signal passes the frozen limits, and its correlation is `0.775`. -/
theorem pass_under_correlated :
    ∃ o m, (run 65535 Oracle.init [quietCall]).2 = o ∧ finalize o = .ok m ∧
      evaluate m frozenLimits = .pass ∧
      ¬ (0 < o.dotProductScaled ∧
        frozenLimits.minCorrelationQ15 ^ 2 * (o.actualEnergyScaled * o.referenceEnergyScaled) ≤
          o.dotProductScaled ^ 2 * 2 ^ 30) :=
  ⟨_, _, run_quietCall, finalize_quietCall, by decide, by decide⟩

/-- Its verdict under a limit of a half, which the exact correlation reaches. -/
theorem pass_correlation_quietCall :
    ∃ o m, (run 65535 Oracle.init [quietCall]).2 = o ∧ finalize o = .ok m ∧
      0 < o.dotProductScaled ∧
      16384 * ((Nat.sqrt o.actualEnergyScaled : ℤ) * Nat.sqrt o.referenceEnergyScaled) ≤
        o.dotProductScaled * 2 ^ 15 :=
  have h := pass_correlation run_quietCall finalize_quietCall
    (by decide : evaluate _ ⟨1, 2048, 512, 16384⟩ = .pass) (by decide) (by decide)
  ⟨_, _, run_quietCall, finalize_quietCall, h.1, h.2.1⟩

end PcmOracle

end LeAudioReceiver
