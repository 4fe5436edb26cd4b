import LeAudioReceiver.PcmOracle.Basic
import Mathlib.Algebra.Order.BigOperators.Group.List
import Mathlib.Data.Nat.Sqrt
import Mathlib.Tactic.Linarith
import Mathlib.Tactic.Ring

/-!
# The PCM oracle is exact

With at most `UINT32_MAX` samples no sum of the oracle leaves its type, so the checks of the code
never fire and the sums are those of all pairs of samples, however they were split into calls.

* `floorSqrtU64_eq` : the binary search is the integer square root on 64 bits;
* `ceilSqrtU64_spec`, `rmsOf_spec` : the least integer whose square reaches a value, and a mean;
* `Holds` : the invariant of an oracle that has seen a sequence of pairs, with `Holds.accumulate`;
* `run_exact` : what a run of calls leaves, and what `pcm_oracle_finalize` makes of it.
-/

namespace LeAudioReceiver

namespace PcmOracle

/-! ### Square roots -/

section Roots

variable {value low high : ℕ}

/-- The invariant of the search: the root lies between the bounds. -/
theorem floorSqrtLoop_eq (hlow : low * low ≤ value) (hhigh : value < (high + 1) * (high + 1))
    (hle : low ≤ high) : floorSqrtLoop value low high = Nat.sqrt value := by
  induction hn : high - low using Nat.strong_induction_on generalizing low high with
  | _ n ih =>
    rw [floorSqrtLoop]
    split_ifs with hlt
    · dsimp only
      have hmiddle : 0 < low + (high - low + 1) / 2 := by omega
      split_ifs with hroot
      · -- the middle is not above the root
        rw [Nat.le_div_iff_mul_le hmiddle] at hroot
        exact ih _ (by omega) hroot hhigh (by omega) rfl
      · rw [Nat.le_div_iff_mul_le hmiddle, not_le] at hroot
        have hpred : low + (high - low + 1) / 2 - 1 + 1 = low + (high - low + 1) / 2 := by omega
        exact ih _ (by omega) hlow (by rw [hpred]; exact hroot) (by omega) rfl
    · obtain rfl : low = high := by omega
      exact (Nat.eq_sqrt.2 ⟨hlow, hhigh⟩)

theorem floorSqrtU64_eq (h : value < 2 ^ 64) : floorSqrtU64 value = Nat.sqrt value :=
  floorSqrtLoop_eq (Nat.zero_le value) (by omega) (Nat.zero_le _)

/-- The ceiling of a root is the least integer whose square is not below. -/
theorem ceilSqrtU64_spec (h : value < 2 ^ 64) :
    value ≤ ceilSqrtU64 value * ceilSqrtU64 value ∧
      ∀ r, value ≤ r * r → ceilSqrtU64 value ≤ r := by
  have hle := Nat.sqrt_le value
  have hlt := Nat.lt_succ_sqrt value
  rw [ceilSqrtU64, floorSqrtU64_eq h]
  generalize Nat.sqrt value = s at hle hlt
  split_ifs with hsquare
  · -- the value is a square
    have heq : value = s * s := by
      rcases hsquare with rfl | ⟨-, hdiv, hmod⟩
      · exact (Nat.le_zero.1 hle).symm
      · have hdecomp := Nat.div_add_mod value s
        rw [hmod, ← hdiv, Nat.add_zero] at hdecomp
        exact hdecomp.symm
    exact ⟨heq.le, fun r hr => Nat.mul_self_le_mul_self_iff.1 (heq ▸ hr)⟩
  · refine ⟨hlt.le, fun r hr => ?_⟩
    by_contra hrs
    have hrr : r * r ≤ s * s := Nat.mul_self_le_mul_self (by omega)
    have heq : value = s * s := by omega
    refine hsquare ?_
    rcases Nat.eq_zero_or_pos s with rfl | hs
    · exact .inl heq
    · refine .inr ⟨hs.ne', ?_, ?_⟩
      · rw [heq, Nat.mul_div_cancel s hs]
      · rw [heq, Nat.mul_mod_right]

/-- The RMS error is the least integer whose square, times the samples, reaches the sum. -/
theorem rmsOf_spec {squaredError samples : ℕ} (h : squaredError < 2 ^ 64)
    (hzero : samples = 0 → squaredError = 0) :
    squaredError ≤ rmsOf squaredError samples * rmsOf squaredError samples * samples ∧
      ∀ r, squaredError ≤ r * r * samples → rmsOf squaredError samples ≤ r := by
  rcases Nat.eq_zero_or_pos samples with rfl | hpos
  · rw [hzero rfl]
    exact ⟨Nat.zero_le _, fun r _ => Nat.zero_le r⟩
  · have hdecomp := Nat.div_add_mod squaredError samples
    have hmod := Nat.mod_lt squaredError hpos
    -- the mean, rounded up
    have hmean : ∀ x, squaredError ≤ x * samples ↔
        (if squaredError % samples ≠ 0 then squaredError / samples + 1
          else squaredError / samples) ≤ x := by
      intro x
      generalize squaredError / samples = q at hdecomp
      generalize squaredError % samples = rest at hdecomp hmod
      have hup : ∀ y, y ≤ q → y * samples ≤ samples * q := by
        intro y hy
        rw [Nat.mul_comm]
        exact Nat.mul_le_mul_left samples hy
      have hdown : ∀ y, q ≤ y → samples * q ≤ y * samples := by
        intro y hy
        rw [Nat.mul_comm y]
        exact Nat.mul_le_mul_left samples hy
      split_ifs with hrest
      · constructor
        · intro hx
          by_contra hlt
          have := hup x (by omega)
          omega
        · intro hx
          obtain ⟨y, rfl⟩ := Nat.exists_eq_succ_of_ne_zero (by omega : x ≠ 0)
          have hnext := hdown y (by omega)
          rw [Nat.succ_mul]
          omega
      · rw [not_not] at hrest
        constructor
        · intro hx
          by_contra hlt
          have hnext := hup (x + 1) (by omega)
          rw [Nat.succ_mul] at hnext
          omega
        · intro hx
          have := hdown x hx
          omega
    have hle : squaredError / samples ≤ squaredError := Nat.div_le_self _ _
    have hlt : (if squaredError % samples ≠ 0 then squaredError / samples + 1
        else squaredError / samples) < 2 ^ 64 := by
      have hself := (hmean squaredError).1 (Nat.le_mul_of_pos_right _ hpos)
      omega
    obtain ⟨hreach, hleast⟩ := ceilSqrtU64_spec hlt
    rw [rmsOf, if_pos hpos.ne']
    exact ⟨(hmean _).2 hreach, fun r hr => hleast r ((hmean _).1 hr)⟩

end Roots

/-! ### Sums over pairs of samples -/

/-- The error of a pair. -/
def errorOf (p : ℤ × ℤ) : ℕ := (p.1 - p.2).natAbs

/-- The scaled samples of a pair. -/
def scaledOf (p : ℤ × ℤ) : ℤ × ℤ := (p.1.tdiv 256, p.2.tdiv 256)

/-- The exact sums over a sequence of pairs. -/
def totals (ps : List (ℤ × ℤ)) : Sums where
  squaredError := (ps.map fun p => errorOf p * errorOf p).sum
  actualEnergy := (ps.map fun p => ((scaledOf p).1 * (scaledOf p).1).toNat).sum
  referenceEnergy := (ps.map fun p => ((scaledOf p).2 * (scaledOf p).2).toNat).sum
  dotProduct := (ps.map fun p => (scaledOf p).1 * (scaledOf p).2).sum
  maxAbsError := (ps.map errorOf).foldl max 0

/-- A pair of 16-bit samples. -/
def InRange (p : ℤ × ℤ) : Prop :=
  (-32768 ≤ p.1 ∧ p.1 ≤ 32767) ∧ (-32768 ≤ p.2 ∧ p.2 ≤ 32767)

section Totals

variable {ps : List (ℤ × ℤ)} {p : ℤ × ℤ}

theorem InRange.error_le (h : InRange p) : errorOf p ≤ 65535 := by
  obtain ⟨⟨h₁, h₂⟩, h₃, h₄⟩ := h
  rw [errorOf]
  omega

theorem tdiv_bounds {x : ℤ} (h₁ : -32768 ≤ x) (h₂ : x ≤ 32767) :
    -128 ≤ x.tdiv 256 ∧ x.tdiv 256 ≤ 128 := by
  have hdecomp := Int.mul_tdiv_add_tmod x 256
  have hlt := Int.tmod_lt_of_pos x (by decide : (0 : ℤ) < 256)
  have hgt := Int.lt_tmod_of_pos x (by decide : (0 : ℤ) < 256)
  omega

theorem InRange.scaled (h : InRange p) :
    ((scaledOf p).1 * (scaledOf p).1).toNat ≤ 2 ^ 14 ∧
      ((scaledOf p).2 * (scaledOf p).2).toNat ≤ 2 ^ 14 ∧
      -2 ^ 14 ≤ (scaledOf p).1 * (scaledOf p).2 ∧ (scaledOf p).1 * (scaledOf p).2 ≤ 2 ^ 14 := by
  obtain ⟨⟨h₁, h₂⟩, h₃, h₄⟩ := h
  obtain ⟨ha₁, ha₂⟩ := tdiv_bounds h₁ h₂
  obtain ⟨hr₁, hr₂⟩ := tdiv_bounds h₃ h₄
  simp only [scaledOf]
  generalize p.1.tdiv 256 = a at ha₁ ha₂
  generalize p.2.tdiv 256 = r at hr₁ hr₂
  have hsquare : ∀ x : ℤ, -128 ≤ x → x ≤ 128 → x * x ≤ 2 ^ 14 := by
    intro x hx₁ hx₂
    nlinarith
  refine ⟨?_, ?_, ?_, ?_⟩
  · have := hsquare a ha₁ ha₂
    omega
  · have := hsquare r hr₁ hr₂
    omega
  · nlinarith
  · nlinarith

theorem totals_bounds (h : ∀ p ∈ ps, InRange p) :
    (totals ps).squaredError ≤ 65535 * 65535 * ps.length ∧
      (totals ps).actualEnergy ≤ 2 ^ 14 * ps.length ∧
      (totals ps).referenceEnergy ≤ 2 ^ 14 * ps.length ∧
      -(2 ^ 14 * ps.length : ℤ) ≤ (totals ps).dotProduct ∧
      (totals ps).dotProduct ≤ (2 ^ 14 * ps.length : ℤ) := by
  have hnat : ∀ (f : ℤ × ℤ → ℕ) (b : ℕ), (∀ p, InRange p → f p ≤ b) →
      (ps.map f).sum ≤ b * ps.length := by
    intro f b hf
    have hsum := List.sum_le_card_nsmul (ps.map f) b fun y hy => by
      obtain ⟨p, hp, rfl⟩ := List.mem_map.1 hy
      exact hf p (h p hp)
    rwa [List.length_map, nsmul_eq_mul, Nat.cast_id, Nat.mul_comm] at hsum
  refine ⟨hnat _ _ fun p hp => Nat.mul_le_mul hp.error_le hp.error_le,
    hnat _ _ fun p hp => hp.scaled.1, hnat _ _ fun p hp => hp.scaled.2.1, ?_, ?_⟩
  · have hsum := List.card_nsmul_le_sum (ps.map fun p => (scaledOf p).1 * (scaledOf p).2) (-2 ^ 14)
      fun y hy => by
        obtain ⟨p, hp, rfl⟩ := List.mem_map.1 hy
        exact (h p hp).scaled.2.2.1
    rw [List.length_map, nsmul_eq_mul] at hsum
    show _ ≤ (ps.map fun p => (scaledOf p).1 * (scaledOf p).2).sum
    linarith
  · have hsum := List.sum_le_card_nsmul (ps.map fun p => (scaledOf p).1 * (scaledOf p).2) (2 ^ 14)
      fun y hy => by
        obtain ⟨p, hp, rfl⟩ := List.mem_map.1 hy
        exact (h p hp).scaled.2.2.2
    rw [List.length_map, nsmul_eq_mul] at hsum
    show (ps.map fun p => (scaledOf p).1 * (scaledOf p).2).sum ≤ _
    linarith

theorem checkedAddU64_eq {left right : ℕ} (h : left + right ≤ uint64Max) :
    checkedAddU64 left right = .ok (left + right) :=
  if_neg (by omega)

theorem checkedAddI64_eq {left right : ℤ} (h₁ : int64Min ≤ left + right)
    (h₂ : left + right ≤ int64Max) : checkedAddI64 left right = .ok (left + right) := by
  refine if_neg ?_
  rintro (⟨-, h⟩ | ⟨-, h⟩)
  · omega
  · omega

theorem totals_append_singleton (ps : List (ℤ × ℤ)) (p : ℤ × ℤ) :
    totals (ps ++ [p]) =
      ⟨(totals ps).squaredError + errorOf p * errorOf p,
        (totals ps).actualEnergy + ((scaledOf p).1 * (scaledOf p).1).toNat,
        (totals ps).referenceEnergy + ((scaledOf p).2 * (scaledOf p).2).toNat,
        (totals ps).dotProduct + (scaledOf p).1 * (scaledOf p).2,
        max (totals ps).maxAbsError (errorOf p)⟩ := by
  simp [totals, List.map_append, List.sum_append, List.foldl_append]

theorem addPair_totals (h : ∀ q ∈ ps ++ [p], InRange q) (hlen : (ps ++ [p]).length ≤ uint32Max) :
    addPair (totals ps) p.1 p.2 = .ok (totals (ps ++ [p])) := by
  obtain ⟨herror, hactual, hreference, hdot₁, hdot₂⟩ := totals_bounds h
  rw [totals_append_singleton] at herror hactual hreference hdot₁ hdot₂ ⊢
  dsimp only at herror hactual hreference hdot₁ hdot₂
  have hmax : (if errorOf p > (totals ps).maxAbsError then errorOf p else (totals ps).maxAbsError) =
      max (totals ps).maxAbsError (errorOf p) := by
    split_ifs <;> omega
  have huint : (uint64Max : ℕ) = 2 ^ 64 - 1 := rfl
  have huint32 : (uint32Max : ℕ) = 2 ^ 32 - 1 := rfl
  have hint₁ : (int64Max : ℤ) = 2 ^ 63 - 1 := rfl
  have hint₂ : (int64Min : ℤ) = -2 ^ 63 := rfl
  show (do
    let squaredError ← checkedAddU64 (totals ps).squaredError (errorOf p * errorOf p)
    let actualEnergy ← checkedAddU64 (totals ps).actualEnergy
      ((scaledOf p).1 * (scaledOf p).1).toNat
    let referenceEnergy ← checkedAddU64 (totals ps).referenceEnergy
      ((scaledOf p).2 * (scaledOf p).2).toNat
    let dotProduct ← checkedAddI64 (totals ps).dotProduct ((scaledOf p).1 * (scaledOf p).2)
    return (⟨squaredError, actualEnergy, referenceEnergy, dotProduct,
      if errorOf p > (totals ps).maxAbsError then errorOf p else (totals ps).maxAbsError⟩ : Sums)) =
    _
  rw [hmax, checkedAddU64_eq (by omega), checkedAddU64_eq (by omega), checkedAddU64_eq (by omega),
    checkedAddI64_eq (by omega) (by omega)]
  rfl

theorem accumulateLoop_totals (pair : ℕ → ℤ × ℤ) {i k : ℕ}
    (h : ∀ q ∈ ps ++ (List.range' i k).map pair, InRange q)
    (hlen : (ps ++ (List.range' i k).map pair).length ≤ uint32Max) :
    accumulateLoop pair i k (totals ps) = .ok (totals (ps ++ (List.range' i k).map pair)) := by
  induction k generalizing i ps with
  | zero => rw [List.range'_zero, List.map_nil, List.append_nil, accumulateLoop]
  | succ k ih =>
    have hsplit : ps ++ (List.range' i (k + 1)).map pair =
        (ps ++ [pair i]) ++ (List.range' (i + 1) k).map pair := by
      rw [List.range'_succ, List.map_cons, List.append_assoc, List.singleton_append]
    rw [hsplit] at h hlen ⊢
    have hfirst : addPair (totals ps) (pair i).1 (pair i).2 = .ok (totals (ps ++ [pair i])) := by
      refine addPair_totals (fun q hq => h q (List.mem_append_left _ hq)) ?_
      rw [List.length_append] at hlen
      omega
    rw [accumulateLoop, hfirst]
    exact ih h hlen

end Totals

/-! ### Calls -/

section Calls

variable {sizeMax : ℕ} {o : Oracle} {ps : List (ℤ × ℤ)} {c : Call}

/-- The pairs of a call, with offsets as the code computes them. -/
def pairsAt (sizeMax : ℕ) (c : Call) : List (ℤ × ℤ) :=
  match c.actual, c.reference with
  | some actual, some reference => (List.range' 0 c.sampleCount).map
      (pairAt sizeMax actual c.actualStride reference c.referenceByteStride)
  | _, _ => []

/-- The oracle has seen these pairs. -/
structure Holds (o : Oracle) (ps : List (ℤ × ℤ)) : Prop where
  sums : (⟨o.squaredError, o.actualEnergyScaled, o.referenceEnergyScaled, o.dotProductScaled,
    o.maxAbsError⟩ : Sums) = totals ps
  samples : o.samples = ps.length
  frames : o.frames ≤ o.samples
  inRange : ∀ p ∈ ps, InRange p
  count : ps.length ≤ uint32Max

theorem Holds.init : Holds Oracle.init [] :=
  ⟨rfl, rfl, Nat.le_refl 0, fun _ hp => absurd hp List.not_mem_nil, Nat.zero_le _⟩

theorem decodeLe16_bounds (b₀ b₁ : UInt8) :
    -32768 ≤ decodeLe16 b₀ b₁ ∧ decodeLe16 b₀ b₁ ≤ 32767 := by
  have hlt : b₀.toNat ||| b₁.toNat <<< 8 < 2 ^ 16 := by
    have h₀ := b₀.toNat_lt
    have h₁ := b₁.toNat_lt
    refine Nat.or_lt_two_pow (by omega) ?_
    rw [Nat.shiftLeft_eq]
    omega
  unfold decodeLe16
  generalize b₀.toNat ||| b₁.toNat <<< 8 = value at hlt
  dsimp only
  split_ifs <;> omega

theorem inRange_pairsAt : ∀ p ∈ pairsAt sizeMax c, InRange p := by
  intro p hp
  rw [pairsAt] at hp
  split at hp
  · rename_i actual reference _ _
    obtain ⟨i, -, rfl⟩ := List.mem_map.1 hp
    have hlt := (actual (i * c.actualStride % (sizeMax + 1))).toInt_lt
    have hge := (actual (i * c.actualStride % (sizeMax + 1))).le_toInt
    exact ⟨⟨by simpa [pairAt] using hge, by simp only [pairAt]; omega⟩, decodeLe16_bounds _ _⟩
  · cases hp

/-- What a call stores for new sums. -/
def stored (o : Oracle) (c : Call) (s : Sums) : Oracle :=
  { squaredError := s.squaredError, actualEnergyScaled := s.actualEnergy
    referenceEnergyScaled := s.referenceEnergy, dotProductScaled := s.dotProduct
    samples := o.samples + c.sampleCount, frames := o.frames + 1, maxAbsError := s.maxAbsError }

/-- The arguments and the counters let the call come to its loop. -/
structure Admitted (sizeMax : ℕ) (o : Oracle) (c : Call) : Prop where
  count : c.sampleCount ≠ 0
  strides : c.actualStride ≠ 0 ∧ c.referenceByteStride ≠ 0
  samples : o.samples ≤ uint32Max - c.sampleCount
  frames : o.frames ≠ uint32Max
  offsets : c.sampleCount - 1 ≤ sizeMax / c.actualStride ∧
    c.sampleCount - 1 ≤ (sizeMax - 1) / c.referenceByteStride

theorem accumulate_cases (sizeMax : ℕ) (o : Oracle) (c : Call) :
    (∃ err, accumulate sizeMax o c = (err, o)) ∨
    ∃ actual reference s, c.actual = some actual ∧ c.reference = some reference ∧
      Admitted sizeMax o c ∧
      accumulateLoop (pairAt sizeMax actual c.actualStride reference c.referenceByteStride) 0
        c.sampleCount ⟨o.squaredError, o.actualEnergyScaled, o.referenceEnergyScaled,
          o.dotProductScaled, o.maxAbsError⟩ = .ok s ∧
      accumulate sizeMax o c = (0, stored o c s) := by
  unfold accumulate
  cases c.actual with
  | none => exact .inl ⟨_, rfl⟩
  | some actual =>
    cases c.reference with
    | none => exact .inl ⟨_, rfl⟩
    | some reference =>
      dsimp only
      split_ifs with hargs hcounters hoffsets
      · exact .inl ⟨_, rfl⟩
      · exact .inl ⟨_, rfl⟩
      · exact .inl ⟨_, rfl⟩
      · simp only [not_or, not_lt] at hargs hcounters hoffsets
        cases hloop : accumulateLoop
          (pairAt sizeMax actual c.actualStride reference c.referenceByteStride) 0 c.sampleCount
          ⟨o.squaredError, o.actualEnergyScaled, o.referenceEnergyScaled, o.dotProductScaled,
            o.maxAbsError⟩ with
        | error err => exact .inl ⟨err, rfl⟩
        | ok s =>
          exact .inr ⟨actual, reference, s, rfl, rfl,
            ⟨hargs.1, hargs.2, hcounters.1, hcounters.2, hoffsets⟩, hloop, rfl⟩

/-- **A call that fails leaves the oracle unchanged.** -/
theorem accumulate_error (h : (accumulate sizeMax o c).1 ≠ 0) : (accumulate sizeMax o c).2 = o := by
  rcases accumulate_cases sizeMax o c with ⟨err, herr⟩ | ⟨_, _, s, _, _, _, _, hok⟩
  · rw [herr]
  · rw [hok] at h
    exact absurd rfl h

/-- The pairs of a call whose offsets fit. -/
def pairsOf (c : Call) : List (ℤ × ℤ) :=
  match c.actual, c.reference with
  | some actual, some reference => (List.range c.sampleCount).map fun i =>
      ((actual (i * c.actualStride)).toInt,
        decodeLe16 (reference (i * c.referenceByteStride))
          (reference (i * c.referenceByteStride + 1)))
  | _, _ => []

/-- Buffers, strides other than zero, and offsets that fit `size_t`. -/
structure Call.Fits (sizeMax : ℕ) (c : Call) : Prop where
  actual : c.actual ≠ none
  reference : c.reference ≠ none
  strides : c.actualStride ≠ 0 ∧ c.referenceByteStride ≠ 0
  actualOffset : (c.sampleCount - 1) * c.actualStride ≤ sizeMax
  referenceOffset : (c.sampleCount - 1) * c.referenceByteStride + 1 ≤ sizeMax

theorem pairsAt_eq (h : c.Fits sizeMax) : pairsAt sizeMax c = pairsOf c := by
  rw [pairsAt, pairsOf]
  split
  · rw [← List.range_eq_range']
    apply List.map_congr_left
    intro i hi
    have hi := List.mem_range.1 hi
    have hmul : ∀ stride, i * stride ≤ (c.sampleCount - 1) * stride :=
      fun stride => Nat.mul_le_mul_right stride (by omega)
    have hactual := (hmul c.actualStride).trans h.actualOffset
    have hreference := (hmul c.referenceByteStride).trans
      ((Nat.le_succ _).trans h.referenceOffset)
    rw [pairAt, Nat.mod_eq_of_lt (Nat.lt_succ_of_le hactual),
      Nat.mod_eq_of_lt (Nat.lt_succ_of_le hreference)]
  · rfl

theorem length_pairsOf (h : c.Fits sizeMax) : (pairsOf c).length = c.sampleCount := by
  obtain ⟨actual, hactual⟩ := Option.ne_none_iff_exists'.1 h.actual
  obtain ⟨reference, hreference⟩ := Option.ne_none_iff_exists'.1 h.reference
  rw [pairsOf, hactual, hreference]
  simp

/-- The loop of a call on an oracle that has seen pairs. -/
theorem Holds.loop (sizeMax : ℕ) (h : Holds o ps) {actual : ℕ → Int16} {reference : ℕ → UInt8}
    (hactual : c.actual = some actual) (hreference : c.reference = some reference)
    (hcount : c.sampleCount ≠ 0) (hlen : ps.length + c.sampleCount ≤ uint32Max) :
    accumulateLoop (pairAt sizeMax actual c.actualStride reference c.referenceByteStride) 0
      c.sampleCount ⟨o.squaredError, o.actualEnergyScaled, o.referenceEnergyScaled,
        o.dotProductScaled, o.maxAbsError⟩ = .ok (totals (ps ++ pairsAt sizeMax c)) ∧
      Holds (stored o c (totals (ps ++ pairsAt sizeMax c))) (ps ++ pairsAt sizeMax c) := by
  have hpairs : pairsAt sizeMax c = (List.range' 0 c.sampleCount).map
      (pairAt sizeMax actual c.actualStride reference c.referenceByteStride) := by
    rw [pairsAt, hactual, hreference]
  have hlength : (ps ++ pairsAt sizeMax c).length = ps.length + c.sampleCount := by
    rw [List.length_append, hpairs, List.length_map, List.length_range']
  have hrange : ∀ q ∈ ps ++ pairsAt sizeMax c, InRange q := by
    intro q hq
    rcases List.mem_append.1 hq with hq | hq
    · exact h.inRange q hq
    · exact inRange_pairsAt q hq
  constructor
  · rw [h.sums, hpairs]
    rw [hpairs] at hrange hlength
    exact accumulateLoop_totals _ hrange (by omega)
  · have hsamples := h.samples
    have hframes := h.frames
    refine ⟨rfl, ?_, ?_, hrange, by omega⟩
    · show o.samples + c.sampleCount = _
      omega
    · show o.frames + 1 ≤ o.samples + c.sampleCount
      omega

theorem Holds.accumulate (h : Holds o ps) (c : Call) :
    (∃ err, PcmOracle.accumulate sizeMax o c = (err, o)) ∨
      Holds (PcmOracle.accumulate sizeMax o c).2 (ps ++ pairsAt sizeMax c) := by
  rcases accumulate_cases sizeMax o c with herr | ⟨actual, reference, s, hactual, hreference,
    hadmitted, hloop, hok⟩
  · exact .inl herr
  · have hlen : ps.length + c.sampleCount ≤ uint32Max := by
      have := hadmitted.samples
      have := h.samples
      have := c.sampleCount_le
      omega
    obtain ⟨hloop', hholds⟩ := h.loop sizeMax hactual hreference hadmitted.count hlen
    obtain rfl := Except.ok.inj (hloop.symm.trans hloop')
    rw [hok]
    exact .inr hholds

theorem Holds.accumulate_eq (h : Holds o ps) (hc : c.Fits sizeMax)
    (hlen : ps.length + c.sampleCount ≤ uint32Max) :
    (PcmOracle.accumulate sizeMax o c).1 = (if c.sampleCount = 0 then -einval else 0) ∧
      Holds (PcmOracle.accumulate sizeMax o c).2 (ps ++ pairsOf c) := by
  obtain ⟨actual, hactual⟩ := Option.ne_none_iff_exists'.1 hc.actual
  obtain ⟨reference, hreference⟩ := Option.ne_none_iff_exists'.1 hc.reference
  have hpairs := length_pairsOf hc
  rw [← pairsAt_eq hc] at hpairs ⊢
  unfold PcmOracle.accumulate
  rw [hactual, hreference]
  dsimp only
  by_cases hzero : c.sampleCount = 0
  · -- a call without samples is refused
    rw [hzero] at hpairs
    rw [if_pos (.inl hzero), if_pos hzero, List.length_eq_zero_iff.1 hpairs, List.append_nil]
    exact ⟨rfl, h⟩
  · obtain ⟨hloop, hholds⟩ := h.loop sizeMax hactual hreference hzero hlen
    have hsamples := h.samples
    have hframes := h.frames
    have hoffset : ∀ {n stride : ℕ}, stride ≠ 0 → (c.sampleCount - 1) * stride ≤ n →
        ¬ c.sampleCount - 1 > n / stride := by
      intro n stride hstride hle
      exact not_lt.2 ((Nat.le_div_iff_mul_le (Nat.pos_of_ne_zero hstride)).2 hle)
    have hreferenceOffset := hc.referenceOffset
    rw [if_neg (by simp [hzero, hc.strides]), if_neg (by omega),
      if_neg (not_or.2 ⟨hoffset hc.strides.1 hc.actualOffset, hoffset hc.strides.2 (by omega)⟩),
      hloop, if_neg hzero]
    exact ⟨rfl, hholds⟩

/-- Any calls leave an oracle that has seen some pairs. -/
theorem Holds.run (h : Holds o ps) (calls : List Call) :
    ∃ qs, Holds (PcmOracle.run sizeMax o calls).2 qs := by
  induction calls generalizing o ps with
  | nil => exact ⟨ps, h⟩
  | cons c calls ih =>
    rcases h.accumulate c with ⟨err, herr⟩ | hholds
    · rw [PcmOracle.run, herr]
      exact ih h
    · rw [PcmOracle.run]
      exact ih hholds

/-- Calls that fit, with room in the counter for their samples. -/
theorem Holds.run_eq (h : Holds o ps) {calls : List Call} (hcalls : ∀ c ∈ calls, c.Fits sizeMax)
    (hlen : ps.length + (calls.map Call.sampleCount).sum ≤ uint32Max) :
    (PcmOracle.run sizeMax o calls).1 =
        calls.map (fun c => if c.sampleCount = 0 then -einval else 0) ∧
      Holds (PcmOracle.run sizeMax o calls).2 (ps ++ calls.flatMap pairsOf) := by
  induction calls generalizing o ps with
  | nil =>
    rw [List.flatMap_nil, List.append_nil]
    exact ⟨rfl, h⟩
  | cons c calls ih =>
    have hc := hcalls c List.mem_cons_self
    rw [List.map_cons, List.sum_cons] at hlen
    obtain ⟨herr, hholds⟩ := h.accumulate_eq hc (by omega)
    obtain ⟨herrs, hlast⟩ := ih hholds (fun c' hc' => hcalls c' (List.mem_cons_of_mem c hc'))
      (by rw [List.length_append, length_pairsOf hc]; omega)
    rw [List.flatMap_cons, ← List.append_assoc, List.map_cons, ← herr, ← herrs]
    exact ⟨rfl, hlast⟩

end Calls

/-! ### Metrics -/

section Metrics

variable {o : Oracle} {ps : List (ℤ × ℤ)}

theorem Holds.bounds (h : Holds o ps) :
    o.squaredError ≤ 65535 * 65535 * o.samples ∧ o.samples ≤ uint32Max ∧
      o.actualEnergyScaled ≤ 2 ^ 14 * o.samples ∧ o.referenceEnergyScaled ≤ 2 ^ 14 * o.samples ∧
      -(2 ^ 14 * o.samples : ℤ) ≤ o.dotProductScaled ∧
      o.dotProductScaled ≤ (2 ^ 14 * o.samples : ℤ) := by
  obtain ⟨herror, hactual, hreference, hdot₁, hdot₂⟩ := totals_bounds h.inRange
  rw [← h.sums, ← h.samples] at herror hactual hreference hdot₁ hdot₂
  exact ⟨herror, h.samples ▸ h.count, hactual, hreference, hdot₁, hdot₂⟩

theorem Holds.rmsOf_spec (h : Holds o ps) :
    o.squaredError ≤ rmsOf o.squaredError o.samples * rmsOf o.squaredError o.samples * o.samples ∧
      ∀ r, o.squaredError ≤ r * r * o.samples → rmsOf o.squaredError o.samples ≤ r := by
  obtain ⟨herror, hsamples, -⟩ := h.bounds
  have huint32 : (uint32Max : ℕ) = 2 ^ 32 - 1 := rfl
  refine PcmOracle.rmsOf_spec (by omega) fun hzero => ?_
  rw [hzero] at herror
  omega

theorem sqrt_energy {energy samples : ℕ} (hle : energy ≤ 2 ^ 14 * samples)
    (hsamples : samples ≤ uint32Max) (hne : energy ≠ 0) :
    floorSqrtU64 energy = Nat.sqrt energy ∧ 0 < Nat.sqrt energy ∧ Nat.sqrt energy < 2 ^ 23 := by
  have huint32 : (uint32Max : ℕ) = 2 ^ 32 - 1 := rfl
  refine ⟨floorSqrtU64_eq (by omega), Nat.sqrt_pos.2 (Nat.pos_of_ne_zero hne), ?_⟩
  rw [Nat.sqrt_lt']
  omega

theorem Holds.correlationOf_eq (h : Holds o ps) (hactual : o.actualEnergyScaled ≠ 0)
    (hreference : o.referenceEnergyScaled ≠ 0) :
    correlationOf o.actualEnergyScaled o.referenceEnergyScaled o.dotProductScaled =
      .ok (max (-32768) (min 32767 ((o.dotProductScaled * 32768).tdiv
        (Nat.sqrt o.actualEnergyScaled * Nat.sqrt o.referenceEnergyScaled : ℕ)))) := by
  obtain ⟨-, hsamples, ha, hr, hdot₁, hdot₂⟩ := h.bounds
  obtain ⟨hsqrtA, hposA, hltA⟩ := sqrt_energy ha hsamples hactual
  obtain ⟨hsqrtR, hposR, hltR⟩ := sqrt_energy hr hsamples hreference
  have huint32 : (uint32Max : ℕ) = 2 ^ 32 - 1 := rfl
  rw [correlationOf, hsqrtA, hsqrtR]
  dsimp only
  generalize Nat.sqrt o.actualEnergyScaled = a at hposA hltA
  generalize Nat.sqrt o.referenceEnergyScaled = r at hposR hltR
  have hproduct : a * r < 2 ^ 23 * 2 ^ 23 := Nat.mul_lt_mul'' hltA hltR
  have hfits : ¬ a > uint64Max / r := by
    rw [not_lt, Nat.le_div_iff_mul_le hposR, uint64Max]
    omega
  have hdenominator : ¬ ((a * r : ℕ) : ℤ) > int64Max := by
    rw [int64Max]
    omega
  have hdot : ¬(o.dotProductScaled > int64Max.tdiv 32768 ∨
      o.dotProductScaled < int64Min.tdiv 32768) := by
    have h₁ : int64Max.tdiv 32768 = 2 ^ 48 - 1 := by decide
    have h₂ : int64Min.tdiv 32768 = -2 ^ 48 := by decide
    rw [h₁, h₂]
    omega
  rw [if_neg (by omega), if_neg hdenominator, if_neg hdot]
  split_ifs with hhigh hlow
  · congr 1
    omega
  · congr 1
    omega
  · congr 1
    omega

/-- **The metrics of an oracle.**  `pcm_oracle_finalize` does not fail. -/
theorem Holds.finalize (h : Holds o ps) : ∃ m, PcmOracle.finalize o = .ok m ∧
    m.rmsError = rmsOf o.squaredError o.samples ∧
    m.actualEnergyScaled = o.actualEnergyScaled ∧
    m.referenceEnergyScaled = o.referenceEnergyScaled ∧
    m.dotProductScaled = o.dotProductScaled ∧
    (o.actualEnergyScaled ≠ 0 → o.referenceEnergyScaled ≠ 0 →
      correlationOf o.actualEnergyScaled o.referenceEnergyScaled o.dotProductScaled =
        .ok m.correlationQ15) := by
  have hrms : ¬ rmsOf o.squaredError o.samples > uint32Max := by
    have hleast := h.rmsOf_spec.2 65535 h.bounds.1
    have huint32 : (uint32Max : ℕ) = 2 ^ 32 - 1 := rfl
    omega
  unfold PcmOracle.finalize
  dsimp only
  rw [if_neg hrms]
  split_ifs with hzero
  · exact ⟨_, rfl, rfl, rfl, rfl, rfl, fun ha hr => absurd hzero (by simp [ha, hr])⟩
  · rw [not_or] at hzero
    rw [h.correlationOf_eq hzero.1 hzero.2]
    exact ⟨_, rfl, rfl, rfl, rfl, rfl, fun _ _ => rfl⟩

end Metrics

/-- **The oracle is exact.**  Calls that fit, with at most `UINT32_MAX` samples together, never
overflow: the sums are those of all pairs in a row, however they are split into calls, and within
their types.  The metrics exist, with the least RMS error that is not below the mean square.  And a
call that fails, of any kind and on any oracle, changes nothing. -/
theorem run_exact {sizeMax : ℕ} {calls : List Call} (hcalls : ∀ c ∈ calls, c.Fits sizeMax)
    (hcount : (calls.map Call.sampleCount).sum ≤ uint32Max) :
    (∀ err ∈ (run sizeMax Oracle.init calls).1, err ≠ -eoverflow) ∧
    (∃ o, (run sizeMax Oracle.init calls).2 = o ∧
      (⟨o.squaredError, o.actualEnergyScaled, o.referenceEnergyScaled, o.dotProductScaled,
        o.maxAbsError⟩ : Sums) = totals (calls.flatMap pairsOf) ∧
      o.samples = (calls.flatMap pairsOf).length ∧
      (o.squaredError ≤ uint64Max ∧ o.actualEnergyScaled ≤ uint64Max ∧
        o.referenceEnergyScaled ≤ uint64Max ∧ int64Min ≤ o.dotProductScaled * 32768 ∧
        o.dotProductScaled * 32768 ≤ int64Max) ∧
      ∃ m, finalize o = .ok m ∧ o.squaredError ≤ m.rmsError * m.rmsError * o.samples ∧
        ∀ r, o.squaredError ≤ r * r * o.samples → m.rmsError ≤ r) ∧
    ∀ (o : Oracle) (c : Call), (accumulate sizeMax o c).1 ≠ 0 → (accumulate sizeMax o c).2 = o := by
  have huint64 : (uint64Max : ℕ) = 2 ^ 64 - 1 := rfl
  have huint32 : (uint32Max : ℕ) = 2 ^ 32 - 1 := rfl
  have hint₁ : (int64Max : ℤ) = 2 ^ 63 - 1 := rfl
  have hint₂ : (int64Min : ℤ) = -2 ^ 63 := rfl
  obtain ⟨herrs, h⟩ := Holds.init.run_eq hcalls (by simpa using hcount)
  rw [List.nil_append] at h
  refine ⟨?_, ⟨_, rfl, h.sums, h.samples, ?_, ?_⟩, fun o c => accumulate_error⟩
  · rw [herrs]
    intro err herr
    obtain ⟨c, -, rfl⟩ := List.mem_map.1 herr
    split_ifs <;> decide
  · obtain ⟨herror, hsamples, hactual, hreference, hdot₁, hdot₂⟩ := h.bounds
    exact ⟨by omega, by omega, by omega, by omega, by omega⟩
  · obtain ⟨m, hm, hrms, -⟩ := h.finalize
    obtain ⟨hreach, hleast⟩ := h.rmsOf_spec
    exact ⟨m, hm, by rw [hrms]; exact hreach, fun r hr => by rw [hrms]; exact hleast r hr⟩

/-- Two calls, of two samples and of one, on a reference that holds 512 throughout: the errors are
512, 256 and 2, and no energy is zero. -/
theorem run_exact_three :
    ∃ o, (run 65535 Oracle.init
        [⟨some fun i => if i = 0 then 1024 else 768, 1, some fun i => if i % 2 = 1 then 2 else 0, 2,
            2, by decide⟩,
          ⟨some fun _ => 514, 1, some fun i => if i % 2 = 1 then 2 else 0, 2, 1, by decide⟩]).2 =
          o ∧
      o.samples = 3 ∧ (o.squaredError, o.actualEnergyScaled, o.referenceEnergyScaled) =
        (327684, 29, 12) ∧ o.dotProductScaled = 18 ∧
      ∃ m, finalize o = .ok m ∧ o.squaredError ≤ m.rmsError * m.rmsError * o.samples ∧
        ∀ r, o.squaredError ≤ r * r * o.samples → m.rmsError ≤ r := by
  obtain ⟨-, ⟨o, ho, hsums, hsamples, -, hfinalize⟩, -⟩ := @run_exact 65535
    [⟨some fun i => if i = 0 then 1024 else 768, 1, some fun i => if i % 2 = 1 then 2 else 0, 2,
        2, by decide⟩,
      ⟨some fun _ => 514, 1, some fun i => if i % 2 = 1 then 2 else 0, 2, 1, by decide⟩]
    (by
      intro c hc
      simp only [List.mem_cons, List.not_mem_nil, or_false] at hc
      rcases hc with rfl | rfl
      · exact ⟨by simp, by simp, by simp, by decide, by decide⟩
      · exact ⟨by simp, by simp, by simp, by decide, by decide⟩)
    (by decide)
  obtain ⟨herror, hactual, hreference, hdot, -⟩ := Sums.mk.inj hsums
  refine ⟨o, ho, hsamples, ?_, hdot, hfinalize⟩
  rw [herror, hactual, hreference]
  rfl

end PcmOracle

end LeAudioReceiver
