import Mathlib.Algebra.Order.Ring.Int
import Mathlib.Data.Int.Notation
import Mathlib.Data.List.Basic
import Mathlib.Data.UInt
import Mathlib.Tactic.Common

/-!
# The PCM oracle

A model of `tests/support/pcm_oracle.c`, which compares decoded samples with references through
integer sums.  Counters and sums are numbers, with the checks of the code against the bounds of
their types; a buffer is a function from offsets, and `sizeMax` is the largest offset.
-/

namespace LeAudioReceiver

namespace PcmOracle

/-- `EINVAL`. -/
def einval : ℤ := 22

/-- `EOVERFLOW`. -/
def eoverflow : ℤ := 75

/-- `UINT64_MAX`. -/
def uint64Max : ℕ := 2 ^ 64 - 1

/-- `INT64_MAX`. -/
def int64Max : ℤ := 2 ^ 63 - 1

/-- `INT64_MIN`. -/
def int64Min : ℤ := -2 ^ 63

/-- `UINT32_MAX`. -/
def uint32Max : ℕ := 2 ^ 32 - 1

/-! ### Arithmetic -/

/-- `checked_add_u64`. -/
def checkedAddU64 (left right : ℕ) : Except ℤ ℕ :=
  if left > uint64Max - right then .error (-eoverflow) else .ok (left + right)

/-- `checked_add_i64`. -/
def checkedAddI64 (left right : ℤ) : Except ℤ ℤ :=
  if (right > 0 ∧ left > int64Max - right) ∨ (right < 0 ∧ left < int64Min - right) then
    .error (-eoverflow)
  else .ok (left + right)

/-- `decode_le16`. -/
def decodeLe16 (b₀ b₁ : UInt8) : ℤ :=
  let value : ℤ := (b₀.toNat ||| b₁.toNat <<< 8 : ℕ)
  if value ≥ 0x8000 then value - 0x10000 else value

/-- The loop of `floor_sqrt_u64`. -/
def floorSqrtLoop (value low high : ℕ) : ℕ :=
  if low < high then
    let middle := low + (high - low + 1) / 2
    if middle ≤ value / middle then floorSqrtLoop value middle high
    else floorSqrtLoop value low (middle - 1)
  else low
termination_by high - low
decreasing_by all_goals omega

/-- `floor_sqrt_u64`. -/
def floorSqrtU64 (value : ℕ) : ℕ := floorSqrtLoop value 0 (2 ^ 32)

/-- `ceil_sqrt_u64`. -/
def ceilSqrtU64 (value : ℕ) : ℕ :=
  let floor := floorSqrtU64 value
  if value = 0 ∨ (floor ≠ 0 ∧ floor = value / floor ∧ value % floor = 0) then floor else floor + 1

/-! ### The oracle -/

/-- `struct pcm_oracle`. -/
structure Oracle where
  squaredError : ℕ
  actualEnergyScaled : ℕ
  referenceEnergyScaled : ℕ
  dotProductScaled : ℤ
  samples : ℕ
  frames : ℕ
  maxAbsError : ℕ
  deriving DecidableEq, Repr

/-- `pcm_oracle_init`. -/
def Oracle.init : Oracle := ⟨0, 0, 0, 0, 0, 0, 0⟩

/-- The sums that a call of `pcm_oracle_accumulate` keeps until it stores them. -/
structure Sums where
  squaredError : ℕ
  actualEnergy : ℕ
  referenceEnergy : ℕ
  dotProduct : ℤ
  maxAbsError : ℕ
  deriving DecidableEq, Repr

/-- The arguments of `pcm_oracle_accumulate` beside the oracle; `none` is a null pointer. -/
structure Call where
  actual : Option (ℕ → Int16)
  actualStride : ℕ
  reference : Option (ℕ → UInt8)
  referenceByteStride : ℕ
  sampleCount : ℕ
  sampleCount_le : sampleCount ≤ uint32Max

/-- The body of the loop of `pcm_oracle_accumulate`. -/
def addPair (s : Sums) (actual referenceSample : ℤ) : Except ℤ Sums := do
  let difference := actual - referenceSample
  let absoluteDifference := difference.natAbs
  let errorSquare := absoluteDifference * absoluteDifference
  let actualScaled := actual.tdiv 256
  let referenceScaled := referenceSample.tdiv 256
  let actualSquare := (actualScaled * actualScaled).toNat
  let referenceSquare := (referenceScaled * referenceScaled).toNat
  let sampleDot := actualScaled * referenceScaled
  let squaredError ← checkedAddU64 s.squaredError errorSquare
  let actualEnergy ← checkedAddU64 s.actualEnergy actualSquare
  let referenceEnergy ← checkedAddU64 s.referenceEnergy referenceSquare
  let dotProduct ← checkedAddI64 s.dotProduct sampleDot
  let maxAbsError :=
    if absoluteDifference > s.maxAbsError then absoluteDifference else s.maxAbsError
  return ⟨squaredError, actualEnergy, referenceEnergy, dotProduct, maxAbsError⟩

section Accumulate

variable (sizeMax : ℕ)

/-- The actual sample and the reference sample at an index. -/
def pairAt (actual : ℕ → Int16) (actualStride : ℕ) (reference : ℕ → UInt8)
    (referenceByteStride sampleIndex : ℕ) : ℤ × ℤ :=
  let actualOffset := sampleIndex * actualStride % (sizeMax + 1)
  let referenceOffset := sampleIndex * referenceByteStride % (sizeMax + 1)
  ((actual actualOffset).toInt,
    decodeLe16 (reference referenceOffset) (reference (referenceOffset + 1)))

/-- The loop of `pcm_oracle_accumulate`, with `k` samples left. -/
def accumulateLoop (pair : ℕ → ℤ × ℤ) : ℕ → ℕ → Sums → Except ℤ Sums
  | _, 0, s => .ok s
  | sampleIndex, k + 1, s => do
    let s ← addPair s (pair sampleIndex).1 (pair sampleIndex).2
    accumulateLoop pair (sampleIndex + 1) k s

/-- `pcm_oracle_accumulate`: its result, and the oracle behind it. -/
def accumulate (oracle : Oracle) (c : Call) : ℤ × Oracle :=
  match c.actual, c.reference with
  | some actual, some reference =>
    if c.sampleCount = 0 ∨ c.actualStride = 0 ∨ c.referenceByteStride = 0 then (-einval, oracle)
    else if oracle.samples > uint32Max - c.sampleCount ∨ oracle.frames = uint32Max then
      (-eoverflow, oracle)
    else if c.sampleCount - 1 > sizeMax / c.actualStride ∨
        c.sampleCount - 1 > (sizeMax - 1) / c.referenceByteStride then (-eoverflow, oracle)
    else
      let sums : Sums := ⟨oracle.squaredError, oracle.actualEnergyScaled,
        oracle.referenceEnergyScaled, oracle.dotProductScaled, oracle.maxAbsError⟩
      let pair := pairAt sizeMax actual c.actualStride reference c.referenceByteStride
      match accumulateLoop pair 0 c.sampleCount sums with
      | .error err => (err, oracle)
      | .ok s =>
        (0, { squaredError := s.squaredError, actualEnergyScaled := s.actualEnergy
              referenceEnergyScaled := s.referenceEnergy, dotProductScaled := s.dotProduct
              samples := oracle.samples + c.sampleCount, frames := oracle.frames + 1
              maxAbsError := s.maxAbsError })
  | _, _ => (-einval, oracle)

/-- The results of a sequence of calls, and the oracle behind them. -/
def run (oracle : Oracle) : List Call → List ℤ × Oracle
  | [] => ([], oracle)
  | c :: calls =>
    let (err, next) := accumulate sizeMax oracle c
    let (errs, last) := run next calls
    (err :: errs, last)

end Accumulate

/-! ### Metrics and verdicts -/

/-- `struct pcm_oracle_metrics`. -/
structure Metrics where
  squaredError : ℕ
  actualEnergyScaled : ℕ
  referenceEnergyScaled : ℕ
  dotProductScaled : ℤ
  samples : ℕ
  frames : ℕ
  maxAbsError : ℕ
  rmsError : ℕ
  correlationQ15 : ℤ
  deriving DecidableEq, Repr

/-- `struct pcm_oracle_limits`. -/
structure Limits where
  minSamples : ℕ
  maxAbsError : ℕ
  maxRmsError : ℕ
  minCorrelationQ15 : ℤ
  deriving DecidableEq, Repr

/-- `enum pcm_oracle_result`. -/
inductive Result where
  | pass
  | insufficientSamples
  | maxError
  | rmsError
  | correlation
  deriving DecidableEq, Repr

/-- The RMS error of `pcm_oracle_finalize`, before it is checked against its type. -/
def rmsOf (squaredError samples : ℕ) : ℕ :=
  if samples ≠ 0 then
    let rmsSquare := squaredError / samples
    ceilSqrtU64 (if squaredError % samples ≠ 0 then rmsSquare + 1 else rmsSquare)
  else 0

/-- The correlation of `pcm_oracle_finalize`, clamped. -/
def correlationOf (actualEnergy referenceEnergy : ℕ) (dotProduct : ℤ) : Except ℤ ℤ :=
  let actualSqrt := floorSqrtU64 actualEnergy
  let referenceSqrt := floorSqrtU64 referenceEnergy
  if actualSqrt = 0 ∨ referenceSqrt = 0 ∨ actualSqrt > uint64Max / referenceSqrt then
    .error (-eoverflow)
  else
    let denominator := actualSqrt * referenceSqrt
    if (denominator : ℤ) > int64Max then .error (-eoverflow)
    else if dotProduct > int64Max.tdiv 32768 ∨ dotProduct < int64Min.tdiv 32768 then
      .error (-eoverflow)
    else
      let numerator := dotProduct * 32768
      let correlation := numerator.tdiv denominator
      if correlation > 32767 then .ok 32767
      else if correlation < -32768 then .ok (-32768)
      else .ok correlation

/-- `pcm_oracle_finalize`. -/
def finalize (oracle : Oracle) : Except ℤ Metrics :=
  let result : Metrics :=
    { squaredError := oracle.squaredError, actualEnergyScaled := oracle.actualEnergyScaled
      referenceEnergyScaled := oracle.referenceEnergyScaled
      dotProductScaled := oracle.dotProductScaled, samples := oracle.samples
      frames := oracle.frames, maxAbsError := oracle.maxAbsError, rmsError := 0
      correlationQ15 := 0 }
  if rmsOf oracle.squaredError oracle.samples > uint32Max then .error (-eoverflow)
  else
    let result := { result with rmsError := rmsOf oracle.squaredError oracle.samples }
    if result.actualEnergyScaled = 0 ∨ result.referenceEnergyScaled = 0 then .ok result
    else do
      let correlation ← correlationOf result.actualEnergyScaled result.referenceEnergyScaled
        result.dotProductScaled
      return { result with correlationQ15 := correlation }

/-- `pcm_oracle_evaluate`. -/
def evaluate (metrics : Metrics) (limits : Limits) : Result :=
  if metrics.samples < limits.minSamples then .insufficientSamples
  else if metrics.maxAbsError > limits.maxAbsError then .maxError
  else if metrics.rmsError > limits.maxRmsError then .rmsError
  else if metrics.actualEnergyScaled = 0 ∨ metrics.referenceEnergyScaled = 0 ∨
      metrics.correlationQ15 < limits.minCorrelationQ15 then .correlation
  else .pass

end PcmOracle

end LeAudioReceiver
