import LeAudioReceiver.Asrc.Checked
import LeAudioReceiver.Drift.Basic
import LeAudioReceiver.Rounding.Smoothing

/-!
# Bounds of the drift controller

Any sequence of measurements, runs of the controller and resets, each argument any `int32_t` or
`int`.

* `Controller.filter_converges` : the filter does not overshoot, and it comes to rest at most `7`
  below a constant measurement;
* `Config.runChecked_eq` : no `int64_t` intermediate overflows and nothing is lost when a value is
  stored;
* `Config.controller_bounded` : the output and the integral keep within their clamps, the
  converter takes the output for its correction, and the integral **moves no further into a rail**
  of the output while it can always move away.
-/

namespace LeAudioReceiver

namespace Drift

open Rounding

/-! ### Clamping -/

theorem clamp_eq_max_min {low high : ℤ} (h : low ≤ high) (val : ℤ) :
    clamp val low high = max low (min val high) := by
  unfold clamp
  split_ifs with hle
  · rw [min_eq_left (hle.trans h), max_eq_left hle]
  · rw [max_eq_right (le_min (not_le.1 hle).le h)]

theorem clamp_mem {low high : ℤ} (h : low ≤ high) (val : ℤ) :
    low ≤ clamp val low high ∧ clamp val low high ≤ high := by
  rw [clamp_eq_max_min h]
  exact ⟨le_max_left _ _, max_le h (min_le_right _ _)⟩

theorem clamp_of_mem {val low high : ℤ} (h₁ : low ≤ val) (h₂ : val ≤ high) :
    clamp val low high = val := by
  rw [clamp_eq_max_min (h₁.trans h₂), min_eq_left h₂, max_eq_right h₁]

/-- A value that an `int32_t` holds. -/
def IsInt32 (x : ℤ) : Prop := int32Min ≤ x ∧ x ≤ int32Max

instance (x : ℤ) : Decidable (IsInt32 x) := inferInstanceAs (Decidable (_ ∧ _))

theorem isInt32_iff {x : ℤ} : IsInt32 x ↔ -2 ^ 31 ≤ x ∧ x < 2 ^ 31 := by
  unfold IsInt32 int32Min int32Max
  omega

theorem isInt32_toInt (x : Int32) : IsInt32 x.toInt := ⟨x.minValue_le_toInt, x.toInt_le⟩

theorem IsInt32.between {x y z : ℤ} (hx : IsInt32 x) (hy : IsInt32 y) (h₁ : min x y ≤ z)
    (h₂ : z ≤ max x y) : IsInt32 z :=
  ⟨(le_min hx.1 hy.1).trans h₁, h₂.trans (max_le hx.2 hy.2)⟩

/-! ### The filter -/

namespace Controller

variable {c : Controller}

/-- The new value of the filter, before it is clamped. -/
def ema (c : Controller) (m : ℤ) : ℤ := c.freqFiltered + (m - c.freqFiltered) >>> freqFilterShift

theorem ema_eq (c : Controller) (m : ℤ) : c.ema m = smooth 8 m c.freqFiltered := by
  unfold ema smooth
  rw [Int.shiftRight_eq_div_pow]
  rfl

/-- The filter between its old value and the measurement. -/
theorem ema_mem (c : Controller) (m : ℤ) :
    min c.freqFiltered m ≤ c.ema m ∧ c.ema m ≤ max c.freqFiltered m := by
  rw [ema_eq]
  exact smooth_mem (by decide)

/-- The clamp does not change the value. -/
theorem clamp_ema (hc : IsInt32 c.freqFiltered) {m : ℤ} (hm : IsInt32 m) :
    clamp (c.ema m) int32Min int32Max = c.ema m := by
  obtain ⟨h₁, h₂⟩ := c.ema_mem m
  obtain ⟨hlo, hhi⟩ := hc.between hm h₁ h₂
  exact clamp_of_mem hlo hhi

theorem frequencyErrorUpdate_received (hc : c.freqOnceReceived = true)
    (hf : IsInt32 c.freqFiltered) {m : ℤ} (hm : IsInt32 m) :
    c.frequencyErrorUpdate m = { c with freqFiltered := smooth 8 m c.freqFiltered } := by
  have hstored : clamp (c.ema m) int32Min int32Max = smooth 8 m c.freqFiltered :=
    (clamp_ema hf hm).trans (c.ema_eq m)
  unfold frequencyErrorUpdate
  rw [if_pos hc]
  exact congrArg (fun f => { c with freqFiltered := f }) hstored

/-- The filter after one update: between its old value and the measurement. -/
theorem freqFiltered_mem (hf : IsInt32 c.freqFiltered) {m : ℤ} (hm : IsInt32 m) :
    min c.freqFiltered m ≤ (c.frequencyErrorUpdate m).freqFiltered ∧
      (c.frequencyErrorUpdate m).freqFiltered ≤ max c.freqFiltered m := by
  by_cases hc : c.freqOnceReceived = true
  · rw [frequencyErrorUpdate_received hc hf hm]
    exact smooth_mem (by decide)
  · unfold frequencyErrorUpdate
    rw [if_neg hc]
    exact ⟨min_le_right _ _, le_max_right _ _⟩

theorem iterate_frequencyErrorUpdate (hc : c.freqOnceReceived = true)
    (hf : IsInt32 c.freqFiltered) {m : ℤ} (hm : IsInt32 m) (n : ℕ) :
    (fun c : Controller => c.frequencyErrorUpdate m)^[n] c =
        { c with freqFiltered := (smooth 8 m)^[n] c.freqFiltered } := by
  induction n generalizing c with
  | zero => rfl
  | succ n ih =>
    obtain ⟨h₁, h₂⟩ := smooth_mem (d := 8) (m := m) (f := c.freqFiltered) (by decide)
    have hf' : IsInt32 (smooth 8 m c.freqFiltered) := hf.between hm h₁ h₂
    rw [Function.iterate_succ_apply, Function.iterate_succ_apply,
      frequencyErrorUpdate_received hc hf hm]
    exact ih (c := { c with freqFiltered := smooth 8 m c.freqFiltered }) hc hf'

/-- **The filter.**  From every state an update by any measurement moves the filter to a value
between the old one and the measurement, so that nothing is clamped; and repeating one measurement
`m` brings it to rest at some `f` with `m - 7 ≤ f ≤ m`. -/
theorem filter_converges (c : Controller) (hf : IsInt32 c.freqFiltered) (m : Int32) :
    (min c.freqFiltered m.toInt ≤ (c.frequencyErrorUpdate m.toInt).freqFiltered ∧
        (c.frequencyErrorUpdate m.toInt).freqFiltered ≤ max c.freqFiltered m.toInt) ∧
      clamp (c.ema m.toInt) int32Min int32Max = c.ema m.toInt ∧
      ∃ N f, m.toInt - 7 ≤ f ∧ f ≤ m.toInt ∧ ∀ n, N ≤ n →
        ((fun c : Controller => c.frequencyErrorUpdate m.toInt)^[n] c).freqFiltered = f := by
  have hm := isInt32_toInt m
  refine ⟨freqFiltered_mem hf hm, clamp_ema hf hm, ?_⟩
  -- the first measurement only initialises the filter
  have hfirst : ∃ c', c.frequencyErrorUpdate m.toInt = c' ∧ c'.freqOnceReceived = true ∧
      IsInt32 c'.freqFiltered := by
    obtain ⟨h₁, h₂⟩ := freqFiltered_mem hf hm
    refine ⟨_, rfl, ?_, hf.between hm h₁ h₂⟩
    unfold frequencyErrorUpdate
    split_ifs with h
    · exact h
    · rfl
  obtain ⟨c', hstep, hc', hf'⟩ := hfirst
  obtain ⟨f, hlo, hhi, hrest⟩ := smooth_rests (d := 8) (by decide) m.toInt c'.freqFiltered
  refine ⟨(m.toInt - c'.freqFiltered).natAbs + 1, f, by omega, hhi, ?_⟩
  intro n hn
  obtain ⟨n, rfl⟩ := Nat.exists_eq_succ_of_ne_zero (by omega : n ≠ 0)
  rw [Function.iterate_succ_apply, hstep, iterate_frequencyErrorUpdate hc' hf' hm]
  exact hrest n (by omega)

/-- From the top of the range to its bottom. -/
theorem filter_converges_extremes :
    ∃ N f, (-2147483648 - 7 : ℤ) ≤ f ∧ f ≤ -2147483648 ∧ ∀ n, N ≤ n →
      ((fun c : Controller => c.frequencyErrorUpdate (Int32.minValue).toInt)^[n]
        ⟨2147483647, true, 0, 0, .init⟩).freqFiltered = f :=
  (filter_converges ⟨2147483647, true, 0, 0, .init⟩ (by decide) Int32.minValue).2.2

end Controller

/-! ### Checks -/

/-- An `int64_t` result. -/
def int64 (x : ℤ) : Option ℤ := if -2 ^ 63 ≤ x ∧ x < 2 ^ 63 then some x else none

/-- A value that is stored as an `int32_t`. -/
def int32 (x : ℤ) : Option ℤ := if IsInt32 x then some x else none

theorem int64_eq {x : ℤ} (h₁ : -2 ^ 63 ≤ x) (h₂ : x < 2 ^ 63) : int64 x = some x :=
  if_pos ⟨h₁, h₂⟩

theorem int32_eq {x : ℤ} (h : IsInt32 x) : int32 x = some x := if_pos h

/-- The phase error in ppm. -/
def phaseErrPpm (slabFreeCount : ℤ) : ℤ := (phaseSetpoint - slabFreeCount) * phaseScale

/-- The proportional term. -/
def phasePp (slabFreeCount : ℤ) : ℤ := (phaseErrPpm slabFreeCount * kpMilli).tdiv 1000

/-- The increment of the integral. -/
def phaseInc (slabFreeCount : ℤ) : ℤ := (phaseErrPpm slabFreeCount * kiMilli).tdiv 1000

namespace Controller

/-- `audio_drift_frequency_error_update`, checked. -/
def frequencyErrorUpdateChecked (c : Controller) (localClockErrorPpm : ℤ) : Option Controller :=
  if c.freqOnceReceived then do
    let delta ← int64 (localClockErrorPpm - c.freqFiltered)
    let ema ← int64 (c.freqFiltered + delta >>> freqFilterShift)
    let freqFiltered ← int32 (clamp ema int32Min int32Max)
    return { c with freqFiltered := freqFiltered }
  else some { c with freqFiltered := localClockErrorPpm, freqOnceReceived := true }

/-- What the frequency contributes, checked. -/
def freqCorrectionChecked (c : Controller) : Option ℤ :=
  if c.freqOnceReceived then int64 (-c.freqFiltered) else some 0

/-- The integral behind a run of the controller, checked. -/
def integralChecked (c : Controller) (cfg : Config) (phaseInc : ℤ) : Option ℤ :=
  if c.blocksIntegral cfg phaseInc then some c.phaseIntegral
  else do
    let candidate ← int64 (c.phaseIntegral + phaseInc)
    int32 (clamp candidate (-cfg.phaseIntegralClamp) cfg.phaseIntegralClamp)

/-- `audio_drift_controller_update`, checked. -/
def controllerUpdateChecked (c : Controller) (cfg : Config) (slabFreeCount : ℤ) :
    Option Controller :=
  match c.state with
  | .init => some { c with state := .active, outputPpm := 0 }
  | .active => do
    let freqCorrection ← c.freqCorrectionChecked
    let phaseErr ← int64 (phaseSetpoint - slabFreeCount)
    let phaseErrPpm ← int64 (phaseErr * phaseScale)
    let scaledPp ← int64 (phaseErrPpm * kpMilli)
    let scaledInc ← int64 (phaseErrPpm * kiMilli)
    let phaseIntegral ← c.integralChecked cfg (scaledInc.tdiv 1000)
    let phaseOutput ← int64 (scaledPp.tdiv 1000 + phaseIntegral)
    let total ← int64 (freqCorrection + phaseOutput)
    let outputPpm ← int32 (clamp total (-cfg.outputClamp) cfg.outputClamp)
    return { c with phaseIntegral := phaseIntegral, outputPpm := outputPpm }

end Controller

/-! ### Sequences of calls -/

/-- A call of the controller. -/
inductive Call where
  | frequencyErrorUpdate (localClockErrorPpm : Int32)
  | controllerUpdate (slabFreeCount : Int32)
  | reset
  deriving DecidableEq

namespace Config

variable (cfg : Config)

/-- What a build configures: both limits are positive and an `int32_t` holds them. -/
structure Valid : Prop where
  outputClamp_pos : 0 < cfg.outputClamp
  outputClamp_le : cfg.outputClamp ≤ int32Max
  phaseIntegralClamp_pos : 0 < cfg.phaseIntegralClamp
  phaseIntegralClamp_le : cfg.phaseIntegralClamp ≤ int32Max

/-- The state behind a call. -/
def call (c : Controller) : Call → Controller
  | .frequencyErrorUpdate ppm => c.frequencyErrorUpdate ppm.toInt
  | .controllerUpdate slabFreeCount => c.controllerUpdate cfg slabFreeCount.toInt
  | .reset => .reset

/-- The state behind a call, checked. -/
def callChecked (c : Controller) : Call → Option Controller
  | .frequencyErrorUpdate ppm => c.frequencyErrorUpdateChecked ppm.toInt
  | .controllerUpdate slabFreeCount => c.controllerUpdateChecked cfg slabFreeCount.toInt
  | .reset => some .reset

/-- The state behind a sequence of calls, from the boot on. -/
def run (calls : List Call) : Controller := calls.foldl cfg.call .reset

/-- The state behind a sequence of calls, checked. -/
def runChecked (calls : List Call) : Option Controller := calls.foldlM cfg.callChecked .reset

end Config

namespace Controller

/-- What holds between two calls. -/
structure Bounded (cfg : Config) (c : Controller) : Prop where
  freqFiltered : IsInt32 c.freqFiltered
  phaseIntegral : -cfg.phaseIntegralClamp ≤ c.phaseIntegral ∧
    c.phaseIntegral ≤ cfg.phaseIntegralClamp
  outputPpm : -cfg.outputClamp ≤ c.outputPpm ∧ c.outputPpm ≤ cfg.outputClamp
  /-- Before the first run there is no correction. -/
  idle : c.state = .init → c.outputPpm = 0

variable {cfg : Config} {c : Controller}

/-- What the frequency contributes. -/
def freqCorrection (c : Controller) : ℤ := if c.freqOnceReceived then -c.freqFiltered else 0

/-- The integral behind a run of the controller. -/
def nextIntegral (cfg : Config) (c : Controller) (slabFreeCount : ℤ) : ℤ :=
  if c.blocksIntegral cfg (phaseInc slabFreeCount) then c.phaseIntegral
  else clamp (c.phaseIntegral + phaseInc slabFreeCount) (-cfg.phaseIntegralClamp)
    cfg.phaseIntegralClamp

/-- The output before it is clamped. -/
def total (cfg : Config) (c : Controller) (slabFreeCount : ℤ) : ℤ :=
  c.freqCorrection + (phasePp slabFreeCount + c.nextIntegral cfg slabFreeCount)

theorem controllerUpdate_active (hs : c.state = .active) (slabFreeCount : ℤ) :
    c.controllerUpdate cfg slabFreeCount =
      { c with
        phaseIntegral := c.nextIntegral cfg slabFreeCount
        outputPpm := clamp (c.total cfg slabFreeCount) (-cfg.outputClamp) cfg.outputClamp } := by
  unfold controllerUpdate
  rw [hs]
  rfl

theorem scaled_bounds (slabFreeCount : Int32) {gain : ℤ} (h₁ : 0 ≤ gain) (h₂ : gain ≤ 300) :
    -2 ^ 46 < phaseErrPpm slabFreeCount.toInt * gain ∧
      phaseErrPpm slabFreeCount.toInt * gain < 2 ^ 46 := by
  obtain ⟨hlo, hhi⟩ := isInt32_iff.1 (isInt32_toInt slabFreeCount)
  unfold phaseErrPpm phaseSetpoint phaseScale
  constructor <;> nlinarith

theorem tdiv_bounds {x b : ℤ} (h₁ : -b < x) (h₂ : x < b) :
    -b < x.tdiv 1000 ∧ x.tdiv 1000 < b := by
  have hle : (x.tdiv 1000).natAbs ≤ x.natAbs := by
    rw [Int.natAbs_tdiv]
    exact Nat.div_le_self _ _
  omega

theorem phasePp_bounds (slabFreeCount : Int32) :
    -2 ^ 46 < phasePp slabFreeCount.toInt ∧ phasePp slabFreeCount.toInt < 2 ^ 46 :=
  have h := scaled_bounds slabFreeCount (by decide : 0 ≤ kpMilli) (by decide)
  tdiv_bounds h.1 h.2

theorem phaseInc_bounds (slabFreeCount : Int32) :
    -2 ^ 46 < phaseInc slabFreeCount.toInt ∧ phaseInc slabFreeCount.toInt < 2 ^ 46 :=
  have h := scaled_bounds slabFreeCount (by decide : 0 ≤ kiMilli) (by decide)
  tdiv_bounds h.1 h.2

/-! ### One call -/

theorem bounded_reset (hcfg : cfg.Valid) : Bounded cfg .reset := by
  have hout := hcfg.outputClamp_pos
  have hint := hcfg.phaseIntegralClamp_pos
  refine ⟨by decide, ?_, ?_, fun _ => rfl⟩ <;> dsimp only [reset] <;> omega

theorem Bounded.frequencyErrorUpdateChecked_eq (h : Bounded cfg c) (ppm : Int32) :
    c.frequencyErrorUpdateChecked ppm.toInt = some (c.frequencyErrorUpdate ppm.toInt) := by
  have hm := isInt32_toInt ppm
  obtain ⟨hlo, hhi⟩ := c.ema_mem ppm.toInt
  have hema := h.freqFiltered.between hm hlo hhi
  have hstored : IsInt32 (clamp (c.ema ppm.toInt) int32Min int32Max) :=
    (clamp_ema h.freqFiltered hm).symm ▸ hema
  have hsum : int64 (c.freqFiltered + (ppm.toInt - c.freqFiltered) >>> freqFilterShift) =
      some (c.ema ppm.toInt) := by
    obtain ⟨he₁, he₂⟩ := isInt32_iff.1 hema
    exact int64_eq (he₁.trans' (by decide)) (he₂.trans (by decide))
  rw [isInt32_iff] at hm
  have hf := isInt32_iff.1 h.freqFiltered
  unfold frequencyErrorUpdateChecked frequencyErrorUpdate
  simp only [Option.bind_eq_bind, Option.pure_def]
  rw [int64_eq (by omega) (by omega), Option.bind_some, hsum, Option.bind_some, int32_eq hstored,
    Option.bind_some]
  split_ifs
  · rfl
  · rfl

theorem Bounded.frequencyErrorUpdate (h : Bounded cfg c) (ppm : Int32) :
    Bounded cfg (c.frequencyErrorUpdate ppm.toInt) := by
  obtain ⟨hlo, hhi⟩ := freqFiltered_mem h.freqFiltered (isInt32_toInt ppm)
  have hf := h.freqFiltered.between (isInt32_toInt ppm) hlo hhi
  unfold Controller.frequencyErrorUpdate at hf ⊢
  split_ifs at hf ⊢
  · exact ⟨hf, h.phaseIntegral, h.outputPpm, h.idle⟩
  · exact ⟨hf, h.phaseIntegral, h.outputPpm, h.idle⟩

theorem Bounded.nextIntegral_mem (hcfg : cfg.Valid) (h : Bounded cfg c) (slabFreeCount : ℤ) :
    -cfg.phaseIntegralClamp ≤ c.nextIntegral cfg slabFreeCount ∧
      c.nextIntegral cfg slabFreeCount ≤ cfg.phaseIntegralClamp := by
  have hpos := hcfg.phaseIntegralClamp_pos
  unfold nextIntegral
  split_ifs
  · exact h.phaseIntegral
  · exact clamp_mem (by omega) _

theorem isInt32_of_mem {x limit : ℤ} (hlimit : limit ≤ int32Max) (h₁ : -limit ≤ x)
    (h₂ : x ≤ limit) : IsInt32 x := by
  unfold IsInt32 int32Min
  unfold int32Max at *
  omega

theorem Bounded.isInt32_nextIntegral (hcfg : cfg.Valid) (h : Bounded cfg c) (slabFreeCount : ℤ) :
    IsInt32 (c.nextIntegral cfg slabFreeCount) :=
  have hmem := h.nextIntegral_mem hcfg slabFreeCount
  isInt32_of_mem hcfg.phaseIntegralClamp_le hmem.1 hmem.2

theorem Bounded.integralChecked_eq (hcfg : cfg.Valid) (h : Bounded cfg c) (slabFreeCount : Int32) :
    c.integralChecked cfg (phaseInc slabFreeCount.toInt) =
      some (c.nextIntegral cfg slabFreeCount.toInt) := by
  have hnext := h.isInt32_nextIntegral hcfg slabFreeCount.toInt
  have hint : IsInt32 c.phaseIntegral :=
    isInt32_of_mem hcfg.phaseIntegralClamp_le h.phaseIntegral.1 h.phaseIntegral.2
  rw [isInt32_iff] at hint
  obtain ⟨hinc₁, hinc₂⟩ := phaseInc_bounds slabFreeCount
  unfold integralChecked
  unfold nextIntegral at hnext ⊢
  split_ifs at hnext ⊢
  · rfl
  · simp only [Option.bind_eq_bind]
    rw [int64_eq (by omega) (by omega), Option.bind_some, int32_eq hnext]

theorem Bounded.freqCorrectionChecked_eq (h : Bounded cfg c) :
    c.freqCorrectionChecked = some c.freqCorrection ∧
      -2 ^ 32 < c.freqCorrection ∧ c.freqCorrection < 2 ^ 32 := by
  have hf := isInt32_iff.1 h.freqFiltered
  unfold freqCorrectionChecked freqCorrection
  split_ifs
  · exact ⟨int64_eq (by omega) (by omega), by omega, by omega⟩
  · exact ⟨rfl, by decide, by decide⟩

theorem Bounded.controllerUpdateChecked_eq (hcfg : cfg.Valid) (h : Bounded cfg c)
    (slabFreeCount : Int32) :
    c.controllerUpdateChecked cfg slabFreeCount.toInt =
      some (c.controllerUpdate cfg slabFreeCount.toInt) := by
  cases hs : c.state with
  | init =>
    unfold controllerUpdateChecked controllerUpdate
    rw [hs]
  | active =>
    have hn := isInt32_iff.1 (isInt32_toInt slabFreeCount)
    have hpp := phasePp_bounds slabFreeCount
    have hscaledPp := scaled_bounds slabFreeCount (by decide : 0 ≤ kpMilli) (by decide)
    have hscaledInc := scaled_bounds slabFreeCount (by decide : 0 ≤ kiMilli) (by decide)
    have hnext := isInt32_iff.1 (h.isInt32_nextIntegral hcfg slabFreeCount.toInt)
    obtain ⟨hcorr, hcorr₁, hcorr₂⟩ := h.freqCorrectionChecked_eq
    -- each intermediate result in turn
    have herr : int64 (phaseSetpoint - slabFreeCount.toInt) =
        some (phaseSetpoint - slabFreeCount.toInt) := by
      unfold phaseSetpoint
      exact int64_eq (by omega) (by omega)
    have hppm : int64 ((phaseSetpoint - slabFreeCount.toInt) * phaseScale) =
        some (phaseErrPpm slabFreeCount.toInt) := by
      unfold phaseErrPpm phaseSetpoint phaseScale
      exact int64_eq (by omega) (by omega)
    have hout : IsInt32 (clamp (c.total cfg slabFreeCount.toInt) (-cfg.outputClamp)
        cfg.outputClamp) := by
      have hpos := hcfg.outputClamp_pos
      obtain ⟨hlo, hhi⟩ := clamp_mem (by omega : -cfg.outputClamp ≤ cfg.outputClamp)
        (c.total cfg slabFreeCount.toInt)
      exact isInt32_of_mem hcfg.outputClamp_le hlo hhi
    have hoffset : int64 (phasePp slabFreeCount.toInt + c.nextIntegral cfg slabFreeCount.toInt) =
        some (phasePp slabFreeCount.toInt + c.nextIntegral cfg slabFreeCount.toInt) :=
      int64_eq (by omega) (by omega)
    have htotal : int64 (c.freqCorrection + (phasePp slabFreeCount.toInt +
        c.nextIntegral cfg slabFreeCount.toInt)) = some (c.total cfg slabFreeCount.toInt) :=
      int64_eq (by omega) (by omega)
    have hinc := h.integralChecked_eq hcfg slabFreeCount
    unfold phaseInc at hinc
    unfold phasePp at hoffset htotal
    rw [controllerUpdate_active hs]
    unfold controllerUpdateChecked
    rw [hs]
    simp only [Option.bind_eq_bind, Option.pure_def]
    rw [hcorr, Option.bind_some, herr, Option.bind_some, hppm, Option.bind_some,
      int64_eq (by omega) (by omega), Option.bind_some, int64_eq (by omega) (by omega),
      Option.bind_some, hinc, Option.bind_some, hoffset, Option.bind_some, htotal,
      Option.bind_some, int32_eq hout, Option.bind_some]

theorem Bounded.controllerUpdate (hcfg : cfg.Valid) (h : Bounded cfg c) (slabFreeCount : ℤ) :
    Bounded cfg (c.controllerUpdate cfg slabFreeCount) := by
  have hpos := hcfg.outputClamp_pos
  cases hs : c.state with
  | init =>
    unfold Controller.controllerUpdate
    rw [hs]
    exact ⟨h.freqFiltered, h.phaseIntegral, ⟨by dsimp only; omega, by dsimp only; omega⟩,
      fun _ => rfl⟩
  | active =>
    rw [controllerUpdate_active hs]
    refine ⟨h.freqFiltered, h.nextIntegral_mem hcfg _, clamp_mem (by omega) _, ?_⟩
    intro hinit
    rw [hs] at hinit
    cases hinit

/-! ### The rails -/

/-- An output at a rail: the controller has run, so the next run updates the integral. -/
theorem Bounded.active (h : Bounded cfg c) (hout : c.outputPpm ≠ 0) : c.state = .active := by
  cases hs : c.state with
  | init => exact absurd (h.idle hs) hout
  | active => rfl

/-- At the positive rail the integral does not increase, and it decreases by a negative
increment. -/
theorem Bounded.upper_rail (hcfg : cfg.Valid) (h : Bounded cfg c)
    (hrail : c.outputPpm = cfg.outputClamp) (slabFreeCount : ℤ) :
    (c.controllerUpdate cfg slabFreeCount).phaseIntegral ≤ c.phaseIntegral ∧
      (phaseInc slabFreeCount < 0 → (c.controllerUpdate cfg slabFreeCount).phaseIntegral =
        max (-cfg.phaseIntegralClamp) (c.phaseIntegral + phaseInc slabFreeCount)) := by
  have hpos := hcfg.outputClamp_pos
  have hlimit := hcfg.phaseIntegralClamp_pos
  obtain ⟨hlo, hhi⟩ := h.phaseIntegral
  have hblocks : c.blocksIntegral cfg (phaseInc slabFreeCount) = true ↔
      0 < phaseInc slabFreeCount := by
    unfold blocksIntegral
    simp only [Bool.or_eq_true, Bool.and_eq_true, decide_eq_true_eq]
    omega
  rw [controllerUpdate_active (h.active (by omega))]
  unfold nextIntegral
  dsimp only
  rw [clamp_eq_max_min (by omega)]
  split_ifs with hb
  · have hinc := hblocks.1 hb
    exact ⟨le_rfl, fun hneg => absurd hinc (by omega)⟩
  · have hinc : phaseInc slabFreeCount ≤ 0 := by
      rw [hblocks] at hb
      exact not_lt.1 hb
    rw [min_eq_left (by omega)]
    exact ⟨max_le hlo (by omega), fun _ => rfl⟩

/-- At the negative rail, the other way round. -/
theorem Bounded.lower_rail (hcfg : cfg.Valid) (h : Bounded cfg c)
    (hrail : c.outputPpm = -cfg.outputClamp) (slabFreeCount : ℤ) :
    c.phaseIntegral ≤ (c.controllerUpdate cfg slabFreeCount).phaseIntegral ∧
      (0 < phaseInc slabFreeCount → (c.controllerUpdate cfg slabFreeCount).phaseIntegral =
        min cfg.phaseIntegralClamp (c.phaseIntegral + phaseInc slabFreeCount)) := by
  have hpos := hcfg.outputClamp_pos
  have hlimit := hcfg.phaseIntegralClamp_pos
  obtain ⟨hlo, hhi⟩ := h.phaseIntegral
  have hblocks : c.blocksIntegral cfg (phaseInc slabFreeCount) = true ↔
      phaseInc slabFreeCount < 0 := by
    unfold blocksIntegral
    simp only [Bool.or_eq_true, Bool.and_eq_true, decide_eq_true_eq]
    omega
  rw [controllerUpdate_active (h.active (by omega))]
  unfold nextIntegral
  dsimp only
  rw [clamp_eq_max_min (by omega)]
  split_ifs with hb
  · have hinc := hblocks.1 hb
    exact ⟨le_rfl, fun hneg => absurd hinc (by omega)⟩
  · have hinc : 0 ≤ phaseInc slabFreeCount := by
      rw [hblocks] at hb
      exact not_lt.1 hb
    rw [max_eq_right (by omega), min_comm]
    exact ⟨le_min hhi (by omega), fun _ => rfl⟩

end Controller

/-! ### All calls -/

namespace Config

open Controller

variable {cfg : Config}

theorem callChecked_eq (hcfg : cfg.Valid) {c : Controller} (h : Bounded cfg c) (call : Call) :
    cfg.callChecked c call = some (cfg.call c call) ∧ Bounded cfg (cfg.call c call) := by
  cases call with
  | frequencyErrorUpdate ppm =>
    exact ⟨h.frequencyErrorUpdateChecked_eq ppm, h.frequencyErrorUpdate ppm⟩
  | controllerUpdate slabFreeCount =>
    exact ⟨h.controllerUpdateChecked_eq hcfg slabFreeCount, h.controllerUpdate hcfg _⟩
  | reset => exact ⟨rfl, bounded_reset hcfg⟩

/-- Any calls: nothing fails, and the bounds stay. -/
theorem runChecked_eq (hcfg : cfg.Valid) (calls : List Call) :
    cfg.runChecked calls = some (cfg.run calls) ∧ Bounded cfg (cfg.run calls) := by
  unfold runChecked run
  have hreset := bounded_reset hcfg
  generalize Controller.reset = c at hreset
  induction calls generalizing c with
  | nil => exact ⟨rfl, hreset⟩
  | cons call calls ih =>
    obtain ⟨hcall, hbounded⟩ := callChecked_eq hcfg hreset call
    rw [List.foldlM_cons, List.foldl_cons, hcall]
    exact ih _ hbounded

/-- **The drift controller.**  Behind any sequence of calls, with any arguments, no intermediate
has overflowed and no stored value was narrowed; the output and the integral are within their
clamps; if the clamp of the output is in the range of the converter, the converter does not reject
the output; and at a rail of the output the integral does not move towards the rail, while an
increment away from it is applied, up to the clamp of the integral. -/
theorem controller_bounded (hcfg : cfg.Valid) (calls : List Call) :
    cfg.runChecked calls = some (cfg.run calls) ∧
      (-cfg.outputClamp ≤ (cfg.run calls).outputPpm ∧
        (cfg.run calls).outputPpm ≤ cfg.outputClamp) ∧
      (-cfg.phaseIntegralClamp ≤ (cfg.run calls).phaseIntegral ∧
        (cfg.run calls).phaseIntegral ≤ cfg.phaseIntegralClamp) ∧
      (cfg.outputClamp ≤ Asrc.maxPpm → ∀ inRate outRate ctx s,
        Asrc.init inRate outRate = some ctx → (Asrc.callMachine ctx).Reachable s →
        ∀ frames capacity, Asrc.process s.ctx frames capacity (cfg.run calls).outputPpm s.prev
          s.prevValid ≠ .einval) ∧
      ∀ slabFreeCount : Int32,
        ((cfg.run calls).outputPpm = cfg.outputClamp →
          (cfg.run (calls ++ [.controllerUpdate slabFreeCount])).phaseIntegral ≤
              (cfg.run calls).phaseIntegral ∧
            (phaseInc slabFreeCount.toInt < 0 →
              (cfg.run (calls ++ [.controllerUpdate slabFreeCount])).phaseIntegral =
                max (-cfg.phaseIntegralClamp)
                  ((cfg.run calls).phaseIntegral + phaseInc slabFreeCount.toInt))) ∧
        ((cfg.run calls).outputPpm = -cfg.outputClamp →
          (cfg.run calls).phaseIntegral ≤
              (cfg.run (calls ++ [.controllerUpdate slabFreeCount])).phaseIntegral ∧
            (0 < phaseInc slabFreeCount.toInt →
              (cfg.run (calls ++ [.controllerUpdate slabFreeCount])).phaseIntegral =
                min cfg.phaseIntegralClamp
                  ((cfg.run calls).phaseIntegral + phaseInc slabFreeCount.toInt))) := by
  obtain ⟨hrun, hbounded⟩ := runChecked_eq hcfg calls
  refine ⟨hrun, hbounded.outputPpm, hbounded.phaseIntegral, ?_, ?_⟩
  · intro hmax inRate outRate ctx s hinit hs frames capacity
    have hsafe := Asrc.safe_of_reachable hinit hs
    exact hsafe.toOk.process_ne_einval (by have := hbounded.outputPpm.1; omega)
      (hbounded.outputPpm.2.trans hmax) frames capacity
  · intro slabFreeCount
    have hnext : cfg.run (calls ++ [.controllerUpdate slabFreeCount]) =
        (cfg.run calls).controllerUpdate cfg slabFreeCount.toInt :=
      List.foldl_concat _ _ _ _
    rw [hnext]
    exact ⟨fun hrail => hbounded.upper_rail hcfg hrail _,
      fun hrail => hbounded.lower_rail hcfg hrail _⟩

/-- The clamps of the default build; the lowest measurement drives the output to its rail. -/
theorem controller_bounded_default :
    (run ⟨2000, 150⟩ [.frequencyErrorUpdate (-2147483648), .controllerUpdate 0,
        .controllerUpdate 2, .controllerUpdate 0]).phaseIntegral ≤
      (run ⟨2000, 150⟩ [.frequencyErrorUpdate (-2147483648), .controllerUpdate 0,
        .controllerUpdate 2]).phaseIntegral :=
  ((controller_bounded ⟨by decide, by decide, by decide, by decide⟩
    [.frequencyErrorUpdate (-2147483648), .controllerUpdate 0, .controllerUpdate 2]).2.2.2.2 0).1
      (by decide) |>.1

end Config

end Drift

end LeAudioReceiver
