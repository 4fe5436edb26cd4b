import LeAudioReceiver.Asrc.Split
import LeAudioReceiver.Machine.Basic
import LeAudioReceiver.Rounding.Basic

/-!
# Arithmetic safety of the converter

`processChecked` is `audio_asrc_process` with everything checked that the code relies on: each
`int64_t` result of `compute_step`, the index of each sample read or written, the `uint64_t`
addition to the phase, and that position `0` is reached only with a previous frame.

* `computeStep_eq` : the step is the nominal step corrected by `ppm`, rounded to nearest;
* `Session.Safe` : what holds between two calls, in particular the bound of the carried phase;
* `arithmetic_safe` : in every sequence of calls no check fails.
-/

namespace LeAudioReceiver

namespace Asrc

open Resample Rounding

/-! ### The checks -/

/-- A check that failed. -/
inductive Fault where
  /-- A signed 64-bit overflow. -/
  | overflow
  /-- `compute_step` returned `0`. -/
  | zeroStep
  /-- `phase + step` wrapped. -/
  | wrap
  /-- Position `0` without a previous frame. -/
  | noPrev
  /-- A sample index outside the input. -/
  | read (i : ℕ)
  /-- A sample index outside the output buffer. -/
  | write (i : ℕ)
  deriving DecidableEq, Repr

/-- An `int64_t` result. -/
def int64 (x : ℤ) : Except Fault ℤ :=
  if -2 ^ 63 ≤ x ∧ x < 2 ^ 63 then .ok x else .error .overflow

/-- `compute_step`. -/
def computeStepChecked (stepBase : ℕ) (ppm : ℤ) : Except Fault ℕ :=
  if ppm = 0 then .ok stepBase
  else do
    let base ← int64 stepBase
    let product ← int64 (base * ppm)
    let biased ← int64 (product + if product < 0 then -500000 else 500000)
    let step ← int64 (base + biased.tdiv 1000000)
    return if step ≤ 0 then 0 else step.toNat

/-- The samples of a buffer, left and right in turn. -/
def interleave (frames : List Frame) : List Int16 := frames.flatMap fun f => [f.l, f.r]

/-- `input[i]`. -/
def readSample (samples : List Int16) (i : ℕ) : Except Fault Int16 :=
  match samples[i]? with
  | some x => .ok x
  | none => .error (.read i)

/-- `input[idx * 2]` and `input[idx * 2 + 1]`. -/
def readFrame (samples : List Int16) (idx : ℕ) : Except Fault Frame := do
  let l ← readSample samples (idx * 2)
  let r ← readSample samples (idx * 2 + 1)
  return ⟨l, r⟩

/-- The stores to `output[out * 2]` and `output[out * 2 + 1]`. -/
def writeFrame (outputCapacity out : ℕ) : Except Fault Unit :=
  if out * 2 + 1 < outputCapacity * 2 then .ok () else .error (.write (out * 2 + 1))

/-- The frame of an iteration, as `emit`. -/
def emitChecked (samples : List Int16) (inputFrames : ℕ) (prev : Frame) (prevValid : Bool)
    (pos frac : ℕ) : Except Fault (Option Frame) :=
  if pos > inputFrames then .ok none
  else if pos = 0 then
    if prevValid then do
      let f ← readFrame samples 0
      return some (interpFrame prev f frac)
    else .error .noPrev
  else if pos < inputFrames then do
    let idx := pos - 1
    let a ← readFrame samples idx
    let b ← readFrame samples (idx + 1)
    return some (interpFrame a b frac)
  else if frac = 0 then do
    let f ← readFrame samples (inputFrames - 1)
    return some f
  else .ok none

/-- The `while` loop with `out` frames written and room for `room` more. -/
def loopChecked (step : ℕ) (samples : List Int16) (inputFrames : ℕ) (prev : Frame)
    (prevValid : Bool) (outputCapacity : ℕ) : ℕ → ℕ → ℕ → Except Fault (List Frame × ℕ)
  | 0, _, phase => .ok ([], phase)
  | room + 1, out, phase => do
    match ← emitChecked samples inputFrames prev prevValid (phase / 2 ^ 32) (phase % 2 ^ 32) with
    | none => return ([], phase)
    | some f =>
      writeFrame outputCapacity out
      if 2 ^ 64 ≤ phase + step then throw .wrap
      let rest ← loopChecked step samples inputFrames prev prevValid outputCapacity room (out + 1)
        (phase + step)
      return (f :: rest.1, rest.2)

/-- `audio_asrc_process`. -/
def processChecked (ctx : AudioAsrc) (samples : List Int16) (inputFrames outputCapacity : ℕ)
    (correctionPpm : ℤ) (prev : Frame) (prevValid : Bool) : Except Fault ProcessResult :=
  if correctionPpm < -maxPpm ∨ correctionPpm > maxPpm then .ok .einval
  else if inputFrames = 0 then .ok (.done ctx [] 0 none)
  else if outputCapacity = 0 then .ok (.full [] 0)
  else do
    let step ← computeStepChecked ctx.stepBase.toNat correctionPpm
    if step = 0 then throw .zeroStep
    let r ← loopChecked step samples inputFrames prev prevValid outputCapacity outputCapacity 0
      ctx.phase.toNat
    let consumed := min (r.2 / 2 ^ 32) inputFrames
    if r.1.length = outputCapacity ∧ consumed < inputFrames then return .full r.1 consumed
    else
      let last ← readFrame samples (inputFrames - 1)
      return .done { ctx with phase := UInt64.ofNat (r.2 - consumed * 2 ^ 32) } r.1 consumed
        (some last)

/-! ### The step -/

theorem int64_of_range {x : ℤ} (h₁ : -2 ^ 63 ≤ x) (h₂ : x < 2 ^ 63) : int64 x = .ok x :=
  if_pos ⟨h₁, h₂⟩

/-- The biased division of `compute_step` rounds to nearest. -/
theorem biased_tdiv (p : ℤ) :
    (p + if p < 0 then -500000 else 500000).tdiv 1000000 = roundAway ((p : ℚ) / 1000000) := by
  have h := tdiv_add_half (s := p) (h := 500000) (by decide)
  have hq : (2 : ℚ) * ((500000 : ℤ) : ℚ) = 1000000 := by norm_num
  rw [hq] at h
  exact h

/-- Every intermediate result of `compute_step` fits, and the correction stays below the step. -/
theorem correction_bounds {base : ℕ} {ppm : ℤ} (h₀ : 0 < base) (h₁ : -maxPpm ≤ ppm)
    (h₂ : ppm ≤ maxPpm) :
    -(3000 * base : ℤ) ≤ base * ppm ∧ base * ppm ≤ (3000 * base : ℤ) ∧
      -(base - 1 : ℤ) ≤ roundAway (((base * ppm : ℤ) : ℚ) / 1000000) ∧
      roundAway (((base * ppm : ℤ) : ℚ) / 1000000) ≤ base - 1 := by
  unfold maxPpm at h₁ h₂
  have hlo : (base : ℤ) * -3000 ≤ base * ppm := Int.mul_le_mul_of_nonneg_left h₁ (by omega)
  have hhi : (base : ℤ) * ppm ≤ base * 3000 := Int.mul_le_mul_of_nonneg_left h₂ (by omega)
  rw [← biased_tdiv]
  generalize (base : ℤ) * ppm = product at hlo hhi
  have hbias : (if product < 0 then (-500000 : ℤ) else 500000) = -500000 ∨
      (if product < 0 then (-500000 : ℤ) else 500000) = 500000 := by
    split_ifs
    · exact .inl rfl
    · exact .inr rfl
  have hdelta := tdiv_bounds (x := product + if product < 0 then -500000 else 500000)
    (b := base - 1) (by omega) (by omega)
  exact ⟨by omega, by omega, hdelta.1, hdelta.2⟩

/-- The step is the nominal step and its correction, rounded to nearest. -/
theorem computeStep_eq {base : ℕ} {ppm : ℤ} (h₀ : 0 < base) (hb : base < 2 ^ 50)
    (h₁ : -maxPpm ≤ ppm) (h₂ : ppm ≤ maxPpm) :
    (computeStep base ppm : ℤ) = base + roundAway (((base * ppm : ℤ) : ℚ) / 1000000) := by
  obtain ⟨hlo, hhi, hd₁, hd₂⟩ := correction_bounds h₀ h₁ h₂
  unfold computeStep
  split_ifs with hp
  · simp [hp]
  · have e₁ : toInt64 (base : ℤ) = base := toInt64_of_range (by omega) (by omega)
    have e₂ : toInt64 ((base : ℤ) * ppm) = base * ppm := toInt64_of_range (by omega) (by omega)
    simp only [e₁, e₂]
    rw [← biased_tdiv] at hd₁ hd₂ ⊢
    generalize (base : ℤ) * ppm = product at hlo hhi hd₁ hd₂ ⊢
    have e₃ : toInt64 (product + if product < 0 then -500000 else 500000) =
        product + if product < 0 then -500000 else 500000 := by
      apply toInt64_of_range <;> split_ifs <;> omega
    rw [e₃]
    generalize (product + if product < 0 then -500000 else 500000).tdiv 1000000 = delta at hd₁ hd₂ ⊢
    have e₄ : toInt64 ((base : ℤ) + delta) = base + delta :=
      toInt64_of_range (by omega) (by omega)
    rw [e₄, if_neg (by omega)]
    omega

theorem computeStepChecked_eq {base : ℕ} {ppm : ℤ} (h₀ : 0 < base) (hb : base < 2 ^ 50)
    (h₁ : -maxPpm ≤ ppm) (h₂ : ppm ≤ maxPpm) :
    computeStepChecked base ppm = .ok (computeStep base ppm) := by
  obtain ⟨hlo, hhi, hd₁, hd₂⟩ := correction_bounds h₀ h₁ h₂
  have hstep := computeStep_eq h₀ hb h₁ h₂
  unfold computeStepChecked
  split_ifs with hp
  · rw [hp, computeStep, if_pos rfl]
  · have hbias : int64 ((base : ℤ) * ppm + if (base : ℤ) * ppm < 0 then -500000 else 500000) =
        .ok ((base : ℤ) * ppm + if (base : ℤ) * ppm < 0 then -500000 else 500000) := by
      apply int64_of_range <;> split_ifs <;> omega
    rw [int64_of_range (x := (base : ℤ)) (by omega) (by omega)]
    simp only [Except.bind, bind, pure, Except.pure]
    rw [int64_of_range (x := (base : ℤ) * ppm) (by omega) (by omega)]
    simp only [hbias, biased_tdiv]
    rw [int64_of_range (by omega) (by omega)]
    simp only [Except.ok.injEq]
    rw [if_neg (by omega)]
    omega

/-- The largest admissible step is the one for the largest correction. -/
theorem computeStep_le_max {base : ℕ} {ppm : ℤ} (h₀ : 0 < base) (hb : base < 2 ^ 50)
    (h₁ : -maxPpm ≤ ppm) (h₂ : ppm ≤ maxPpm) :
    computeStep base ppm ≤ computeStep base maxPpm := by
  have hstep := computeStep_eq h₀ hb h₁ h₂
  have hmax := computeStep_eq h₀ hb (show -maxPpm ≤ maxPpm by decide) le_rfl
  have hprod : (base : ℤ) * ppm ≤ base * maxPpm := Int.mul_le_mul_of_nonneg_left h₂ (by omega)
  have hmono : roundAway (((base * ppm : ℤ) : ℚ) / 1000000) ≤
      roundAway (((base * maxPpm : ℤ) : ℚ) / 1000000) := by
    refine roundAway_mono (div_le_div_of_nonneg_right ?_ (by norm_num))
    exact_mod_cast hprod
  omega

/-! ### The samples -/

theorem interleave_getElem? (frames : List Frame) (j : ℕ) :
    (interleave frames)[j * 2]? = frames[j]?.map Frame.l ∧
      (interleave frames)[j * 2 + 1]? = frames[j]?.map Frame.r := by
  induction frames generalizing j with
  | nil => simp [interleave]
  | cons f frames ih =>
    cases j with
    | zero => exact ⟨rfl, rfl⟩
    | succ j =>
      -- two samples further on
      rw [Nat.succ_mul]
      exact ih j

theorem readFrame_interleave {frames : List Frame} {j : ℕ} (h : j < frames.length) :
    readFrame (interleave frames) j = .ok (frames.getD j default) := by
  obtain ⟨hl, hr⟩ := interleave_getElem? frames j
  have hget : frames[j]? = some (frames.getD j default) := by
    rw [List.getElem?_eq_getElem h, List.getD_eq_getElem _ _ h]
  rw [hget] at hl hr
  unfold readFrame readSample
  rw [hl, hr]
  rfl

/-! ### One call -/

section Call

variable {input : List Frame} {prev : Frame} {prevValid : Bool}

/-- No iteration reads outside the input, and none needs a previous frame that is not there. -/
theorem emitChecked_eq (hne : 0 < input.length) {p : ℕ} (hv : prevValid = true ∨ q32One ≤ p) :
    emitChecked (interleave input) input.length prev prevValid (p / 2 ^ 32) (p % 2 ^ 32) =
      .ok (emit input prev prevValid (p / 2 ^ 32) (p % 2 ^ 32)) := by
  unfold emitChecked emit
  by_cases h₁ : p / 2 ^ 32 > input.length
  · rw [if_pos h₁, if_pos h₁]
  rw [if_neg h₁, if_neg h₁]
  by_cases h₀ : p / 2 ^ 32 = 0
  · have hprev : prevValid = true := by
      rcases hv with h | h
      · exact h
      · rw [q32One] at h
        omega
    rw [if_pos h₀, if_pos h₀, if_pos hprev, if_pos hprev, readFrame_interleave hne]
    rfl
  rw [if_neg h₀, if_neg h₀]
  by_cases h₂ : p / 2 ^ 32 < input.length
  · rw [if_pos h₂, if_pos h₂]
    have hidx : p / 2 ^ 32 - 1 + 1 = p / 2 ^ 32 := Nat.sub_add_cancel (Nat.pos_of_ne_zero h₀)
    simp only [hidx]
    rw [readFrame_interleave (by omega), readFrame_interleave h₂]
    rfl
  · rw [if_neg h₂, if_neg h₂]
    split_ifs
    · rw [readFrame_interleave (by omega)]
      rfl
    · rfl

/-- The loop stays within both buffers, and the phase does not wrap. -/
theorem loopChecked_eq {step capacity : ℕ} (hne : input ≠ [])
    (hw : input.length * q32One + step < 2 ^ 64) :
    ∀ room out phase, out + room = capacity → (prevValid = true ∨ q32One ≤ phase) →
      loopChecked step (interleave input) input.length prev prevValid capacity room out phase =
        .ok (loop step input prev prevValid room phase) := by
  intro room
  induction room with
  | zero =>
    intro out phase _ _
    rfl
  | succ room ih =>
    intro out phase hout hv
    rw [loopChecked, loop, emitChecked_eq (List.length_pos_of_ne_nil hne) hv]
    have hemit : emit input prev prevValid (phase / 2 ^ 32) (phase % 2 ^ 32) = _ := emit_eq hne hv
    split_ifs at hemit with hle
    · have hm : (phase + step) % 2 ^ 64 = phase + step := Nat.mod_eq_of_lt (by omega)
      have hwrite : writeFrame capacity out = .ok () := if_pos (by omega)
      have hrest := ih (out + 1) (phase + step) (by omega) (hv.imp_right fun h => by omega)
      simp only [hemit, hm, if_neg (show ¬ phase + step < step by omega)]
      simp only [Except.bind, bind, pure, Except.pure, hwrite, hrest,
        if_neg (show ¬ 2 ^ 64 ≤ phase + step by omega)]
    · simp only [hemit]
      rfl

/-- A call that takes its whole input leaves the phase behind the last frame, by at most a step
or what was left before. -/
theorem loop_exit {step room phase : ℕ} (hs : 0 < step) (hne : input ≠ [])
    (hw : input.length * q32One + step < 2 ^ 64) (hroom : 0 < room)
    (hv : prevValid = true ∨ q32One ≤ phase) {out : List Frame} {exit : ℕ}
    (hloop : loop step input prev prevValid room phase = (out, exit))
    (hall : ¬ (out.length = room ∧ min (exit / 2 ^ 32) input.length < input.length)) :
    input.length * q32One ≤ exit ∧ exit ≤ max phase (input.length * q32One + step) := by
  rw [loop_eq hs hne hw room phase hv] at hloop
  obtain ⟨hout, hexit⟩ := Prod.mk.inj hloop
  have hlen : out.length = min room (due step (input.length * q32One) phase) := by
    rw [← hout, List.length_take, length_render]
  constructor
  · have hcases : out.length < room ∨ input.length ≤ exit / 2 ^ 32 := by omega
    rcases hcases with hall | hall
    · have hmin : min room (due step (input.length * q32One) phase) =
          due step (input.length * q32One) phase := by omega
      rw [hmin] at hexit
      exact hexit ▸ (lt_add_due hs _ _).le
    · rw [q32One]
      omega
  · rw [← hexit]
    rcases Nat.lt_or_ge (input.length * q32One) phase with h | h
    · rw [due_of_lt h, Nat.min_zero, Nat.zero_mul]
      exact le_max_left _ _
    · -- the phase before the last step was within the input
      have hdue := due_of_le hs h
      obtain ⟨m, hm⟩ : ∃ m, min room (due step (input.length * q32One) phase) = m + 1 :=
        Nat.exists_eq_add_one.2 (by omega)
      have hlast := add_mul_le_of_lt_due (k := m) hs
        (show m < due step (input.length * q32One) phase by omega)
      rw [hm, Nat.add_mul, Nat.one_mul]
      exact le_max_of_le_right (by omega)

end Call

/-! ### Sequences of calls -/

/-- The arguments of a call that a caller chooses. -/
structure Call where
  frames : List Frame
  /-- The buffer fits the address space. -/
  fits : frames.length < 2 ^ 30
  outputCapacity : ℕ
  correctionPpm : ℤ
  ge : -maxPpm ≤ correctionPpm
  le : correctionPpm ≤ maxPpm

namespace Session

/-- What a call returns. -/
def call (s : Session) (c : Call) : ProcessResult :=
  process s.ctx c.frames c.outputCapacity c.correctionPpm s.prev s.prevValid

/-- The same call, checked. -/
def callChecked (s : Session) (c : Call) : Except Fault ProcessResult :=
  processChecked s.ctx (interleave c.frames) c.frames.length c.outputCapacity c.correctionPpm
    s.prev s.prevValid

/-- The caller feeds the reported last frame back. -/
def after (s : Session) : ProcessResult → Session
  | .done ctx _ _ (some next) => ⟨ctx, next, true⟩
  | .done ctx _ _ none => { s with ctx := ctx }
  | .einval | .full _ _ => s

/-- What holds between two calls. -/
structure Safe (s : Session) : Prop extends s.Ok where
  phase_lt : s.ctx.phase.toNat < q32One + s.ctx.step maxPpm

end Session

/-- A caller from the initialisation on; the arguments for the previous frame are arbitrary before
the first block. -/
def callMachine (ctx : AudioAsrc) : Machine Session Call where
  init s := s.ctx = ctx
  next s c := some (s.after (s.call c))

section Calls

variable {s : Session} {c : Call}

theorem Session.Safe.step_le_max (h : s.Safe) (c : Call) :
    s.ctx.step c.correctionPpm ≤ s.ctx.step maxPpm :=
  computeStep_le_max h.step_pos h.step_lt c.ge c.le

theorem Session.Safe.wrap_lt (h : s.Safe) (c : Call) :
    c.frames.length * q32One + s.ctx.step c.correctionPpm < 2 ^ 64 := by
  have hlt := (h.toOk.step_bounds c.ge c.le).2
  have hfits := c.fits
  rw [q32One]
  omega

theorem Session.Safe.callChecked_eq (h : s.Safe) (c : Call) :
    s.callChecked c = .ok (s.call c) := by
  obtain ⟨hs, -⟩ := h.toOk.step_bounds c.ge c.le
  unfold Session.callChecked Session.call processChecked process
  have hppm : ¬ (c.correctionPpm < -maxPpm ∨ c.correctionPpm > maxPpm) := by
    have h₁ := c.ge
    have h₂ := c.le
    omega
  rw [if_neg hppm, if_neg hppm]
  by_cases hne : c.frames.length = 0
  · rw [if_pos hne, if_pos hne]
  rw [if_neg hne, if_neg hne]
  by_cases hcap : c.outputCapacity = 0
  · rw [if_pos hcap, if_pos hcap]
  rw [if_neg hcap, if_neg hcap]
  have hstep := computeStepChecked_eq h.step_pos h.step_lt c.ge c.le
  have hloop := @loopChecked_eq _ s.prev s.prevValid _ _
    (List.ne_nil_of_length_pos (Nat.pos_of_ne_zero hne)) (h.wrap_lt c) c.outputCapacity 0
    s.ctx.phase.toNat (Nat.zero_add _) h.seeded
  have hlast := readFrame_interleave (show c.frames.length - 1 < c.frames.length by omega)
  rw [AudioAsrc.step] at hs hloop
  simp only [hstep, hloop, bind, Except.bind, pure, Except.pure, if_neg hs.ne']
  split_ifs
  · rfl
  · simp only [hlast]

theorem Session.Safe.carry (h : s.Safe) {phase : ℕ} (hphase : phase < q32One + s.ctx.step maxPpm)
    (prev : Frame) : Session.Safe ⟨{ s.ctx with phase := UInt64.ofNat phase }, prev, true⟩ := by
  have hstep := (h.toOk.step_bounds (show -maxPpm ≤ maxPpm by decide) le_rfl).2
  have hword : (UInt64.ofNat phase).toNat = phase := by
    refine UInt64.toNat_ofNat_of_lt' (hphase.trans ?_)
    rw [q32One, UInt64.size]
    omega
  refine ⟨⟨h.step_pos, h.step_lt, .inl rfl⟩, ?_⟩
  rw [hword]
  exact hphase

/-- What a call leaves is safe: the nominal step is kept, and the carried phase is at most a step
or what was carried before. -/
theorem Session.Safe.after (h : s.Safe) (c : Call) : (s.after (s.call c)).Safe := by
  obtain ⟨hs, -⟩ := h.toOk.step_bounds c.ge c.le
  unfold Session.call process
  have hppm : ¬ (c.correctionPpm < -maxPpm ∨ c.correctionPpm > maxPpm) := by
    have h₁ := c.ge
    have h₂ := c.le
    omega
  rw [if_neg hppm]
  by_cases hne : c.frames.length = 0
  · rw [if_pos hne]
    exact h
  rw [if_neg hne]
  by_cases hcap : c.outputCapacity = 0
  · rw [if_pos hcap]
    exact h
  rw [if_neg hcap]
  have hexit := fun out exit => @loop_exit _ s.prev _ _ _ _ hs
    (List.ne_nil_of_length_pos (Nat.pos_of_ne_zero hne)) (h.wrap_lt c) (Nat.pos_of_ne_zero hcap)
    h.seeded out exit
  rw [AudioAsrc.step] at hs hexit
  dsimp only
  rw [if_neg hs.ne']
  generalize loop (computeStep s.ctx.stepBase.toNat c.correctionPpm) c.frames s.prev s.prevValid
    c.outputCapacity s.ctx.phase.toNat = r at hexit ⊢
  obtain ⟨out, exit⟩ := r
  dsimp only
  split_ifs with hfull
  · exact h
  · -- the whole input is consumed
    obtain ⟨hge, hle⟩ := hexit out exit rfl hfull
    have hphase := h.phase_lt
    have hmax : computeStep s.ctx.stepBase.toNat c.correctionPpm ≤ s.ctx.step maxPpm :=
      h.step_le_max c
    have hconsumed : min (exit / 2 ^ 32) c.frames.length = c.frames.length := by
      rw [q32One] at hge
      omega
    have hcarry : exit - c.frames.length * q32One < q32One + s.ctx.step maxPpm := by
      have hone : 0 < q32One := by decide
      rcases le_max_iff.1 hle with hle | hle
      · omega
      · omega
    rw [hconsumed]
    exact h.carry hcarry _

theorem init_accepts {inRate outRate : ℕ} (hin : rateMin ≤ inRate ∧ inRate ≤ rateMax)
    (hout : rateMin ≤ outRate ∧ outRate ≤ rateMax) : ∃ ctx, init inRate outRate = some ctx := by
  have hpos : 0 < (inRate * q32One + outRate / 2) / outRate := by
    refine Nat.div_pos ?_ hout.1
    unfold rateMin rateMax q32One at *
    omega
  unfold init
  rw [if_neg (by omega), if_neg (by omega)]
  dsimp only
  rw [if_neg hpos.ne']
  exact ⟨_, rfl⟩

/-- A fresh session is safe, whatever its caller passes as the previous frame. -/
theorem safe_init {inRate outRate : ℕ} {ctx : AudioAsrc} (hinit : init inRate outRate = some ctx)
    (hs : s.ctx = ctx) : s.Safe := by
  obtain ⟨hpos, hlt, hphase⟩ := init_bounds hinit
  subst hs
  have hok : s.Ok := ⟨hpos, hlt, .inr hphase.ge⟩
  refine ⟨hok, ?_⟩
  rw [hphase]
  exact Nat.lt_add_of_pos_right (hok.step_bounds (by decide) le_rfl).1

theorem safe_of_reachable {inRate outRate : ℕ} {ctx : AudioAsrc}
    (hinit : init inRate outRate = some ctx) (hs : (callMachine ctx).Reachable s) : s.Safe := by
  refine hs.invariant (fun s h₀ => safe_init hinit h₀) fun s c s' h hnext => ?_
  obtain rfl := Option.some.inj hnext
  exact h.after c

/-- **Arithmetic safety.**  Every admissible pair of rates is accepted.  In every sequence of
calls, with any corrections, block sizes and capacities, the next call passes all its checks: no
result of `compute_step` overflows and its value is positive and at most the largest admissible
step, the phase does not wrap, position `0` is not reached without a previous frame, and every
sample read or written is inside its buffer.  The carried phase is below `2 ^ 32` and the largest
admissible step. -/
theorem arithmetic_safe {inRate outRate : ℕ} (hin : rateMin ≤ inRate ∧ inRate ≤ rateMax)
    (hout : rateMin ≤ outRate ∧ outRate ≤ rateMax) :
    ∃ ctx, init inRate outRate = some ctx ∧
      ∀ s, (callMachine ctx).Reachable s → ∀ c : Call,
        s.callChecked c = .ok (s.call c) ∧
        computeStepChecked s.ctx.stepBase.toNat c.correctionPpm =
          .ok (s.ctx.step c.correctionPpm) ∧
        0 < s.ctx.step c.correctionPpm ∧
        s.ctx.step c.correctionPpm ≤ s.ctx.step maxPpm ∧
        s.ctx.phase.toNat < q32One + s.ctx.step maxPpm := by
  obtain ⟨ctx, hinit⟩ := init_accepts hin hout
  refine ⟨ctx, hinit, fun s hs c => ?_⟩
  have hsafe := safe_of_reachable hinit hs
  exact ⟨hsafe.callChecked_eq c, computeStepChecked_eq hsafe.step_pos hsafe.step_lt c.ge c.le,
    (hsafe.toOk.step_bounds c.ge c.le).1, hsafe.step_le_max c, hsafe.phase_lt⟩

/-- The extremes of the range: frames of the highest rate for the lowest, at full scale and with the
largest correction. -/
theorem arithmetic_safe_extreme : ∃ ctx, init 192000 1 = some ctx ∧
    ∀ s, (callMachine ctx).Reachable s →
      s.callChecked ⟨[⟨32767, -32768⟩, ⟨-32768, 32767⟩], by decide, 2, 3000, by decide, by decide⟩ =
        .ok (process s.ctx [⟨32767, -32768⟩, ⟨-32768, 32767⟩] 2 3000 s.prev s.prevValid) ∧
      s.ctx.phase.toNat < q32One + s.ctx.step maxPpm := by
  obtain ⟨ctx, hinit, hsafe⟩ := @arithmetic_safe 192000 1 (by decide) (by decide)
  refine ⟨ctx, hinit, fun s hs => ?_⟩
  obtain ⟨hcall, -, -, -, hphase⟩ := hsafe s hs
    ⟨[⟨32767, -32768⟩, ⟨-32768, 32767⟩], by decide, 2, 3000, by decide, by decide⟩
  exact ⟨hcall, hphase⟩

end Calls

end Asrc

end LeAudioReceiver
