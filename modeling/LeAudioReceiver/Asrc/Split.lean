import LeAudioReceiver.Asrc.Basic
import Mathlib.Data.List.GetD

/-!
# Feeding the converter block by block

`loop_eq` shows that the code's loop is the phase accumulator of `LeAudioReceiver.Resample` over
the extended sequence, cut off at the output capacity.  A call that returns `0` therefore wrote
the first `k` of the frames that are due and carries the phase behind the last of them
(`process_taken`), with `k` all of them when there is room (`process_done`).  The next call starts
at that phase, and the resume rule of the library gives:

* `process_append` : one call on `A ++ B` does what a call on `A` and then a call on `B` do, and
  so the output of a stream does not depend on how it is cut into blocks.

Room matters for the last call only.  A call whose last output falls exactly on its last input
frame accepts a buffer that is one frame too small: all its input counts as consumed, it returns
`0`, and the missing frame is the first output of the next call.  Behind the last block there is
no next call (`process_append_tight`).
-/

namespace LeAudioReceiver

namespace Asrc

open Resample

/-! ### The step -/

theorem toInt64_of_range {x : ℤ} (h₁ : -2 ^ 63 ≤ x) (h₂ : x < 2 ^ 63) : toInt64 x = x := by
  unfold toInt64; omega

theorem tdiv_bounds {x b : ℤ} (h₁ : -((b + 1) * 1000000) < x) (h₂ : x < (b + 1) * 1000000) :
    -b ≤ x.tdiv 1000000 ∧ x.tdiv 1000000 ≤ b := by
  rcases le_total 0 x with hx | hx
  · rw [Int.tdiv_eq_ediv_of_nonneg hx]; omega
  · have : x.tdiv 1000000 = -((-x) / 1000000) := by
      rw [← Int.tdiv_eq_ediv_of_nonneg (by omega), Int.neg_tdiv, neg_neg]
    rw [this]; omega

/-- The corrected step differs from the nominal one by at most `d`, where `d` millionths bound the
rounded correction. -/
theorem computeStep_near {base d : ℕ} {ppm : ℤ} (hb : base < 2 ^ 50) (hd : d < base)
    (hcorr : base * 3000 + 500000 < (d + 1) * 1000000) (h₁ : -maxPpm ≤ ppm) (h₂ : ppm ≤ maxPpm) :
    base - d ≤ computeStep base ppm ∧ computeStep base ppm ≤ base + d := by
  unfold computeStep
  split_ifs with hp
  · omega
  · unfold maxPpm at h₁ h₂
    have hlo : (base : ℤ) * -3000 ≤ base * ppm := Int.mul_le_mul_of_nonneg_left h₁ (by omega)
    have hhi : (base : ℤ) * ppm ≤ base * 3000 := Int.mul_le_mul_of_nonneg_left h₂ (by omega)
    have e₁ : toInt64 (base : ℤ) = base := toInt64_of_range (by omega) (by omega)
    have e₂ : toInt64 ((base : ℤ) * ppm) = base * ppm := toInt64_of_range (by omega) (by omega)
    simp only [e₁, e₂]
    generalize (base : ℤ) * ppm = product at hlo hhi
    set bias : ℤ := if product < 0 then -500000 else 500000 with hbias
    have hb' : bias = -500000 ∨ bias = 500000 := by rw [hbias]; split_ifs <;> simp
    have e₃ : toInt64 (product + bias) = product + bias :=
      toInt64_of_range (by omega) (by omega)
    have hdelta := tdiv_bounds (x := product + bias) (b := d) (by omega) (by omega)
    rw [e₃]
    generalize (product + bias).tdiv 1000000 = delta at hdelta
    have e₄ : toInt64 ((base : ℤ) + delta) = base + delta :=
      toInt64_of_range (by omega) (by omega)
    rw [e₄, if_neg (by omega)]
    omega

/-- The step of an initialised context stays positive and far below the 64-bit range. -/
theorem computeStep_bounds {base : ℕ} {ppm : ℤ} (h₀ : 0 < base) (hb : base < 2 ^ 50)
    (h₁ : -maxPpm ≤ ppm) (h₂ : ppm ≤ maxPpm) :
    0 < computeStep base ppm ∧ computeStep base ppm < 2 ^ 51 := by
  -- the correction is smaller than the base itself
  have := computeStep_near (d := base - 1) hb (by omega) (by omega) h₁ h₂
  omega

/-! ### The loop is the phase accumulator -/

/-- The extended sequence: the last frame of the previous block, then the input. -/
def ext (prev : Frame) (input : List Frame) (i : ℕ) : Frame := (prev :: input).getD i default

@[simp] theorem ext_zero (prev : Frame) (input : List Frame) : ext prev input 0 = prev := rfl

@[simp] theorem ext_succ (prev : Frame) (input : List Frame) (i : ℕ) :
    ext prev input (i + 1) = input.getD i default := rfl

theorem sample_interpFrame (e : ℕ → Frame) (p : ℕ) :
    sample interpFrame q32One e p =
      interpFrame (e (p / q32One)) (e (p / q32One + 1)) (p % q32One) := by
  unfold sample
  split_ifs with h
  · rw [h, interpFrame_zero]
  · rfl

/-- Each iteration writes the frame at its phase, and breaks exactly above the last frame. -/
theorem emit_eq {input : List Frame} {prev : Frame} {prevValid : Bool} {p : ℕ}
    (hne : input ≠ []) (hv : prevValid = true ∨ q32One ≤ p) :
    emit input prev prevValid (p / 2 ^ 32) (p % 2 ^ 32) =
      if p ≤ input.length * q32One then some (sample interpFrame q32One (ext prev input) p)
      else none := by
  have hlen := List.length_pos_of_ne_nil hne
  rw [sample_interpFrame]
  unfold emit q32One at *
  generalize hpos : p / 2 ^ 32 = pos
  generalize hfrac : p % 2 ^ 32 = frac
  have hp : p = pos * 2 ^ 32 + frac := by omega
  have hf : frac < 2 ^ 32 := by omega
  by_cases h₁ : pos > input.length
  · rw [if_pos h₁, if_neg (by omega)]
  rw [if_neg h₁]
  rcases Nat.eq_zero_or_pos pos with h₀ | h₀
  · have hv' : prevValid = true := by
      rcases hv with h | h
      · exact h
      · omega
    rw [if_pos h₀, if_pos hv', if_pos (by omega), h₀]
    rfl
  · rw [if_neg (by omega)]
    obtain ⟨j, rfl⟩ : ∃ j, pos = j + 1 := ⟨pos - 1, by omega⟩
    by_cases h₂ : j + 1 < input.length
    · rw [if_pos h₂, if_pos (by omega)]
      rfl
    · rw [if_neg h₂]
      by_cases h₃ : frac = 0
      · rw [if_pos h₃, if_pos (by omega), h₃, interpFrame_zero, ext_succ,
          show input.length - 1 = j by omega]
      · rw [if_neg h₃, if_neg (by omega)]

/-- **The loop renders the block, cut off at the capacity.**  Below the limit the phase cannot
wrap, so the guard never fires. -/
theorem loop_eq {step : ℕ} {input : List Frame} {prev : Frame} {prevValid : Bool}
    (hs : 0 < step) (hne : input ≠ []) (hw : input.length * q32One + step < 2 ^ 64) :
    ∀ room phase, prevValid = true ∨ q32One ≤ phase →
      loop step input prev prevValid room phase =
        ((render interpFrame q32One (ext prev input) step (input.length * q32One) phase).take room,
          phase + min room (due step (input.length * q32One) phase) * step) := by
  intro room
  induction room with
  | zero => intro phase _; simp [loop]
  | succ room ih =>
    intro phase hv
    rw [loop, emit_eq hne hv]
    by_cases h : phase ≤ input.length * q32One
    · have hm : (phase + step) % 2 ^ 64 = phase + step := Nat.mod_eq_of_lt (by omega)
      simp only [if_pos h, hm, if_neg (show ¬ phase + step < step by omega),
        ih (phase + step) (hv.imp_right fun h => by omega)]
      rw [render_of_le hs h, due_of_le hs h, List.take_succ_cons,
        Nat.add_min_add_right, Nat.add_mul]
      congr 1
      omega
    · rw [if_neg h, render_of_lt (by omega), due_of_lt (by omega)]
      simp

/-! ### Sessions and blocks -/

/-- A block of input.  The target has a 32-bit address space and a frame takes four bytes, which
bounds the number of frames of a buffer. -/
structure Block where
  /-- The interleaved frames. -/
  frames : List Frame
  /-- A block has at least one frame. -/
  nonempty : frames ≠ []
  /-- The buffer fits the address space. -/
  fits : frames.length < 2 ^ 30

namespace Block

/-- The last frame of a block, which `next_prev_l` and `next_prev_r` report. -/
def last (b : Block) : Frame := b.frames.getD (b.frames.length - 1) default

theorem length_pos (b : Block) : 0 < b.frames.length := List.length_pos_of_ne_nil b.nonempty

end Block

/-- What a caller of the converter keeps between two blocks. -/
structure Session where
  /-- The converter's context. -/
  ctx : AudioAsrc
  /-- The last frame of the previous block. -/
  prev : Frame
  /-- Whether there was a previous block. -/
  prevValid : Bool
  deriving DecidableEq

namespace Session

/-- One block through the converter, the reported last frame fed back as `prev`; `none` when the
call does not return `0`. -/
def feed (ppm : ℤ) (s : Session) (b : Block) (capacity : ℕ) : Option (Session × List Frame) :=
  match process s.ctx b.frames capacity ppm s.prev s.prevValid with
  | .done ctx output _ nextPrev => some (⟨ctx, nextPrev.getD s.prev, true⟩, output)
  | _ => none

/-- A sequence of blocks, each with the capacity of its output buffer. -/
def run (ppm : ℤ) : Session → List (Block × ℕ) → Option (Session × List Frame)
  | s, [] => some (s, [])
  | s, (b, capacity) :: bs =>
    (s.feed ppm b capacity).bind fun r => (run ppm r.1 bs).map fun r' => (r'.1, r.2 ++ r'.2)

/-- The sessions a caller can be in: an accepted pair of rates, then any calls and resets, with
any corrections and capacities. -/
inductive Reachable : Session → Prop
  | init {inRate outRate : ℕ} {ctx : AudioAsrc} (prev : Frame) (prevValid : Bool) :
      init inRate outRate = some ctx → Reachable ⟨ctx, prev, prevValid⟩
  | reset {s : Session} (prev : Frame) (prevValid : Bool) :
      Reachable s → Reachable ⟨Asrc.reset s.ctx, prev, prevValid⟩
  | feed {s s' : Session} {ppm : ℤ} {b : Block} {capacity : ℕ} {output : List Frame} :
      Reachable s → s.feed ppm b capacity = some (s', output) → Reachable s'

/-- The invariant of a session: a step in range, and a phase at the first input frame or later
as long as there is no previous frame. -/
structure Ok (s : Session) : Prop where
  step_pos : 0 < s.ctx.stepBase.toNat
  step_lt : s.ctx.stepBase.toNat < 2 ^ 50
  seeded : s.prevValid = true ∨ q32One ≤ s.ctx.phase.toNat

end Session

/-- The step that a call with correction `ppm` uses. -/
def AudioAsrc.step (ctx : AudioAsrc) (ppm : ℤ) : ℕ := computeStep ctx.stepBase.toNat ppm

/-- The number of frames that are due up to the last frame of an input of `n` frames. -/
def AudioAsrc.dueFrames (ctx : AudioAsrc) (ppm : ℤ) (n : ℕ) : ℕ :=
  due (ctx.step ppm) (n * q32One) ctx.phase.toNat

/-- The output buffer holds every frame that is due. -/
def Roomy (ctx : AudioAsrc) (ppm : ℤ) (b : Block) (capacity : ℕ) : Prop :=
  0 < capacity ∧ ctx.dueFrames ppm b.frames.length ≤ capacity

/-- No call of a run returns `1`, and the last one has a roomy buffer. -/
def Session.AcceptedRun (ppm : ℤ) : Session → List (Block × ℕ) → Prop
  | _, [] => True
  | s, [(b, capacity)] => Roomy s.ctx ppm b capacity
  | s, (b, capacity) :: c :: bs =>
    ∃ s' output, s.feed ppm b capacity = some (s', output) ∧ AcceptedRun ppm s' (c :: bs)

/-- Every call of a run has a roomy buffer. -/
def Session.RoomyRun (ppm : ℤ) : Session → List (Block × ℕ) → Prop
  | _, [] => True
  | s, (b, capacity) :: bs =>
    Roomy s.ctx ppm b capacity ∧
      ∀ s' output, s.feed ppm b capacity = some (s', output) → RoomyRun ppm s' bs

/-- The context after `n` input frames, all due frames written. -/
def AudioAsrc.advance (ctx : AudioAsrc) (ppm : ℤ) (n : ℕ) : AudioAsrc :=
  let phase := ctx.phase.toNat + ctx.dueFrames ppm n * ctx.step ppm - n * q32One
  { ctx with phase := UInt64.ofNat phase }

/-- The context after `n` input frames, `k` of the due frames written. -/
def AudioAsrc.carry (ctx : AudioAsrc) (ppm : ℤ) (n k : ℕ) : AudioAsrc :=
  { ctx with phase := UInt64.ofNat (ctx.phase.toNat + k * ctx.step ppm - n * q32One) }

@[simp] theorem AudioAsrc.advance_stepBase (ctx : AudioAsrc) (ppm : ℤ) (n : ℕ) :
    (ctx.advance ppm n).stepBase = ctx.stepBase := by
  rw [advance]

@[simp] theorem AudioAsrc.carry_stepBase (ctx : AudioAsrc) (ppm : ℤ) (n k : ℕ) :
    (ctx.carry ppm n k).stepBase = ctx.stepBase := by
  rw [carry]

@[simp] theorem AudioAsrc.carry_step (ctx : AudioAsrc) (ppm ppm' : ℤ) (n k : ℕ) :
    (ctx.carry ppm n k).step ppm' = ctx.step ppm' := by
  rw [step, step, carry_stepBase]

section Advance

variable {ctx : AudioAsrc} {ppm : ℤ}

theorem AudioAsrc.lt_exit (hs : 0 < ctx.step ppm) (n : ℕ) :
    n * q32One < ctx.phase.toNat + ctx.dueFrames ppm n * ctx.step ppm :=
  lt_add_due hs _ _

/-- The phase that is carried never reaches the 64-bit range: it is at most one step, or what is
left of the old phase. -/
theorem AudioAsrc.exit_lt (hs : 0 < ctx.step ppm) (hlt : ctx.step ppm < 2 ^ 51) (n : ℕ) :
    ctx.phase.toNat + ctx.dueFrames ppm n * ctx.step ppm - n * q32One < 2 ^ 64 := by
  rcases Nat.lt_or_ge (n * q32One) ctx.phase.toNat with h | h
  · have h₀ : ctx.dueFrames ppm n = 0 := due_of_lt h
    have := ctx.phase.toNat_lt
    rw [h₀]
    omega
  · obtain ⟨k, hk⟩ : ∃ k, ctx.dueFrames ppm n = k + 1 := ⟨_, due_of_le hs h⟩
    have hk' : k < due (ctx.step ppm) (n * q32One) ctx.phase.toNat := by
      have : due (ctx.step ppm) (n * q32One) ctx.phase.toNat = k + 1 := hk
      omega
    have := add_mul_le_of_lt_due hs hk'
    rw [hk, Nat.add_mul]
    omega

theorem AudioAsrc.carry_phase (hs : 0 < ctx.step ppm) (hlt : ctx.step ppm < 2 ^ 51) {n k : ℕ}
    (hk : k ≤ ctx.dueFrames ppm n) :
    (ctx.carry ppm n k).phase.toNat = ctx.phase.toNat + k * ctx.step ppm - n * q32One := by
  have hexit := AudioAsrc.exit_lt hs hlt n
  have hle : k * ctx.step ppm ≤ ctx.dueFrames ppm n * ctx.step ppm := Nat.mul_le_mul_right _ hk
  have hbound : ctx.phase.toNat + k * ctx.step ppm - n * q32One < 2 ^ 64 := by omega
  exact UInt64.toNat_ofNat_of_lt' hbound

theorem AudioAsrc.advance_phase (hs : 0 < ctx.step ppm) (hlt : ctx.step ppm < 2 ^ 51) (n : ℕ) :
    (ctx.advance ppm n).phase.toNat =
      ctx.phase.toNat + ctx.dueFrames ppm n * ctx.step ppm - n * q32One :=
  AudioAsrc.carry_phase hs hlt le_rfl

/-- Carrying on behind `k` of the frames due for `m` leaves the rest of the frames due for
`m + n`. -/
theorem AudioAsrc.dueFrames_add (hs : 0 < ctx.step ppm) (hlt : ctx.step ppm < 2 ^ 51) {m k : ℕ}
    (hk : k ≤ ctx.dueFrames ppm m) (hexit : m * q32One ≤ ctx.phase.toNat + k * ctx.step ppm)
    (n : ℕ) :
    ctx.dueFrames ppm (m + n) = k + (ctx.carry ppm m k).dueFrames ppm n := by
  have hmono : ctx.dueFrames ppm m ≤ ctx.dueFrames ppm (m + n) :=
    due_mono (Nat.mul_le_mul_right q32One (Nat.le_add_right m n)) ctx.phase.toNat
  have hshift := due_add_right (ctx.step ppm) (n * q32One)
    (ctx.phase.toNat + k * ctx.step ppm - m * q32One) (m * q32One)
  rw [Nat.sub_add_cancel hexit, show n * q32One + m * q32One = (m + n) * q32One by ring]
    at hshift
  have hphase := AudioAsrc.carry_phase hs hlt hk
  unfold AudioAsrc.dueFrames at *
  rw [due_resume hs k _ (hk.trans hmono), hshift, carry_step, hphase]

theorem AudioAsrc.advance_add (hs : 0 < ctx.step ppm) (hlt : ctx.step ppm < 2 ^ 51) {m k : ℕ}
    (hk : k ≤ ctx.dueFrames ppm m) (hexit : m * q32One ≤ ctx.phase.toNat + k * ctx.step ppm)
    (n : ℕ) :
    ctx.advance ppm (m + n) = (ctx.carry ppm m k).advance ppm n := by
  have hphase := AudioAsrc.carry_phase hs hlt hk
  rw [advance, advance, AudioAsrc.mk.injEq]
  refine ⟨congrArg _ ?_, (carry_stepBase ..).symm⟩
  rw [hphase, carry_step, dueFrames_add hs hlt hk hexit, Nat.add_mul, Nat.add_mul]
  omega

end Advance

/-! ### One roomy call -/

section Roomy

variable {s : Session} {ppm : ℤ}

theorem Session.Ok.step_bounds (h : s.Ok) (h₁ : -maxPpm ≤ ppm) (h₂ : ppm ≤ maxPpm) :
    0 < s.ctx.step ppm ∧ s.ctx.step ppm < 2 ^ 51 :=
  computeStep_bounds h.step_pos h.step_lt h₁ h₂

theorem Session.Ok.process_ne_einval (h : s.Ok) (h₁ : -maxPpm ≤ ppm) (h₂ : ppm ≤ maxPpm)
    (frames : List Frame) (capacity : ℕ) :
    process s.ctx frames capacity ppm s.prev s.prevValid ≠ .einval := by
  have hstep : computeStep s.ctx.stepBase.toNat ppm ≠ 0 := (h.step_bounds h₁ h₂).1.ne'
  unfold process
  rw [if_neg (by omega), if_neg hstep]
  dsimp only
  split_ifs <;> exact nofun

namespace Session

/-- The session after the frames `frames`, all due frames written. -/
def fedBy (ppm : ℤ) (s : Session) (frames : List Frame) : Session :=
  ⟨s.ctx.advance ppm frames.length, frames.getD (frames.length - 1) default, true⟩

/-- The frames that are due while `frames` are fed. -/
def output (ppm : ℤ) (s : Session) (frames : List Frame) : List Frame :=
  render interpFrame q32One (ext s.prev frames) (s.ctx.step ppm) (frames.length * q32One)
    s.ctx.phase.toNat

/-- The session after the frames `frames`, `k` of the due frames written. -/
def carriedBy (ppm : ℤ) (s : Session) (frames : List Frame) (k : ℕ) : Session :=
  ⟨s.ctx.carry ppm frames.length k, frames.getD (frames.length - 1) default, true⟩

theorem Ok.carriedBy (h : s.Ok) (frames : List Frame) (k : ℕ) : (s.carriedBy ppm frames k).Ok :=
  ⟨by simpa [Session.carriedBy] using h.step_pos, by simpa [Session.carriedBy] using h.step_lt,
    .inl rfl⟩

theorem Ok.fedBy (h : s.Ok) (frames : List Frame) : (s.fedBy ppm frames).Ok :=
  ⟨by simpa [Session.fedBy] using h.step_pos, by simpa [Session.fedBy] using h.step_lt, .inl rfl⟩

end Session

/-- The exit of a call, in terms of what its loop leaves. -/
theorem process_of_loop {ctx : AudioAsrc} {input out : List Frame} {capacity phase : ℕ}
    {prev : Frame} {prevValid : Bool} (h₁ : -maxPpm ≤ ppm) (h₂ : ppm ≤ maxPpm)
    (hne : 0 < input.length) (hcap : 0 < capacity) (hs : 0 < ctx.step ppm)
    (hloop : loop (ctx.step ppm) input prev prevValid capacity ctx.phase.toNat = (out, phase))
    (hphase : input.length * q32One ≤ phase) :
    process ctx input capacity ppm prev prevValid =
      .done { ctx with phase := UInt64.ofNat (phase - input.length * q32One) } out input.length
        (some (input.getD (input.length - 1) default)) := by
  rw [q32One] at *
  have hcons : min (phase / 2 ^ 32) input.length = input.length := by omega
  rw [AudioAsrc.step] at hloop hs
  rw [process, if_neg (by omega), if_neg (by omega), if_neg (by omega)]
  simp only [hloop, hcons]
  rw [if_neg (by omega), if_neg (by omega)]

/-- The exit of a call whose buffer is full before the input is consumed. -/
theorem process_full_of_loop {ctx : AudioAsrc} {input out : List Frame} {capacity phase : ℕ}
    {prev : Frame} {prevValid : Bool} (h₁ : -maxPpm ≤ ppm) (h₂ : ppm ≤ maxPpm)
    (hne : 0 < input.length) (hcap : 0 < capacity) (hs : 0 < ctx.step ppm)
    (hloop : loop (ctx.step ppm) input prev prevValid capacity ctx.phase.toNat = (out, phase))
    (hlen : out.length = capacity) (hphase : phase < input.length * q32One) :
    process ctx input capacity ppm prev prevValid = .full out (phase / 2 ^ 32) := by
  rw [q32One] at hphase
  have hcons : min (phase / 2 ^ 32) input.length = phase / 2 ^ 32 := by omega
  rw [AudioAsrc.step] at hloop hs
  rw [process, if_neg (by omega), if_neg (by omega), if_neg (by omega)]
  simp only [hloop, hcons]
  rw [if_neg (by omega), if_pos ⟨hlen, by omega⟩]

/-- The loop of a call on a block stops behind the first `min capacity due` due frames. -/
theorem loop_block (h : s.Ok) (h₁ : -maxPpm ≤ ppm) (h₂ : ppm ≤ maxPpm) (b : Block)
    (capacity : ℕ) :
    loop (s.ctx.step ppm) b.frames s.prev s.prevValid capacity s.ctx.phase.toNat =
      ((s.output ppm b.frames).take (min capacity (s.ctx.dueFrames ppm b.frames.length)),
        s.ctx.phase.toNat +
          min capacity (s.ctx.dueFrames ppm b.frames.length) * s.ctx.step ppm) := by
  obtain ⟨hs, hlt⟩ := h.step_bounds h₁ h₂
  have hwrap : b.frames.length * q32One + s.ctx.step ppm < 2 ^ 64 := by
    have := b.fits
    rw [q32One]
    omega
  have hlen : (s.output ppm b.frames).length = s.ctx.dueFrames ppm b.frames.length :=
    length_render ..
  rw [loop_eq hs b.nonempty hwrap capacity _ h.seeded, ← hlen, ← List.take_eq_take_min, hlen]
  rfl

/-- **A call that returns `0` takes its whole block.**  It wrote the first `k` of the frames that
are due, and the phase behind them is not before the last input frame. -/
theorem process_taken (h : s.Ok) (h₁ : -maxPpm ≤ ppm) (h₂ : ppm ≤ maxPpm) {b : Block}
    {capacity : ℕ}
    (haccept : ∀ out n, process s.ctx b.frames capacity ppm s.prev s.prevValid ≠ .full out n) :
    ∃ k ≤ s.ctx.dueFrames ppm b.frames.length,
      b.frames.length * q32One ≤ s.ctx.phase.toNat + k * s.ctx.step ppm ∧
      process s.ctx b.frames capacity ppm s.prev s.prevValid =
        .done (s.ctx.carry ppm b.frames.length k) ((s.output ppm b.frames).take k)
          b.frames.length (some b.last) := by
  obtain ⟨hs, hlt⟩ := h.step_bounds h₁ h₂
  have hcap : 0 < capacity := by
    rw [Nat.pos_iff_ne_zero]
    rintro rfl
    refine haccept [] 0 ?_
    rw [process, if_neg (by omega), if_neg b.length_pos.ne', if_pos rfl]
  have hloop := loop_block h h₁ h₂ b capacity
  set k := min capacity (s.ctx.dueFrames ppm b.frames.length) with hk
  have hexit : b.frames.length * q32One ≤ s.ctx.phase.toNat + k * s.ctx.step ppm := by
    by_contra hphase
    -- fewer frames than are due, so the buffer is full
    have hlt_due : k ≠ s.ctx.dueFrames ppm b.frames.length := by
      intro heq
      have := AudioAsrc.lt_exit hs b.frames.length
      rw [heq] at hphase
      omega
    have hlen : ((s.output ppm b.frames).take k).length = capacity := by
      rw [List.length_take, Session.output, length_render, ← AudioAsrc.dueFrames]
      omega
    exact haccept _ _ (process_full_of_loop h₁ h₂ b.length_pos hcap hs hloop hlen (by omega))
  exact ⟨k, min_le_right _ _, hexit, process_of_loop h₁ h₂ b.length_pos hcap hs hloop hexit⟩

/-- **A roomy call takes its whole block** and writes every frame that is due. -/
theorem process_done (h : s.Ok) (h₁ : -maxPpm ≤ ppm) (h₂ : ppm ≤ maxPpm) {b : Block}
    {capacity : ℕ} (hr : Roomy s.ctx ppm b capacity) :
    process s.ctx b.frames capacity ppm s.prev s.prevValid =
      .done (s.ctx.advance ppm b.frames.length) (s.output ppm b.frames) b.frames.length
        (some b.last) := by
  obtain ⟨hs, -⟩ := h.step_bounds h₁ h₂
  have hloop := loop_block h h₁ h₂ b capacity
  have hall : (s.output ppm b.frames).take (s.ctx.dueFrames ppm b.frames.length) =
      s.output ppm b.frames := List.take_of_length_le (length_render ..).le
  rw [Nat.min_eq_right hr.2, hall] at hloop
  exact process_of_loop h₁ h₂ b.length_pos hr.1 hs hloop (AudioAsrc.lt_exit hs _).le

theorem Session.feed_eq (h : s.Ok) (h₁ : -maxPpm ≤ ppm) (h₂ : ppm ≤ maxPpm) {b : Block}
    {capacity : ℕ} (hr : Roomy s.ctx ppm b capacity) :
    s.feed ppm b capacity = some (s.fedBy ppm b.frames, s.output ppm b.frames) := by
  simp only [Session.feed, process_done h h₁ h₂ hr]
  rfl

end Roomy

/-! ### Splitting the input -/

section Append

variable {s : Session} {ppm : ℤ}

theorem getD_last_append (A : List Frame) {B : List Frame} (hB : B ≠ []) :
    (A ++ B).getD ((A ++ B).length - 1) default = B.getD (B.length - 1) default := by
  have := List.length_pos_of_ne_nil hB
  rw [List.getD_append_right _ _ _ _ (by simp; omega)]
  congr 1
  simp
  omega

theorem ext_append_left (prev : Frame) (A B : List Frame) {i : ℕ} (h : i ≤ A.length) :
    ext prev (A ++ B) i = ext prev A i := by
  cases i with
  | zero => rfl
  | succ i => simp only [ext_succ, List.getD_append _ _ _ _ (show i < A.length by omega)]

/-- Behind its first block a sequence continues as if the last frame were the previous one. -/
theorem ext_append_right (prev : Frame) {A : List Frame} (hA : A ≠ []) (B : List Frame) (i : ℕ) :
    ext prev (A ++ B) (A.length + i) = ext (A.getD (A.length - 1) default) B i := by
  obtain ⟨n, hn⟩ : ∃ n, A.length = n + 1 := Nat.exists_eq_add_one.2 (List.length_pos_of_ne_nil hA)
  cases i with
  | zero =>
    rw [Nat.add_zero, ext_append_left _ _ _ le_rfl, hn, ext_succ, ext_zero, Nat.add_sub_cancel]
  | succ i =>
    rw [← Nat.add_assoc, ext_succ, ext_succ, List.getD_append_right _ _ _ _ (by omega),
      Nat.add_sub_cancel_left]

namespace Session

theorem fedBy_append (h : s.Ok) (h₁ : -maxPpm ≤ ppm) (h₂ : ppm ≤ maxPpm) {A : List Frame} {k : ℕ}
    (hk : k ≤ s.ctx.dueFrames ppm A.length)
    (hexit : A.length * q32One ≤ s.ctx.phase.toNat + k * s.ctx.step ppm) {B : List Frame}
    (hB : B ≠ []) :
    s.fedBy ppm (A ++ B) = (s.carriedBy ppm A k).fedBy ppm B := by
  obtain ⟨hs, hlt⟩ := h.step_bounds h₁ h₂
  rw [fedBy, fedBy, carriedBy, getD_last_append A hB, List.length_append,
    AudioAsrc.advance_add hs hlt hk hexit]

/-- The frames due for `A ++ B` are the `k` frames written for `A` and those that are due for `B`
from there. -/
theorem output_append (h : s.Ok) (h₁ : -maxPpm ≤ ppm) (h₂ : ppm ≤ maxPpm) {A : List Frame} {k : ℕ}
    (hA : A ≠ []) (hk : k ≤ s.ctx.dueFrames ppm A.length)
    (hexit : A.length * q32One ≤ s.ctx.phase.toNat + k * s.ctx.step ppm) (B : List Frame) :
    s.output ppm (A ++ B) = (s.output ppm A).take k ++ (s.carriedBy ppm A k).output ppm B := by
  obtain ⟨hs, hlt⟩ := h.step_bounds h₁ h₂
  have hq : 0 < q32One := by decide
  have hphase := AudioAsrc.carry_phase hs hlt hk
  have hl : A.length * q32One ≤ (A ++ B).length * q32One :=
    Nat.mul_le_mul_right _ (by simp)
  have hA_only : render interpFrame q32One (ext s.prev (A ++ B)) (s.ctx.step ppm)
      (A.length * q32One) s.ctx.phase.toNat = s.output ppm A :=
    render_congr hq hs fun i _ hi => ext_append_left _ _ _ hi
  have hrest : render interpFrame q32One (ext s.prev (A ++ B)) (s.ctx.step ppm)
      ((A ++ B).length * q32One) (s.ctx.phase.toNat + k * s.ctx.step ppm) =
        (s.carriedBy ppm A k).output ppm B := by
    rw [output, carriedBy, AudioAsrc.carry_step, ← funext (ext_append_right s.prev hA B),
      render_shift hq, hphase, Nat.sub_add_cancel hexit, List.length_append, Nat.add_comm A.length,
      Nat.add_mul]
  rw [output, render_resume hs hl hk, hA_only, hrest]

/-- The frames of a sequence of blocks. -/
def framesOf (bs : List (Block × ℕ)) : List Frame := bs.flatMap fun b => b.1.frames

theorem framesOf_ne_nil {bs : List (Block × ℕ)} (h : bs ≠ []) : framesOf bs ≠ [] := by
  obtain ⟨b, bs, rfl⟩ := List.exists_cons_of_ne_nil h
  simp [framesOf, b.1.nonempty]

theorem feed_taken (h : s.Ok) (h₁ : -maxPpm ≤ ppm) (h₂ : ppm ≤ maxPpm) {b : Block} {capacity : ℕ}
    {s' : Session} {out : List Frame} (hfeed : s.feed ppm b capacity = some (s', out)) :
    ∃ k ≤ s.ctx.dueFrames ppm b.frames.length,
      b.frames.length * q32One ≤ s.ctx.phase.toNat + k * s.ctx.step ppm ∧
      s' = s.carriedBy ppm b.frames k ∧ out = (s.output ppm b.frames).take k := by
  have haccept (out n) : process s.ctx b.frames capacity ppm s.prev s.prevValid ≠ .full out n := by
    intro hfull
    rw [feed, hfull] at hfeed
    cases hfeed
  obtain ⟨k, hk, hexit, hproc⟩ := process_taken h h₁ h₂ haccept
  rw [feed, hproc] at hfeed
  obtain ⟨rfl, rfl⟩ := Prod.mk.inj (Option.some.inj hfeed)
  exact ⟨k, hk, hexit, rfl, rfl⟩

/-- A run depends on the frames it is fed and not on the way they are cut. -/
theorem run_eq_of_accepted (h₁ : -maxPpm ≤ ppm) (h₂ : ppm ≤ maxPpm) :
    ∀ {bs : List (Block × ℕ)} {s : Session}, s.Ok → s.AcceptedRun ppm bs → bs ≠ [] →
      s.run ppm bs = some (s.fedBy ppm (framesOf bs), s.output ppm (framesOf bs)) := by
  intro bs
  induction bs with
  | nil => intro s _ _ hne; exact absurd rfl hne
  | cons b bs ih =>
    intro s hok hrun _
    obtain ⟨b, capacity⟩ := b
    cases bs with
    | nil => simp [run, feed_eq hok h₁ h₂ hrun, framesOf]
    | cons c bs =>
      obtain ⟨s', out, hfeed, hrest⟩ := hrun
      have hframes : framesOf ((b, capacity) :: c :: bs) = b.frames ++ framesOf (c :: bs) := rfl
      have hne : framesOf (c :: bs) ≠ [] := framesOf_ne_nil (by simp)
      obtain ⟨k, hk, hexit, rfl, rfl⟩ := feed_taken hok h₁ h₂ hfeed
      rw [run, hfeed, Option.bind_some, ih (hok.carriedBy _ k) hrest (by simp), Option.map_some,
        hframes, fedBy_append hok h₁ h₂ hk hexit hne,
        output_append hok h₁ h₂ b.nonempty hk hexit]

theorem RoomyRun.accepted (h₁ : -maxPpm ≤ ppm) (h₂ : ppm ≤ maxPpm) :
    ∀ {bs : List (Block × ℕ)} {s : Session}, s.Ok → s.RoomyRun ppm bs → s.AcceptedRun ppm bs := by
  intro bs
  induction bs with
  | nil => intro _ _ _; trivial
  | cons b bs ih =>
    intro s hok hroom
    obtain ⟨b, capacity⟩ := b
    obtain ⟨hr, hrest⟩ := hroom
    have hfeed := feed_eq hok h₁ h₂ hr
    cases bs with
    | nil => exact hr
    | cons c bs => exact ⟨_, _, hfeed, ih (hok.fedBy _) (hrest _ _ hfeed)⟩

theorem run_eq (h₁ : -maxPpm ≤ ppm) (h₂ : ppm ≤ maxPpm) {bs : List (Block × ℕ)} {s : Session}
    (hok : s.Ok) (hroom : s.RoomyRun ppm bs) (hne : bs ≠ []) :
    s.run ppm bs = some (s.fedBy ppm (framesOf bs), s.output ppm (framesOf bs)) :=
  run_eq_of_accepted h₁ h₂ hok (hroom.accepted h₁ h₂ hok) hne

end Session

end Append

/-! ### Reachable sessions -/

theorem toNat_q32One : (UInt64.ofNat q32One).toNat = q32One := by decide

theorem init_bounds {inRate outRate : ℕ} {ctx : AudioAsrc} (h : init inRate outRate = some ctx) :
    0 < ctx.stepBase.toNat ∧ ctx.stepBase.toNat < 2 ^ 50 ∧ ctx.phase.toNat = q32One := by
  unfold init rateMin rateMax at h
  dsimp only at h
  split_ifs at h with h₁ h₂ h₃
  obtain rfl := Option.some.inj h
  have hlt : (inRate * q32One + outRate / 2) / outRate < 2 ^ 50 := by
    refine lt_of_le_of_lt (Nat.div_le_self _ _) ?_
    rw [q32One]
    omega
  have hstep : (UInt64.ofNat ((inRate * q32One + outRate / 2) / outRate)).toNat =
      (inRate * q32One + outRate / 2) / outRate :=
    UInt64.toNat_ofNat_of_lt' (lt_trans hlt (by decide))
  refine ⟨?_, ?_, toNat_q32One⟩
  · rw [hstep]; omega
  · rwa [hstep]

theorem Session.Reachable.ok {s : Session} (h : s.Reachable) : s.Ok := by
  induction h with
  | init prev prevValid hinit =>
    obtain ⟨hpos, hlt, hphase⟩ := init_bounds hinit
    exact ⟨hpos, hlt, .inr hphase.ge⟩
  | reset prev prevValid _ ih => exact ⟨ih.step_pos, ih.step_lt, .inr toNat_q32One.ge⟩
  | feed _ hfeed ih =>
    unfold Session.feed at hfeed
    split at hfeed
    · rename_i hproc
      obtain ⟨rfl, -⟩ := Prod.mk.inj (Option.some.inj hfeed)
      have hstep := process_stepBase hproc
      exact ⟨hstep ▸ ih.step_pos, hstep ▸ ih.step_lt, .inl rfl⟩
    · cases hfeed

/-- **Cutting the input does not change the output.**  From every reachable session and for every
correction, a call on `A ++ B` returns the frames, the context and the last frame that a call on
`A` followed by one on `B` return; and two runs that feed the same frames in blocks of any sizes
end in the same session with the same output.  Of a call with a successor it is only asked that
it does not return `1`; the last call of each side has room for the frames that are due. -/
theorem process_append {s : Session} (hs : s.Reachable) {ppm : ℤ} (h₁ : -maxPpm ≤ ppm)
    (h₂ : ppm ≤ maxPpm) :
    (∀ (A B AB : Block) (capA capB capAB : ℕ), AB.frames = A.frames ++ B.frames →
      (∀ out n, process s.ctx A.frames capA ppm s.prev s.prevValid ≠ .full out n) →
      Roomy s.ctx ppm AB capAB →
      ∃ ctxA outA, process s.ctx A.frames capA ppm s.prev s.prevValid =
          .done ctxA outA A.frames.length (some A.last) ∧
        (Roomy ctxA ppm B capB →
          ∃ ctxB outB, process ctxA B.frames capB ppm A.last true =
              .done ctxB outB B.frames.length (some B.last) ∧
            process s.ctx AB.frames capAB ppm s.prev s.prevValid =
              .done ctxB (outA ++ outB) (A.frames.length + B.frames.length) (some B.last))) ∧
    ∀ bs bs' : List (Block × ℕ), bs ≠ [] → bs' ≠ [] → s.AcceptedRun ppm bs →
      s.AcceptedRun ppm bs' → Session.framesOf bs = Session.framesOf bs' →
      ∃ r, s.run ppm bs = some r ∧ s.run ppm bs' = some r := by
  have hok := hs.ok
  obtain ⟨hstep, hlt⟩ := hok.step_bounds h₁ h₂
  refine ⟨?_, ?_⟩
  · intro A B AB capA capB capAB hAB hA hAB'
    obtain ⟨k, hk, hexit, hdoneA⟩ := process_taken hok h₁ h₂ hA
    refine ⟨_, _, hdoneA, fun hB => ⟨_, _,
      process_done (s := s.carriedBy ppm A.frames k) (hok.carriedBy _ k) h₁ h₂ hB, ?_⟩⟩
    rw [process_done hok h₁ h₂ hAB', Block.last, Block.last, hAB,
      Session.output_append hok h₁ h₂ A.nonempty hk hexit, getD_last_append _ B.nonempty,
      List.length_append, AudioAsrc.advance_add hstep hlt hk hexit]
    rfl
  · intro bs bs' hne hne' hrun hrun' hframes
    exact ⟨_, Session.run_eq_of_accepted h₁ h₂ hok hrun hne,
      hframes ▸ Session.run_eq_of_accepted h₁ h₂ hok hrun' hne'⟩

/-- A fresh 48 kHz session.  The first of two calls is one frame short and returns `0`, with the
phase carried at `0`; the second call writes that frame before its own. -/
theorem process_append_short :
    ∃ r, (Session.mk ⟨4294967296, 4294967296⟩ ⟨0, 0⟩ false).run 0
        [(⟨[⟨1, 2⟩, ⟨3, 4⟩], by decide, by decide⟩, 1), (⟨[⟨5, 6⟩], by decide, by decide⟩, 2)] =
          some r ∧
      (Session.mk ⟨4294967296, 4294967296⟩ ⟨0, 0⟩ false).run 0
        [(⟨[⟨1, 2⟩, ⟨3, 4⟩, ⟨5, 6⟩], by decide, by decide⟩, 3)] = some r := by
  have hinit : init 48000 48000 = some ⟨4294967296, 4294967296⟩ := by decide
  have hreach := Session.Reachable.init ⟨0, 0⟩ false hinit
  have hfirst : (Session.mk ⟨4294967296, 4294967296⟩ ⟨0, 0⟩ false).feed 0
      ⟨[⟨1, 2⟩, ⟨3, 4⟩], by decide, by decide⟩ 1 =
        some (⟨⟨0, 4294967296⟩, ⟨3, 4⟩, true⟩, [⟨1, 2⟩]) := by decide
  refine (@process_append _ hreach 0 (by decide) (by decide)).2 _ _
    (by simp) (by simp) ⟨_, _, hfirst, ?_⟩ ?_ rfl
  · exact ⟨by decide, by decide⟩
  · exact ⟨by decide, by decide⟩

/-- A buffer that is one frame too small is accepted when the frame that does not fit lies on the
last input frame: all three calls return `0`, but the single call writes one frame where the two
calls write two, and it leaves the phase at `0`, so that the next call starts with that frame. -/
theorem process_append_tight :
    init 48000 48000 = some ⟨4294967296, 4294967296⟩ ∧
    process ⟨4294967296, 4294967296⟩ [⟨1, 2⟩] 1 0 ⟨0, 0⟩ false =
      .done ⟨4294967296, 4294967296⟩ [⟨1, 2⟩] 1 (some ⟨1, 2⟩) ∧
    process ⟨4294967296, 4294967296⟩ [⟨3, 4⟩] 1 0 ⟨1, 2⟩ true =
      .done ⟨4294967296, 4294967296⟩ [⟨3, 4⟩] 1 (some ⟨3, 4⟩) ∧
    process ⟨4294967296, 4294967296⟩ [⟨1, 2⟩, ⟨3, 4⟩] 1 0 ⟨0, 0⟩ false =
      .done ⟨0, 4294967296⟩ [⟨1, 2⟩] 2 (some ⟨3, 4⟩) := by
  decide

end Asrc

end LeAudioReceiver
