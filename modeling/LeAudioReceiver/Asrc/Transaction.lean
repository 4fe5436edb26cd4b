import LeAudioReceiver.Asrc.Checked

/-!
# Converter calls are transactions

`Args.run` is `audio_asrc_process` on the memory that its pointers refer to: the outputs are written
into the caller's buffer one by one, and the context and the carried frame are stored at the end, or
not at all.

* `Args.run_eq` : the memory after a call, in terms of the result of `process`;
* `Args.call_eq` : the exits of a call, decided by `Exhausts`;
* `Args.transactional` : **a call that does not return `0` leaves the context and the carried frame
  as they were, and the same block with more room gives what it would have given at first.**

The caller is free to pass any previous frame, also none for a block that is not the first one: the
code then falls back to the first input frame, which is what interpolating from an equal frame gives
(`emit_noPrev`).
-/

namespace LeAudioReceiver

namespace Asrc

open Resample

/-! ### The memory of a call -/

/-- What the output pointers of a call refer to. -/
structure Outputs where
  /-- The output buffer. -/
  output : List Frame
  inputConsumed : ℕ
  outputProduced : ℕ
  /-- `next_prev_l` and `next_prev_r`. -/
  nextPrev : Frame
  deriving DecidableEq

/-- The memory that a call can write. -/
structure Memory extends Outputs where
  ctx : AudioAsrc
  deriving DecidableEq

/-- The frames that a call has reported. -/
def Memory.written (m : Memory) : List Frame := m.output.take m.outputProduced

/-- The arguments of a call. -/
structure Args where
  /-- Whether one of the pointers is `NULL`. -/
  null : Bool
  input : List Frame
  /-- The input buffer fits the address space. -/
  fits : input.length < 2 ^ 30
  outputCapacity : ℕ
  correctionPpm : ℤ
  prev : Frame
  prevValid : Bool

/-- `EINVAL`. -/
def errEinval : ℤ := 22

/-- The `while` loop with `out` frames in the buffer and room for `room` more: the frames in the
buffer, the phase and the buffer at the exit. -/
def writeLoop (step : ℕ) (input : List Frame) (prev : Frame) (prevValid : Bool) :
    ℕ → ℕ → ℕ → List Frame → ℕ × ℕ × List Frame
  | 0, out, phase, output => (out, phase, output)
  | room + 1, out, phase, output =>
    match emit input prev prevValid (phase / 2 ^ 32) (phase % 2 ^ 32) with
    | none => (out, phase, output)
    | some f =>
      let output := output.set out f
      let phase' := (phase + step) % 2 ^ 64
      -- the wrap guard
      if phase' < step then (out + 1, phase', output)
      else writeLoop step input prev prevValid room (out + 1) phase' output

namespace Args

variable (a : Args)

/-- `audio_asrc_process`: the return value and the memory after the call. -/
def run (m : Memory) : ℤ × Memory :=
  if a.null then (-errEinval, m)
  else if a.correctionPpm < -maxPpm ∨ a.correctionPpm > maxPpm then (-errEinval, m)
  else if a.input.length = 0 then (0, { m with inputConsumed := 0, outputProduced := 0 })
  else if a.outputCapacity = 0 then (1, { m with inputConsumed := 0, outputProduced := 0 })
  else
    let step := computeStep m.ctx.stepBase.toNat a.correctionPpm
    if step = 0 then (-errEinval, m)
    else
      let (out, phase, output) := writeLoop step a.input a.prev a.prevValid a.outputCapacity 0
        m.ctx.phase.toNat m.output
      let consumed := min (phase / 2 ^ 32) a.input.length
      -- the reports are stored on either exit, the rest only below
      let m := { m with output := output, inputConsumed := consumed, outputProduced := out }
      if out = a.outputCapacity ∧ consumed < a.input.length then (1, m)
      else
        (0, { m with
          ctx := { m.ctx with phase := UInt64.ofNat (phase - consumed * 2 ^ 32) }
          nextPrev := a.input.getD (a.input.length - 1) default })

/-- The result of a call without its memory. -/
def call (ctx : AudioAsrc) : ProcessResult :=
  if a.null then .einval
  else process ctx a.input a.outputCapacity a.correctionPpm a.prev a.prevValid

/-- The same block with another capacity. -/
def withCapacity (capacity : ℕ) : Args := { a with outputCapacity := capacity }

end Args

/-- The value that a call returns. -/
def ProcessResult.ret : ProcessResult → ℤ
  | .einval => -errEinval
  | .done _ _ _ _ => 0
  | .full _ _ => 1

/-- The memory that a call leaves. -/
def ProcessResult.store (m : Memory) : ProcessResult → Memory
  | .einval => m
  | .done ctx out consumed next =>
    { output := out ++ m.output.drop out.length, inputConsumed := consumed
      outputProduced := out.length, nextPrev := next.getD m.nextPrev, ctx := ctx }
  | .full out consumed =>
    { m with
      output := out ++ m.output.drop out.length, inputConsumed := consumed
      outputProduced := out.length }

/-! ### The memory holds what the call returns -/

section Store

variable {step : ℕ} {input : List Frame} {prev : Frame} {prevValid : Bool}

theorem writeLoop_eq : ∀ room out phase (output : List Frame), out + room ≤ output.length →
    writeLoop step input prev prevValid room out phase output =
      (out + (loop step input prev prevValid room phase).1.length,
        (loop step input prev prevValid room phase).2,
        output.take out ++ (loop step input prev prevValid room phase).1 ++
          output.drop (out + (loop step input prev prevValid room phase).1.length)) := by
  intro room
  induction room with
  | zero => intro out phase output _; simp [writeLoop, loop]
  | succ room ih =>
    intro out phase output hroom
    rw [writeLoop, loop]
    cases emit input prev prevValid (phase / 2 ^ 32) (phase % 2 ^ 32) with
    | none => simp
    | some f =>
      have hset : output.set out f = output.take out ++ f :: output.drop (out + 1) := by
        rw [List.set_eq_take_append_cons_drop, if_pos (by omega)]
      have hlen : (output.take out).length = out := List.length_take_of_le (by omega)
      have htake : (output.set out f).take (out + 1) = output.take out ++ [f] := by
        rw [hset, List.take_append, hlen, Nat.add_sub_cancel_left]
        simp [hlen]
      dsimp only
      split_ifs
      · simp [hset]
      · -- the next frame goes one further on
        have hdrop : ∀ n, (output.set out f).drop (out + 1 + n) = output.drop (out + (n + 1)) := by
          intro n
          rw [List.drop_set_of_lt (by omega)]
          congr 1
          omega
        rw [ih (out + 1) _ _ (by rw [List.length_set]; omega), htake, hdrop]
        simp [Nat.add_assoc, Nat.add_comm 1]

namespace Args

variable {a : Args} {m : Memory}

/-- **The memory after a call** is the one that its result describes. -/
theorem run_eq (hbuffer : a.outputCapacity ≤ m.output.length) :
    a.run m = ((a.call m.ctx).ret, (a.call m.ctx).store m) := by
  unfold run call process
  by_cases hnull : a.null = true
  · rw [if_pos hnull, if_pos hnull]
    rfl
  rw [if_neg hnull, if_neg hnull]
  by_cases hppm : a.correctionPpm < -maxPpm ∨ a.correctionPpm > maxPpm
  · rw [if_pos hppm, if_pos hppm]
    rfl
  rw [if_neg hppm, if_neg hppm]
  by_cases hne : a.input.length = 0
  · rw [if_pos hne, if_pos hne]
    rfl
  rw [if_neg hne, if_neg hne]
  by_cases hcap : a.outputCapacity = 0
  · rw [if_pos hcap, if_pos hcap]
    rfl
  rw [if_neg hcap, if_neg hcap]
  dsimp only
  by_cases hstep : computeStep m.ctx.stepBase.toNat a.correctionPpm = 0
  · rw [if_pos hstep, if_pos hstep]
    rfl
  rw [if_neg hstep, if_neg hstep, writeLoop_eq _ _ _ _ (by omega)]
  simp only [Nat.zero_add, List.take_zero, List.nil_append]
  split_ifs
  · rfl
  · rfl

theorem store_stepBase (o : Outputs) (ctx : AudioAsrc) (phase : UInt64) :
    (Memory.mk o { ctx with phase := phase }).ctx.stepBase = ctx.stepBase := rfl

/-- The nominal step is fixed at the initialisation, whatever the buffers. -/
theorem run_stepBase : (a.run m).2.ctx.stepBase = m.ctx.stepBase := by
  unfold run
  by_cases hnull : a.null = true
  · rw [if_pos hnull]
  rw [if_neg hnull]
  by_cases hppm : a.correctionPpm < -maxPpm ∨ a.correctionPpm > maxPpm
  · rw [if_pos hppm]
  rw [if_neg hppm]
  by_cases hne : a.input.length = 0
  · rw [if_pos hne]
  rw [if_neg hne]
  by_cases hcap : a.outputCapacity = 0
  · rw [if_pos hcap]
  rw [if_neg hcap]
  dsimp only
  by_cases hstep : computeStep m.ctx.stepBase.toNat a.correctionPpm = 0
  · rw [if_pos hstep]
  rw [if_neg hstep]
  split_ifs
  · rfl
  · exact store_stepBase _ m.ctx _

end Args

end Store

/-! ### Calls without a previous frame -/

theorem interpS16_self (a : Int16) (frac : ℕ) : interpS16 a a frac = a := by
  have hsum : a.toInt * ((q32One : ℤ) - frac) + a.toInt * frac = a.toInt * q32One := by ring
  have hdiv : (a.toInt * (q32One : ℤ)).tdiv q32One = a.toInt := Int.mul_tdiv_cancel _ (by decide)
  have hround : ¬ (0 > (q32One : ℤ) / 2 ∨ 0 < -((q32One : ℤ) / 2) ∨ (0 : ℤ) = (q32One : ℤ) / 2 ∨
      (0 : ℤ) = -((q32One : ℤ) / 2)) := by decide
  simp only [interpS16, hsum, hdiv, sub_self, if_neg hround, Int16.ofInt_toInt]

/-- Without a previous frame the code behaves as if that had been the first input frame. -/
theorem emit_noPrev (input : List Frame) (prev : Frame) (pos frac : ℕ) :
    emit input prev false pos frac = emit input (input.getD 0 default) true pos frac := by
  unfold emit interpFrame
  simp only [interpS16_self, Bool.false_eq_true, if_false, if_true]

theorem loop_noPrev (step : ℕ) (input : List Frame) (prev : Frame) : ∀ room phase,
    loop step input prev false room phase =
      loop step input (input.getD 0 default) true room phase := by
  intro room
  induction room with
  | zero => intro phase; rfl
  | succ room ih =>
    intro phase
    simp only [loop, emit_noPrev, ih]

theorem process_noPrev (ctx : AudioAsrc) (input : List Frame) (capacity : ℕ) (ppm : ℤ)
    (prev : Frame) :
    process ctx input capacity ppm prev false =
      process ctx input capacity ppm (input.getD 0 default) true := by
  simp only [process, loop_noPrev]

/-! ### The exits -/

/-- What holds of a context between two calls. -/
structure AudioAsrc.Ok (ctx : AudioAsrc) : Prop where
  step_pos : 0 < ctx.stepBase.toNat
  step_lt : ctx.stepBase.toNat < 2 ^ 50

namespace Args

variable (a : Args)

/-- The arguments pass the checks on the pointers and on the correction. -/
def Accepted : Prop := a.null = false ∧ -maxPpm ≤ a.correctionPpm ∧ a.correctionPpm ≤ maxPpm

/-- The block yields more outputs than the buffer has room for, and those that fit leave whole
input frames unconsumed. -/
def Exhausts (ctx : AudioAsrc) : Prop :=
  a.outputCapacity < ctx.dueFrames a.correctionPpm a.input.length ∧
    (ctx.phase.toNat + a.outputCapacity * ctx.step a.correctionPpm) / 2 ^ 32 < a.input.length

instance (ctx : AudioAsrc) : Decidable (a.Exhausts ctx) := inferInstanceAs (Decidable (_ ∧ _))

/-- The frame in front of the block. -/
def history : Frame := if a.prevValid then a.prev else a.input.getD 0 default

/-- The outputs that the block yields. -/
def rendered (ctx : AudioAsrc) : List Frame :=
  render interpFrame q32One (ext a.history a.input) (ctx.step a.correctionPpm)
    (a.input.length * q32One) ctx.phase.toNat

@[simp] theorem length_rendered (ctx : AudioAsrc) :
    (a.rendered ctx).length = ctx.dueFrames a.correctionPpm a.input.length :=
  length_render _ _ _ _

variable {a} {ctx : AudioAsrc}

theorem call_accepted (hacc : a.Accepted) :
    a.call ctx =
      process ctx a.input a.outputCapacity a.correctionPpm a.history true := by
  rw [call, if_neg (by simp [hacc.1]), history]
  cases a.prevValid with
  | false => exact process_noPrev _ _ _ _ _
  | true => rfl

/-- Outputs that end below the last input frame are fewer than those that are due. -/
theorem exhausts_iff (hs : 0 < ctx.step a.correctionPpm) :
    a.Exhausts ctx ↔
      ctx.phase.toNat + a.outputCapacity * ctx.step a.correctionPpm <
        a.input.length * q32One := by
  unfold Exhausts
  constructor
  · intro h
    rw [q32One]
    omega
  · intro h
    refine ⟨?_, by rw [q32One] at h; omega⟩
    by_contra hge
    have hexit := AudioAsrc.lt_exit hs a.input.length
    have hmono := Nat.mul_le_mul_right (ctx.step a.correctionPpm) (Nat.not_lt.1 hge)
    omega

/-- **The exits of a call** on a block that is not empty, with a buffer that is not. -/
theorem call_eq (h : ctx.Ok) (hacc : a.Accepted) (hne : a.input ≠ [])
    (hcap : 0 < a.outputCapacity) :
    a.call ctx =
      if a.Exhausts ctx then
        .full ((a.rendered ctx).take a.outputCapacity)
          ((ctx.phase.toNat + a.outputCapacity * ctx.step a.correctionPpm) / 2 ^ 32)
      else
        .done
          { ctx with
            phase := UInt64.ofNat (ctx.phase.toNat +
              min a.outputCapacity (ctx.dueFrames a.correctionPpm a.input.length) *
                ctx.step a.correctionPpm - a.input.length * q32One) }
          ((a.rendered ctx).take a.outputCapacity) a.input.length
          (some (a.input.getD (a.input.length - 1) default)) := by
  obtain ⟨-, h₁, h₂⟩ := id hacc
  obtain ⟨hs, hlt⟩ := computeStep_bounds h.step_pos h.step_lt h₁ h₂
  have hs' : 0 < ctx.step a.correctionPpm := hs
  have hpos := List.length_pos_of_ne_nil hne
  have hwrap : a.input.length * q32One + ctx.step a.correctionPpm < 2 ^ 64 := by
    have hfits := a.fits
    rw [q32One, AudioAsrc.step]
    omega
  have hloop := @loop_eq _ _ a.history true hs' hne hwrap a.outputCapacity ctx.phase.toNat
    (.inl rfl)
  change _ = ((a.rendered ctx).take a.outputCapacity, ctx.phase.toNat +
    min a.outputCapacity (ctx.dueFrames a.correctionPpm a.input.length) * _) at hloop
  have hexit := AudioAsrc.lt_exit hs' a.input.length
  have hiff : a.Exhausts ctx ↔ _ := exhausts_iff hs'
  rw [call_accepted hacc]
  by_cases hfull : a.Exhausts ctx
  · have hmin := Nat.min_eq_left hfull.1.le
    have hlen : ((a.rendered ctx).take a.outputCapacity).length = a.outputCapacity := by
      rw [List.length_take, length_rendered, hmin]
    rw [hmin] at hloop
    rw [if_pos hfull, process_full_of_loop h₁ h₂ hpos hcap hs' hloop hlen (hiff.1 hfull)]
  · rw [if_neg hfull, process_of_loop h₁ h₂ hpos hcap hs' hloop]
    -- either all that is due is written, or what is written reaches the end of the input
    rcases Nat.le_total a.outputCapacity (ctx.dueFrames a.correctionPpm a.input.length)
      with hle | hle
    · rw [Nat.min_eq_left hle]
      exact Nat.not_lt.1 fun hlt => hfull (hiff.2 hlt)
    · rw [Nat.min_eq_right hle]
      exact hexit.le

theorem call_of_not_accepted (hacc : ¬ a.Accepted) : a.call ctx = .einval := by
  unfold Accepted at hacc
  unfold call
  by_cases hnull : a.null = true
  · rw [if_pos hnull]
  rw [if_neg hnull, process, if_pos]
  by_contra hppm
  exact hacc ⟨Bool.eq_false_iff.2 hnull, by omega⟩

theorem call_nil (hacc : a.Accepted) (hnil : a.input = []) : a.call ctx = .done ctx [] 0 none := by
  obtain ⟨-, h₁, h₂⟩ := id hacc
  rw [call_accepted hacc, process, if_neg (by omega), if_pos (by rw [hnil]; rfl)]

theorem call_zero (hacc : a.Accepted) (hne : a.input ≠ []) (hcap : a.outputCapacity = 0) :
    a.call ctx = .full [] 0 := by
  obtain ⟨-, h₁, h₂⟩ := id hacc
  rw [call_accepted hacc, process, if_neg (by omega),
    if_neg (List.length_pos_of_ne_nil hne).ne', if_pos hcap]

/-- **When a call returns `1`**: an empty buffer is turned away, another one has to be too small. -/
theorem ret_eq_one_iff (h : ctx.Ok) : (a.call ctx).ret = 1 ↔
    a.Accepted ∧ a.input ≠ [] ∧ (a.outputCapacity = 0 ∨ a.Exhausts ctx) := by
  by_cases hacc : a.Accepted
  case neg =>
    rw [call_of_not_accepted hacc]
    exact iff_of_false (by decide) fun h => hacc h.1
  by_cases hne : a.input = []
  · rw [call_nil hacc hne]
    exact iff_of_false (by simp [ProcessResult.ret]) fun h => h.2.1 hne
  rcases Nat.eq_zero_or_pos a.outputCapacity with hcap | hcap
  · rw [call_zero hacc hne hcap]
    exact iff_of_true rfl ⟨hacc, hne, .inl hcap⟩
  · rw [call_eq h hacc hne hcap]
    split_ifs with hfull
    · exact iff_of_true rfl ⟨hacc, hne, .inr hfull⟩
    · refine iff_of_false (by simp [ProcessResult.ret]) fun h => ?_
      rcases h.2.2 with h₀ | h₀
      · omega
      · exact hfull h₀

/-- What a call writes is the beginning of what the block yields. -/
theorem output_call (h : ctx.Ok) (hacc : a.Accepted) (hne : a.input ≠ []) :
    (a.call ctx).output = (a.rendered ctx).take a.outputCapacity := by
  rcases Nat.eq_zero_or_pos a.outputCapacity with hcap | hcap
  · rw [call_zero hacc hne hcap, hcap]
    rfl
  · rw [call_eq h hacc hne hcap]
    split_ifs
    · rfl
    · rfl

/-- Only a call that returns `0` stores the context and the carried frame. -/
theorem store_of_ret_ne_zero {r : ProcessResult} (hret : r.ret ≠ 0) (m : Memory) :
    (r.store m).ctx = m.ctx ∧ (r.store m).nextPrev = m.nextPrev := by
  cases r with
  | einval => exact ⟨rfl, rfl⟩
  | done ctx output consumed next => exact absurd rfl hret
  | full output consumed => exact ⟨rfl, rfl⟩

theorem written_store {r : ProcessResult} (hret : r ≠ .einval) (m : Memory) :
    (r.store m).written = r.output := by
  cases r with
  | einval => exact absurd rfl hret
  | done ctx output consumed next => exact List.take_left
  | full output consumed => exact List.take_left

/-- What a call stores does not depend on the buffers. -/
theorem store_congr {m m' : Memory} (hctx : m.ctx = m'.ctx) (hnext : m.nextPrev = m'.nextPrev)
    (r : ProcessResult) :
    (r.store m).ctx = (r.store m').ctx ∧ (r.store m).nextPrev = (r.store m').nextPrev := by
  cases r with
  | einval => exact ⟨hctx, hnext⟩
  | done ctx output consumed next => exact ⟨rfl, congrArg next.getD hnext⟩
  | full output consumed => exact ⟨hctx, hnext⟩

theorem call_ne_einval (h : ctx.Ok) (hacc : a.Accepted) : a.call ctx ≠ .einval := by
  by_cases hne : a.input = []
  · rw [call_nil hacc hne]
    exact nofun
  rcases Nat.eq_zero_or_pos a.outputCapacity with hcap | hcap
  · rw [call_zero hacc hne hcap]
    exact nofun
  · rw [call_eq h hacc hne hcap]
    split_ifs
    · exact nofun
    · exact nofun

/-- Room for what the block yields is enough. -/
theorem ret_of_roomy (h : ctx.Ok) (hacc : a.Accepted) (hcap : 0 < a.outputCapacity)
    (hroom : ctx.dueFrames a.correctionPpm a.input.length ≤ a.outputCapacity) :
    (a.call ctx).ret = 0 := by
  by_cases hne : a.input = []
  · rw [call_nil hacc hne]
    rfl
  · rw [call_eq h hacc hne hcap, if_neg fun hfull => absurd hfull.1 (Nat.not_lt.2 hroom)]
    rfl

theorem capacity_le {capacity : ℕ} (h : ctx.Ok) (hfull : (a.call ctx).ret = 1)
    (hdone : ((a.withCapacity capacity).call ctx).ret = 0) : a.outputCapacity ≤ capacity := by
  obtain ⟨hacc, hne, hshort⟩ := (ret_eq_one_iff h).1 hfull
  rcases hshort with hcap | hshort
  · rw [hcap]
    exact Nat.zero_le _
  by_contra hlt
  have hpos : 0 < ctx.step a.correctionPpm :=
    (computeStep_bounds h.step_pos h.step_lt hacc.2.1 hacc.2.2).1
  have hmono := Nat.mul_le_mul_right (ctx.step a.correctionPpm) (Nat.not_le.1 hlt).le
  have hreach := (exhausts_iff hpos).1 hshort
  have hone : ((a.withCapacity capacity).call ctx).ret = 1 := by
    refine (ret_eq_one_iff h).2
      ⟨hacc, hne, .inr ((exhausts_iff (a := a.withCapacity capacity) hpos).2 ?_)⟩
    exact lt_of_le_of_lt (Nat.add_le_add_left hmono _) hreach
  rw [hdone] at hone
  exact absurd hone (by decide)

end Args

/-! ### The contexts that a caller can have -/

/-- What a caller does with a context. -/
inductive Action where
  /-- A call, with buffers of its own. -/
  | process (a : Args) (o : Outputs)
  | reset

/-- A caller from the initialisation on, with any arguments. -/
def contexts (ctx : AudioAsrc) : Machine AudioAsrc Action where
  init s := s = ctx
  next s
    | .process a o => some (a.run ⟨o, s⟩).2.ctx
    | .reset => some (reset s)

theorem ok_of_reachable {inRate outRate : ℕ} {ctx₀ ctx : AudioAsrc}
    (hinit : init inRate outRate = some ctx₀) (hs : (contexts ctx₀).Reachable ctx) : ctx.Ok := by
  obtain ⟨hpos, hlt, -⟩ := init_bounds hinit
  have hbase : ctx.stepBase = ctx₀.stepBase := by
    refine hs.invariant (fun s h => congrArg AudioAsrc.stepBase h) fun s act s' h hnext => ?_
    cases act with
    | process a o =>
      obtain rfl := Option.some.inj hnext
      exact Args.run_stepBase.trans h
    | reset =>
      obtain rfl := Option.some.inj hnext
      exact h
  exact ⟨hbase ▸ hpos, hbase ▸ hlt⟩

/-- **Calls are transactions.**  Whatever the caller has done since the initialisation, and whatever
it passes:

* a call that does not return `0` leaves the context and the carried frame as they were;
* a call returns `1` exactly when its arguments are accepted, the block is not empty, and the
  buffer is empty or holds fewer outputs than the block yields, with whole input frames left behind
  those that fit;
* after a call that returned `1`, a call on the same block with any capacity, in any buffer, does
  what it would have done in its place: it returns the same value and leaves the same context, the
  same carried frame and the same outputs.  With room for what the block yields it returns `0`, and
  whenever it does, its outputs begin with those of the failed call. -/
theorem Args.transactional {inRate outRate : ℕ} {ctx₀ ctx : AudioAsrc}
    (hinit : init inRate outRate = some ctx₀) (hs : (contexts ctx₀).Reachable ctx)
    (a : Args) (o : Outputs) (hbuffer : a.outputCapacity ≤ o.output.length) :
    ((a.run ⟨o, ctx⟩).1 ≠ 0 →
      (a.run ⟨o, ctx⟩).2.ctx = ctx ∧ (a.run ⟨o, ctx⟩).2.nextPrev = o.nextPrev) ∧
    ((a.run ⟨o, ctx⟩).1 = 1 ↔
      a.Accepted ∧ a.input ≠ [] ∧ (a.outputCapacity = 0 ∨ a.Exhausts ctx)) ∧
    ∀ m, a.run ⟨o, ctx⟩ = (1, m) → ∀ (capacity : ℕ) (b b' : List Frame),
      capacity ≤ b.length → capacity ≤ b'.length →
      ∃ ret retry single, (a.withCapacity capacity).run { m with output := b } = (ret, retry) ∧
        (a.withCapacity capacity).run ⟨{ o with output := b' }, ctx⟩ = (ret, single) ∧
        retry.ctx = single.ctx ∧ retry.nextPrev = single.nextPrev ∧
        retry.written = single.written ∧
        (0 < capacity → ctx.dueFrames a.correctionPpm a.input.length ≤ capacity → ret = 0) ∧
        (ret = 0 → m.written <+: retry.written) := by
  have hok := ok_of_reachable hinit hs
  rw [run_eq hbuffer]
  refine ⟨fun hret => store_of_ret_ne_zero hret ⟨o, ctx⟩, ret_eq_one_iff hok, ?_⟩
  intro m hm capacity b b' hb hb'
  obtain ⟨o', ctx'⟩ := m
  obtain ⟨hret, hm⟩ := Prod.mk.inj hm
  change (a.call ctx).ret = 1 at hret
  have hnotZero : (a.call ctx).ret ≠ 0 := by
    rw [hret]
    decide
  obtain ⟨hacc, hne, -⟩ := (ret_eq_one_iff hok).1 hret
  obtain ⟨hctx, hnext⟩ := store_of_ret_ne_zero hnotZero ⟨o, ctx⟩
  have hwritten := written_store (call_ne_einval hok hacc) ⟨o, ctx⟩
  have hretried : (a.withCapacity capacity).call ctx ≠ .einval := call_ne_einval hok hacc
  change (a.call ctx).store ⟨o, ctx⟩ = _ at hm
  rw [hm] at hctx hnext hwritten
  -- the retry starts from the context and the carried frame of the failed call
  obtain rfl : ctx' = ctx := hctx
  have hstored := @store_congr ⟨{ o' with output := b }, ctx'⟩ ⟨{ o with output := b' }, ctx'⟩ rfl
    hnext ((a.withCapacity capacity).call ctx')
  refine ⟨_, _, _, run_eq hb, run_eq hb', hstored.1, hstored.2, ?_, ?_, ?_⟩
  · rw [written_store hretried, written_store hretried]
  · intro hpos hroom
    exact ret_of_roomy (a := a.withCapacity capacity) hok hacc hpos hroom
  · intro hdone
    rw [written_store hretried, hwritten, output_call hok hacc hne,
      output_call (a := a.withCapacity capacity) hok hacc hne]
    exact List.take_prefix_take_left (capacity_le hok hret hdone)

namespace Args

/-- A block at 48 kHz, with room for one frame. -/
def threeFrames : Args := ⟨false, [⟨1, 2⟩, ⟨3, 4⟩, ⟨5, 6⟩], by decide, 1, 0, ⟨0, 0⟩, false⟩

/-- The other two frames wait for the retry. -/
theorem transactional_threeFrames : ∃ m,
    threeFrames.run ⟨⟨[⟨9, 9⟩], 7, 7, ⟨5, 5⟩⟩, ⟨4294967296, 4294967296⟩⟩ = (1, m) ∧
      m.written = [⟨1, 2⟩] ∧
      ∃ retry,
        (threeFrames.withCapacity 3).run { m with output := [⟨9, 9⟩, ⟨9, 9⟩, ⟨9, 9⟩] } =
          (0, retry) ∧
        m.written <+: retry.written := by
  have hinit : init 48000 48000 = some ⟨4294967296, 4294967296⟩ := by decide
  obtain ⟨-, -, h⟩ := transactional hinit (.init rfl) threeFrames ⟨[⟨9, 9⟩], 7, 7, ⟨5, 5⟩⟩
    (by decide)
  have hfull : threeFrames.run ⟨⟨[⟨9, 9⟩], 7, 7, ⟨5, 5⟩⟩, ⟨4294967296, 4294967296⟩⟩ =
      (1, ⟨⟨[⟨1, 2⟩], 2, 1, ⟨5, 5⟩⟩, ⟨4294967296, 4294967296⟩⟩) := by decide
  obtain ⟨ret, retry, single, hretry, -, -, -, -, hroomy, hprefix⟩ :=
    h _ hfull 3 [⟨9, 9⟩, ⟨9, 9⟩, ⟨9, 9⟩] [⟨9, 9⟩, ⟨9, 9⟩, ⟨9, 9⟩] (by decide) (by decide)
  obtain rfl : ret = 0 := hroomy (by decide) (by decide)
  exact ⟨_, hfull, rfl, retry, hretry, hprefix rfl⟩

/-- One frame and no buffer. -/
def noBuffer : Args := ⟨false, [⟨1, 2⟩], by decide, 0, 0, ⟨0, 0⟩, false⟩

/-- From 96 to 48 kHz the first one-frame block yields one output, and the next one yields none: the
phase is two frames ahead.  The call with an empty buffer returns `1` all the same. -/
theorem empty_buffer : ∃ ctx₀ ctx, init 96000 48000 = some ctx₀ ∧ (contexts ctx₀).Reachable ctx ∧
    (noBuffer.run ⟨⟨[], 0, 0, ⟨0, 0⟩⟩, ctx⟩).1 = 1 ∧
    ctx.dueFrames noBuffer.correctionPpm noBuffer.input.length = 0 ∧ ¬ noBuffer.Exhausts ctx := by
  refine ⟨⟨4294967296, 8589934592⟩, ⟨8589934592, 8589934592⟩, by decide, ?_, by decide, by decide,
    by decide⟩
  refine .step (a := .process (noBuffer.withCapacity 1) ⟨[⟨0, 0⟩], 0, 0, ⟨0, 0⟩⟩)
    (.init rfl) trivial
    ?_
  decide

end Args

end Asrc

end LeAudioReceiver
