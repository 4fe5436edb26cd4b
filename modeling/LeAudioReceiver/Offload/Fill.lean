import LeAudioReceiver.Offload.Submit
import Mathlib.Tactic.Common

/-!
# Filling an output block

A model of `fill_block_asrc` (`src/audio_i2s.c`): a zeroed block is filled by the remote core when
it answers in time, and by the local converter otherwise, from the same continuity state.

* `fillBlockAsrc_none` : without the remote core, `audio_asrc_process` fills the block;
* `fillBlockAsrc_error` : a failed submit leaves the state to the local converter as it was;
* `fillBlockAsrc_eq` : one block is the same with and without the remote core;
* `run_eq_run_local` : so is every run, whatever the remote core does block by block.

What is asked of the remote core is only that an answer which passes all checks is its own answer
to this very request (`Honest`).  Answers that are late, stale, corrupted or missing may be
arbitrary.
-/

namespace LeAudioReceiver

namespace Offload

open Asrc (Frame AudioAsrc)
open FlprRing

/-- `MAX_OUTPUT_FRAMES`. -/
def maxOutputFrames : ℕ := 481

/-- The continuity state of the sink: `asrc_ctx`, `asrc_prev_l` and `asrc_prev_r`,
`asrc_prev_valid`, and the sequence number of the next request. -/
structure SinkState where
  asrcCtx : AudioAsrc
  prev : Frame
  prevValid : Bool
  offloadSequence : UInt32

/-- What can go wrong. -/
inductive FillError where
  /-- No free block in the slab. -/
  | alloc
  /-- `-ENOSPC`. -/
  | enospc
  /-- `-EIO`. -/
  | eio
  deriving DecidableEq, Repr

/-- One push: the block of the slab (or none), the decoded frames and the correction. -/
structure Push where
  allocated : Bool
  input : List Frame
  ppm : Int32

/-- A filled block: all its frames, and how many of them are to be played. -/
structure Filled where
  block : List Frame
  outputFrames : ℕ

/-- Frames written to the start of a block. -/
def blit (output block : List Frame) : List Frame := output ++ block.drop output.length

/-- The local converter on a block, from the current state.  The context is updated in place, so
it keeps its new phase even when the block is then dropped for having no frames. -/
def fillLocal (s : SinkState) (p : Push) (block : List Frame) :
    SinkState × Except FillError Filled :=
  match Asrc.process s.asrcCtx p.input maxOutputFrames p.ppm.toInt s.prev s.prevValid with
  | .einval => (s, .error .eio)
  | .full _ _ => (s, .error .enospc)
  | .done ctx output _ next =>
    if output.length < 1 ∨ output.length > maxOutputFrames then
      ({ s with asrcCtx := ctx }, .error .enospc)
    else
      ({ asrcCtx := ctx, prev := next.getD ⟨0, 0⟩, prevValid := true
         offloadSequence := s.offloadSequence + 1 },
        .ok ⟨blit output block, output.length⟩)

/-- The request that a push submits. -/
def SinkState.request (s : SinkState) (p : Push) : Request :=
  ⟨p.input, s.offloadSequence, p.ppm, Asrc.stateExport s.asrcCtx s.prev s.prevValid⟩

/-- `fill_block_asrc`; without an environment the offload is not compiled in. -/
def fillBlockAsrc (s : SinkState) (p : Push) (env : Option SubmitEnv) :
    SinkState × Except FillError Filled :=
  if ¬ p.allocated then (s, .error .alloc)
  else
    let block := List.replicate maxOutputFrames ⟨0, 0⟩
    match env with
    | none => fillLocal s p block
    | some env =>
      match offloadProcessAsrc (s.request p) maxOutputFrames env with
      | .error _ => fillLocal s p block
      | .ok (r, pcm) =>
        let block := blit pcm block
        if r.outputFrames.toNat ≥ 1 ∧ r.outputFrames.toNat ≤ maxOutputFrames then
          match Asrc.stateImport r.postState with
          | some (ctx, prev, prevValid) =>
            ({ asrcCtx := ctx, prev := prev, prevValid := prevValid
               offloadSequence := s.offloadSequence + 1 },
              .ok ⟨block, r.outputFrames.toNat⟩)
          | none => fillLocal s p block
        else fillLocal s p block

/-- Without the remote core a push is `audio_asrc_process` on the zeroed block. -/
theorem fillBlockAsrc_none (s : SinkState) (p : Push) :
    fillBlockAsrc s p none =
      if p.allocated then fillLocal s p (List.replicate maxOutputFrames ⟨0, 0⟩)
      else (s, .error .alloc) := by
  cases hallocated : p.allocated <;> simp [fillBlockAsrc, hallocated]

/-- An answer that is accepted is the remote core's answer to this request. -/
def Honest (s : SinkState) (p : Push) (env : SubmitEnv) : Prop :=
  ∀ r, offloadProcessAsrc (s.request p) maxOutputFrames env = .ok r →
    ∃ cycles, env.read = .slot (answer ((s.request p).slot env) cycles)

/-- A failed submit leaves the state as it was: the local converter runs from it on the zeroed
block. -/
theorem fillBlockAsrc_error {s : SinkState} {p : Push} {env : SubmitEnv} {e : Errno}
    (h : offloadProcessAsrc (s.request p) maxOutputFrames env = .error e) :
    fillBlockAsrc s p (some env) = fillBlockAsrc s p none := by
  simp only [fillBlockAsrc, h]

/-- **One block is the same with and without the remote core.** -/
theorem fillBlockAsrc_eq {s : SinkState} {p : Push} {env : SubmitEnv} (h : Honest s p env) :
    fillBlockAsrc s p (some env) = fillBlockAsrc s p none := by
  cases hoff : offloadProcessAsrc (s.request p) maxOutputFrames env with
  | error e => exact fillBlockAsrc_error hoff
  | ok rp =>
    obtain ⟨r, pcm⟩ := rp
    obtain ⟨cycles, hread⟩ := h _ hoff
    obtain ⟨ctx, prev, prevValid, ctx', next, himport, hproc, hpos, hcap, hcount, hpost⟩ :=
      offloadProcessAsrc_answer hoff hread
    have hstep : s.asrcCtx.stepBase ≠ 0 := (Asrc.stateImport_stepBase himport).2
    -- the remote core started from the state of the sink
    obtain ⟨rfl, rfl, rfl⟩ : ctx = s.asrcCtx ∧ prev = s.prev ∧ prevValid = s.prevValid := by
      have := (Asrc.stateImport_stateExport s.prev s.prevValid hstep).symm.trans himport
      simpa only [Option.some.injEq, Prod.mk.injEq, eq_comm] using this
    -- and the state it returns is importable
    have himport' : Asrc.stateImport r.postState = some (ctx', next.getD ⟨0, 0⟩, true) := by
      rw [hpost]
      exact Asrc.stateImport_stateExport _ _ (Asrc.process_stepBase hproc ▸ hstep)
    have hproc' : Asrc.process s.asrcCtx p.input maxOutputFrames p.ppm.toInt s.prev s.prevValid =
        .done ctx' pcm payloadMaxInput next := hproc
    have hrange : pcm.length ≥ 1 ∧ pcm.length ≤ maxOutputFrames := ⟨hpos, hcap⟩
    have hrange' : ¬ (pcm.length < 1 ∨ pcm.length > maxOutputFrames) := by omega
    rw [fillBlockAsrc_none]
    cases hallocated : p.allocated
    · simp [fillBlockAsrc, hallocated]
    · simp only [fillBlockAsrc, fillLocal, hallocated, hoff, himport', hproc', hcount,
        if_pos hrange, if_neg hrange', not_true, if_false, if_true]

/-! ### Runs -/

/-- A run over pushes, each with what its submit observes: the result of every block and the
state after it. -/
def run (s : SinkState) : List (Push × Option SubmitEnv) →
    List (Except FillError Filled × SinkState)
  | [] => []
  | (p, env) :: ps =>
    let r := fillBlockAsrc s p env
    (r.2, r.1) :: run r.1 ps

/-- Every answer that is accepted in a run is honest. -/
def HonestRun (s : SinkState) : List (Push × Option SubmitEnv) → Prop
  | [] => True
  | (p, env) :: ps =>
    (∀ e, env = some e → Honest s p e) ∧ HonestRun (fillBlockAsrc s p env).1 ps

/-- **The remote core is transparent.**  In every run, with any mix of answered and failed submits,
each block and the state after it are those of the run that only uses the local converter; and a
failed submit, whatever its cause, hands the local converter the state it was given. -/
theorem run_eq_run_local (s : SinkState) (ps : List (Push × Option SubmitEnv))
    (h : HonestRun s ps) :
    run s ps = run s (ps.map fun p => (p.1, none)) ∧
    ∀ (s' : SinkState) (p : Push) (env : SubmitEnv) (e : Errno),
      offloadProcessAsrc (s'.request p) maxOutputFrames env = .error e →
      fillBlockAsrc s' p (some env) = fillBlockAsrc s' p none := by
  refine ⟨?_, fun s' p env e he => fillBlockAsrc_error he⟩
  induction ps generalizing s with
  | nil => rfl
  | cons pe ps ih =>
    obtain ⟨p, env⟩ := pe
    obtain ⟨hhead, htail⟩ := h
    have hblock : fillBlockAsrc s p env = fillBlockAsrc s p none := by
      cases env with
      | none => rfl
      | some env => exact fillBlockAsrc_eq (hhead env rfl)
    rw [List.map_cons, run, run, hblock, ih _ (hblock ▸ htail)]

/-- A submit whose output does not arrive in time is honest: it accepts nothing. -/
theorem honest_of_not_arrived {s : SinkState} {p : Push} {env : SubmitEnv}
    (h : env.arrived = false) : Honest s p env := by
  intro r hr
  unfold offloadProcessAsrc at hr
  split_ifs at hr with _ _ _ hin
  rw [h] at hin
  exact absurd hin.2.1 Bool.false_ne_true

/-- The surroundings of a submit that finds everything in order, except that nothing was read. -/
def readyEnv : SubmitEnv :=
  { active := true, locked := true, stillActive := true, full := false, epoch := 1
    old := ⟨SlotMeta.zero, []⟩, timestamp := 100, notified := true, arrived := true
    current₁ := true, read := .empty, now := 900, current₂ := true, verify := true
    commit := true }

/-- Two blocks at 48 kHz, the first answered by the remote core and the second one not. -/
theorem run_eq_run_local_two :
    let s : SinkState := ⟨⟨4294967296, 4294967296⟩, ⟨0, 0⟩, false, 0⟩
    let p : Push := ⟨true, List.replicate 480 ⟨7, -7⟩, 250⟩
    let answered : SubmitEnv :=
      { readyEnv with read := .slot (answer ((s.request p).slot readyEnv) 5000) }
    run s [(p, some answered), (p, some { readyEnv with arrived := false })] =
      run s [(p, none), (p, none)] := by
  intro s p answered
  refine (run_eq_run_local s [(p, some answered), (p, some { readyEnv with arrived := false })]
    ⟨?_, ?_, trivial⟩).1
  · rintro e ⟨⟩ r -
    exact ⟨5000, rfl⟩
  · rintro e ⟨⟩
    exact honest_of_not_arrived rfl

end Offload

end LeAudioReceiver
