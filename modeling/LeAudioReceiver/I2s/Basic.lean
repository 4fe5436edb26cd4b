import LeAudioReceiver.Machine.Basic
import LeAudioReceiver.Pool.Basic
import LeAudioReceiver.RateConvert.Basic

/-!
# The push path

The pushes that `src/audio_i2s.c` admits, one after the other, and the stops between them, against
the blocks of the slab and the I2S driver.  A step runs up to the next result that the code does not
determine itself: an allocation, the resampler, `i2s_write` and `i2s_trigger` answer anything.  At
any time the driver gives back a block it has played.

A block that `i2s_write` accepts belongs to the driver; a DROP or a PREPARE that succeeds gives all
of its blocks back.

Left out are the samples, the drift controller, whose correction only the resampler uses, and the
performance counters.
-/

namespace LeAudioReceiver

namespace I2s

/-- `BLOCK_COUNT`. -/
def blockCount : ℕ := 16

instance : NeZero blockCount := ⟨by decide⟩

/-- `MAX_OUTPUT_FRAMES`. -/
def maxOutputFrames : ℕ := 481

/-- `STARTUP_SILENCE_BLOCKS`. -/
def startupSilenceBlocks : ℕ := 14

/-- `DRIFT_THRESHOLD`. -/
def driftThreshold : ℕ := blockCount - 4

/-- The bytes of a stereo frame: `CHANNELS * (BIT_WIDTH / 8)`. -/
def frameBytes : ℕ := 2 * (16 / 8)

/-- `BLOCK_SIZE`. -/
def blockSize : ℕ := maxOutputFrames * frameBytes

def enomem : ℤ := 12
def enospc : ℤ := 28
def eio : ℤ := 5

/-- A block of `i2s_slab`. -/
abbrev Block := Fin blockCount

/-- The frame counts that may be written. -/
def usable (frames : ℕ) : Bool := 1 ≤ frames && frames ≤ maxOutputFrames

/-- What the resampler answers. -/
structure FillResult where
  /-- The frames of a validated round trip of the offload whose state was imported. -/
  offload : Option ℕ
  /-- The return value of `audio_asrc_process`. -/
  asrcRet : ℤ
  produced : ℕ
  deriving DecidableEq, Repr

/-- `fill_block_asrc` behind the allocation: the output frames, or the error. -/
def fillBlockAsrc (r : FillResult) : Except ℤ ℕ :=
  match r.offload.filter usable with
  | some frames => .ok frames
  | none =>
    if r.asrcRet ≠ 0 then .error (if r.asrcRet = 1 then -enospc else -eio)
    else if !usable r.produced then .error (-enospc)
    else .ok r.produced

/-- What a block holds that is written. -/
inductive Content where
  | silence
  | data
  | repeated
  deriving DecidableEq, Repr

/-- `enum i2s_trigger_cmd`, as far as it is used. -/
inductive Cmd where
  | start
  | drop
  | prepare
  deriving DecidableEq, Repr

/-- A call of the driver with its result. -/
inductive Call where
  | write (content : Content) (bytes : ℕ) (ret : ℤ)
  | trigger (cmd : Cmd) (ret : ℤ)
  deriving DecidableEq, Repr

/-- Where the thread is: in `do_push`, with the values of its variables, or in
`audio_sink_stop`. -/
inductive Pc where
  | idle
  /-- `alloc_main_block`. -/
  | alloc (streamStarted : Bool) (inputFrames : UInt16)
  /-- `fill_block_asrc`. -/
  | fill (streamStarted : Bool) (inputFrames : UInt16) (block : Block)
  /-- The head of the startup loop. -/
  | prefill (pre : ℕ) (inputFrames : UInt16) (block : Block) (outputFrames : ℕ)
  | allocSilence (pre : ℕ) (inputFrames : UInt16) (block : Block) (outputFrames preFrames : ℕ)
  | writeSilence (pre : ℕ) (inputFrames : UInt16) (block : Block) (outputFrames preFrames : ℕ)
      (sil : Block)
  | writeData (block : Block) (outputFrames : ℕ)
  | start
  /-- DROP after a startup that failed with `ret`. -/
  | purge (ret : ℤ)
  | write (block : Block) (outputFrames : ℕ)
  /-- PREPARE after an underrun. -/
  | restart (ret : ℤ)
  /-- The test of the repeat fallback. -/
  | fallback
  | allocRepeat
  | writeRepeat (dup : Block)
  | stopPrepare
  | stopDrop
  deriving DecidableEq, Repr

/-- The push path. -/
structure Sys where
  slab : Pool Block
  started : Bool
  /-- `saved_frame_len`. -/
  savedFrameLen : ℕ
  rateCtx : RateConverter
  pc : Pc
  /-- The calls of the driver since the push or the stop began. -/
  calls : List Call
  /-- What the last push returned. -/
  ret : Option ℤ

/-- What happens next. -/
inductive Action where
  /-- An admitted push, with its snapshot of the input frames. -/
  | push (inputFrames : UInt16)
  /-- The owner of a stop has drained the pushes. -/
  | stop
  | alloc (r : Except ℤ Block)
  | fill (r : FillResult)
  | write (ret : ℤ)
  | trigger (ret : ℤ)
  /-- What the code does by itself. -/
  | run
  /-- The driver has played a block. -/
  | complete (b : Block)

namespace Sys

variable (s : Sys)

/-- The rate of `CONFIG_AUDIO_I2S_OUTPUT_SAMPLE_RATE_HZ` is a parameter of the build. -/
def init (outputRateHz : UInt32) : Sys :=
  { slab := .init
    started := false
    savedFrameLen := 0
    rateCtx := .init 48000 outputRateHz
    pc := .idle
    calls := []
    ret := none }

/-- The push returns. -/
def exit (ret : ℤ) : Sys := { s with pc := .idle, ret := some ret }

/-- `k_mem_slab_alloc`: a free block, or an error. -/
def allocBlock (r : Except ℤ Block) (fail : ℤ → Sys) (ok : Sys → Block → Sys) : Option Sys :=
  match r with
  | .error e => if e < 0 then some (fail e) else none
  | .ok b => (s.slab.alloc b).map fun slab => ok { s with slab := slab } b

/-- `i2s_write` of a block: the driver takes it, or the caller still has it. -/
def i2sWrite (content : Content) (b : Block) (bytes : ℕ) (ret : ℤ) : Sys :=
  let s := { s with calls := s.calls ++ [.write content bytes ret] }
  if ret < 0 then s else { s with slab := s.slab.submit b }

/-- `i2s_trigger`: a DROP or a PREPARE that succeeds gives the blocks of the driver back. -/
def i2sTrigger (cmd : Cmd) (ret : ℤ) : Sys :=
  let s := { s with calls := s.calls ++ [.trigger cmd ret] }
  if ret < 0 || cmd == .start then s else { s with slab := s.slab.purge }

/-- `k_mem_slab_free`. -/
def free (b : Block) : Sys := { s with slab := s.slab.free b }

/-- The head of the startup loop, or the data behind it. -/
def prefillStep (pre : ℕ) (inputFrames : UInt16) (block : Block) (outputFrames : ℕ) : Sys :=
  if pre < startupSilenceBlocks then
    let r := s.rateCtx.nextFrames inputFrames.toUInt32
    let s := { s with rateCtx := r.1 }
    if usable r.2.toNat then
      { s with pc := .allocSilence pre inputFrames block outputFrames r.2.toNat }
    else { s.free block with pc := .purge (-enospc) }
  else { s with pc := .writeData block outputFrames }

/-- An allocation returns. -/
def onAlloc (r : Except ℤ Block) : Option Sys :=
  match s.pc with
  | .alloc streamStarted inputFrames =>
    s.allocBlock r s.exit fun s b => { s with pc := .fill streamStarted inputFrames b }
  | .allocSilence pre inputFrames block outputFrames preFrames =>
    s.allocBlock r (fun _ => { s.free block with pc := .purge (-enomem) }) fun s b =>
      { s with pc := .writeSilence pre inputFrames block outputFrames preFrames b }
  | .allocRepeat =>
    s.allocBlock r (fun _ => s.exit 0) fun s b => { s with pc := .writeRepeat b }
  | _ => none

/-- The resampler returns. -/
def onFill (r : FillResult) : Option Sys :=
  match s.pc with
  | .fill streamStarted inputFrames block =>
    match fillBlockAsrc r with
    | .error e => some ((s.free block).exit e)
    | .ok outputFrames =>
      if !usable outputFrames then some ((s.free block).exit (-enospc))
      else if !streamStarted then
        some { s with pc := .prefill 0 inputFrames block outputFrames }
      else
        some { s with
          savedFrameLen := outputFrames * frameBytes
          pc := .write block outputFrames }
  | _ => none

/-- `i2s_write` returns. -/
def onWrite (ret : ℤ) : Option Sys :=
  match s.pc with
  | .writeSilence pre inputFrames block outputFrames preFrames sil =>
    let s := s.i2sWrite .silence sil (preFrames * frameBytes) ret
    if ret < 0 then some { (s.free sil).free block with pc := .purge ret }
    else some { s with pc := .prefill (pre + 1) inputFrames block outputFrames }
  | .writeData block outputFrames =>
    let s := s.i2sWrite .data block (outputFrames * frameBytes) ret
    if ret < 0 then some { s.free block with pc := .purge ret } else some { s with pc := .start }
  | .write block outputFrames =>
    let s := s.i2sWrite .data block (outputFrames * frameBytes) ret
    if ret < 0 then
      let s := s.free block
      some (if ret = -eio then { s with pc := .restart ret } else s.exit ret)
    else some { s with pc := .fallback }
  | .writeRepeat dup =>
    let s := s.i2sWrite .repeated dup s.savedFrameLen ret
    some (if ret < 0 then (s.free dup).exit 0 else s.exit 0)
  | _ => none

/-- `i2s_trigger` returns. -/
def onTrigger (ret : ℤ) : Option Sys :=
  match s.pc with
  | .start =>
    let s := s.i2sTrigger .start ret
    some (if ret < 0 then { s with pc := .purge ret } else { s.exit 0 with started := true })
  | .purge err => some ((s.i2sTrigger .drop ret).exit err)
  | .restart err => some { (s.i2sTrigger .prepare ret).exit err with started := false }
  | .stopPrepare => some { s.i2sTrigger .prepare ret with pc := .stopDrop }
  | .stopDrop => some { s.i2sTrigger .drop ret with pc := .idle }
  | _ => none

/-- The steps without a result from outside. -/
def onRun : Option Sys :=
  match s.pc with
  | .prefill pre inputFrames block outputFrames =>
    some (s.prefillStep pre inputFrames block outputFrames)
  | .fallback =>
    some (if 0 < s.savedFrameLen ∧ driftThreshold ≤ s.slab.numFree then
      { s with pc := .allocRepeat }
    else s.exit 0)
  | _ => none

/-- The owner of `audio_sink_stop` behind its drain: the flag, `drift_reset`, and the triggers if
the stream had started. -/
def stop : Sys :=
  { s with
    started := false
    savedFrameLen := 0
    rateCtx := .init 48000 s.rateCtx.outputRateHz
    calls := []
    pc := if s.started then .stopPrepare else .idle }

/-- One step. -/
def next : Action → Option Sys
  | .push inputFrames =>
    if s.pc = .idle then some { s with pc := .alloc s.started inputFrames, calls := [] } else none
  | .stop => if s.pc = .idle then some s.stop else none
  | .alloc r => s.onAlloc r
  | .fill r => s.onFill r
  | .write ret => s.onWrite ret
  | .trigger ret => s.onTrigger ret
  | .run => s.onRun
  | .complete b => (s.slab.complete b).map fun slab => { s with slab := slab }

/-- All runs from `audio_sink_init`. -/
def machine : Machine Sys Action := ⟨fun s => ∃ outputRateHz, s = init outputRateHz, next⟩

end Sys

end I2s

end LeAudioReceiver
