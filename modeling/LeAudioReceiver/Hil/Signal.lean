import LeAudioReceiver.Hil.State
import Mathlib.Data.UInt

/-!
# The signal of the HIL source

A model of `src/hil/source/core/hil_source_signal.c`: per semantic channel a phase accumulator, the
preamble segments and the scored envelope, and the encoder with one or two channels that renders
them stage by stage.

Amplitudes and PCM values are `ℤ`: they stay within 16 bits (`sampleAt_bounded`).  The positions in
the preamble, in a block and in a ramp are `ℕ`: they stay below the bounds that the code compares
them with.  The checks for null pointers are left out, and so is what liblc3 makes of a frame: a
call of it succeeds or fails.
-/

namespace LeAudioReceiver

namespace Hil

namespace Signal

/-- The error codes of the signal generator. -/
inductive Errno where
  | einval
  | enospc
  | eoverflow
  | eio
  deriving DecidableEq, Repr

/-- `enum hil_source_semantic_channel`. -/
inductive Channel where
  | left
  | right
  deriving DecidableEq, Repr

/-- `enum hil_source_signal_stage`. -/
inductive Stage where
  | preamble
  | scored
  | tail
  deriving DecidableEq, Repr

/-! ### Constants -/

/-- `HIL_SOURCE_AMPLITUDE_FULL`. -/
def amplitudeFull : ℤ := 8192

/-- `HIL_SOURCE_AMPLITUDE_LOW`. -/
def amplitudeLow : ℤ := 4096

/-- `HIL_SOURCE_ENVELOPE_BLOCK_SAMPLES`. -/
def envelopeBlockSamples : ℕ := 5760

/-- `HIL_SOURCE_TRANSITION_RAMP_SAMPLES`. -/
def transitionRampSamples : ℕ := 240

/-- `HIL_SOURCE_PREAMBLE_SEGMENT_SAMPLES`. -/
def preambleSegmentSamples : ℕ := 11520

/-- `HIL_SOURCE_PREAMBLE_TOTAL_SAMPLES`. -/
def preambleTotalSamples : ℕ := 69120

/-- `HIL_SOURCE_PRNG_ZERO_REPLACEMENT`. -/
def prngZeroReplacement : UInt32 := 0x6D2B79F5

/-- `SIZE_MAX` of the 32-bit target. -/
def sizeMax : ℕ := 2 ^ 32 - 1

/-- `hil_source_sine_lut`. -/
def sineLut : List ℤ :=
  [0, 201, 402, 603, 804, 1005, 1206, 1407, 1608, 1809, 2009, 2210, 2410, 2611, 2811, 3012, 3212,
    3412, 3612, 3811, 4011, 4210, 4410, 4609, 4808, 5007, 5205, 5404, 5602, 5800, 5998, 6195, 6393,
    6590, 6786, 6983, 7179, 7375, 7571, 7767, 7962, 8157, 8351, 8545, 8739, 8933, 9126, 9319, 9512,
    9704, 9896, 10087, 10278, 10469, 10659, 10849, 11039, 11228, 11417, 11605, 11793, 11980, 12167,
    12353, 12539, 12725, 12910, 13094, 13279, 13462, 13645, 13828, 14010, 14191, 14372, 14553,
    14732, 14912, 15090, 15269, 15446, 15623, 15800, 15976, 16151, 16325, 16499, 16673, 16846,
    17018, 17189, 17360, 17530, 17700, 17869, 18037, 18204, 18371, 18537, 18703, 18868, 19032,
    19195, 19357, 19519, 19680, 19841, 20000, 20159, 20317, 20475, 20631, 20787, 20942, 21096,
    21250, 21403, 21554, 21705, 21856, 22005, 22154, 22301, 22448, 22594, 22739, 22884, 23027,
    23170, 23311, 23452, 23592, 23731, 23870, 24007, 24143, 24279, 24413, 24547, 24680, 24811,
    24942, 25072, 25201, 25329, 25456, 25582, 25708, 25832, 25955, 26077, 26198, 26319, 26438,
    26556, 26674, 26790, 26905, 27019, 27133, 27245, 27356, 27466, 27575, 27683, 27790, 27896,
    28001, 28105, 28208, 28310, 28411, 28510, 28609, 28706, 28803, 28898, 28992, 29085, 29177,
    29268, 29358, 29447, 29534, 29621, 29706, 29791, 29874, 29956, 30037, 30117, 30195, 30273,
    30349, 30424, 30498, 30571, 30643, 30714, 30783, 30852, 30919, 30985, 31050, 31113, 31176,
    31237, 31297, 31356, 31414, 31470, 31526, 31580, 31633, 31685, 31736, 31785, 31833, 31880,
    31926, 31971, 32014, 32057, 32098, 32137, 32176, 32213, 32250, 32285, 32318, 32351, 32382,
    32412, 32441, 32469, 32495, 32521, 32545, 32567, 32589, 32609, 32628, 32646, 32663, 32678,
    32692, 32705, 32717, 32728, 32737, 32745, 32752, 32757, 32761, 32765, 32766, 32767]

/-- `hil_source_sine_q15`. -/
def sineQ15 (phaseIndex : ℕ) : ℤ :=
  let idx := phaseIndex % 1024
  if idx ≤ 256 then sineLut.getD idx 0
  else if idx ≤ 511 then sineLut.getD (512 - idx) 0
  else if idx ≤ 768 then -sineLut.getD (idx - 512) 0
  else -sineLut.getD (1024 - idx) 0

/-! ### Profiles -/

/-- `hil_source_profile_frame_samples`. -/
def profileFrameSamples : Profile → ℕ
  | .p48_3_1 => 360
  | .p48_4_1 => 480

/-- `hil_source_profile_octets_per_channel`. -/
def profileOctetsPerChannel : Profile → ℕ
  | .p48_3_1 => 90
  | .p48_4_1 => 120

/-- `hil_source_profile_sdu_size`. -/
def profileSduSize (profile : Profile) (mode : Mode) : ℕ :=
  if mode = .modeB then profileOctetsPerChannel profile * 2 else profileOctetsPerChannel profile

/-! ### Channels -/

/-- `hil_channel_phase_step`. -/
def phaseStep : Channel → UInt32
  | .left => 0x05513CC2
  | .right => 0x0889E60F

/-- `hil_channel_prng_mask`. -/
def prngMask : Channel → UInt32
  | .left => 0x4C454654
  | .right => 0x52494748

/-- `hil_derive_prng`. -/
def derivePrng (seed mask : UInt32) : UInt32 :=
  let x := seed ^^^ mask
  if x = 0 then prngZeroReplacement else x

/-- `hil_xorshift32`. -/
def xorshift32 (x : UInt32) : UInt32 :=
  let x := x ^^^ (x <<< 13)
  let x := x ^^^ (x >>> 17)
  x ^^^ (x <<< 5)

/-- `hil_preamble_amplitude`. -/
def preambleAmplitude (ch : Channel) (segment : ℕ) : ℤ :=
  let on : Bool := match ch with
    | .left => segment = 1 ∨ segment = 5
    | .right => segment = 3 ∨ segment = 5
  if on then amplitudeFull else 0

/-- `struct hil_source_signal_channel`. -/
structure ChannelState where
  semantic : Channel
  phase : UInt32
  prng : UInt32
  blockIndex : UInt32
  blockPos : ℕ
  rampIndex : ℕ
  rampOld : ℤ
  rampNext : ℤ
  preambleRendered : ℕ
  scoredEntered : Bool
  deriving DecidableEq

namespace ChannelState

/-- A channel right after `hil_source_signal_encoder_init`. -/
def init (semantic : Channel) : ChannelState :=
  { semantic := semantic, phase := 0, prng := 0, blockIndex := 0, blockPos := 0, rampIndex := 0
    rampOld := 0, rampNext := 0, preambleRendered := 0, scoredEntered := false }

/-- The target of a block, from the state of the generator. -/
def target (prng : UInt32) : ℤ := if prng &&& 1 ≠ 0 then amplitudeFull else amplitudeLow

/-- The entry of the scored stage. -/
def enterScored (seed : UInt32) (ch : ChannelState) : ChannelState :=
  if ch.scoredEntered then ch
  else
    let prng := xorshift32 (derivePrng seed (prngMask ch.semantic))
    { ch with
        prng := prng, blockIndex := 0, blockPos := 0, rampIndex := 0, rampOld := amplitudeFull
        rampNext := target prng, scoredEntered := true }

/-- The step of the ramp, or the held target. -/
def ramp (ch : ChannelState) : ℤ × ChannelState :=
  if ch.rampIndex < transitionRampSamples then
    let diff := ch.rampNext - ch.rampOld
    let step := (diff * (ch.rampIndex + 1)).tdiv transitionRampSamples
    (ch.rampOld + step, { ch with rampIndex := ch.rampIndex + 1 })
  else (ch.rampNext, ch)

/-- The position in the block, and the next block behind its last sample. -/
def stepBlock (ch : ChannelState) : ChannelState :=
  let ch := { ch with blockPos := ch.blockPos + 1 }
  if ch.blockPos ≥ envelopeBlockSamples then
    let prng := xorshift32 ch.prng
    { ch with
        blockPos := 0, blockIndex := ch.blockIndex + 1, prng := prng, rampOld := ch.rampNext
        rampNext := target prng, rampIndex := 0 }
  else ch

/-- `hil_scored_amplitude`. -/
def scoredAmplitude (seed : UInt32) (ch : ChannelState) : ℤ × ChannelState :=
  let r := (ch.enterScored seed).ramp
  (r.1, r.2.stepBlock)

/-- The amplitude for the next sample of a stage. -/
def amplitude (seed : UInt32) (stage : Stage) (ch : ChannelState) : ℤ × ChannelState :=
  match stage with
  | .preamble =>
    (preambleAmplitude ch.semantic (ch.preambleRendered / preambleSegmentSamples), ch)
  | .scored => ch.scoredAmplitude seed
  | .tail => (0, ch)

end ChannelState

/-- A PCM value beside the amplitude that was applied to it. -/
structure Sample where
  amp : ℤ
  pcm : ℤ
  deriving DecidableEq

/-- The sample at a phase. -/
def Sample.at (phase : UInt32) (amp : ℤ) : Sample :=
  ⟨amp, if amp = 0 then 0 else (sineQ15 (phase >>> 22).toNat * amp).tdiv 32767⟩

/-- An iteration of `hil_source_signal_render`. -/
def ChannelState.renderOne (seed : UInt32) (stage : Stage) (ch : ChannelState) :
    Sample × ChannelState :=
  let r := ch.amplitude seed stage
  (.at ch.phase r.1,
    { r.2 with
        phase := ch.phase + phaseStep ch.semantic
        preambleRendered :=
          if stage = .preamble then r.2.preambleRendered + 1 else r.2.preambleRendered })

/-- The loop of `hil_source_signal_render`. -/
def ChannelState.renderLoop (seed : UInt32) (stage : Stage) :
    ℕ → ChannelState → List Sample × ChannelState
  | 0, ch => ([], ch)
  | n + 1, ch =>
    let r := ch.renderOne seed stage
    let rest := renderLoop seed stage n r.2
    (r.1 :: rest.1, rest.2)

/-! ### The encoder -/

/-- `struct hil_source_signal_encoder`; `channel_count` is the length of `channels`. -/
structure Encoder where
  mode : Mode
  profile : Profile
  signalSeed : UInt32
  stage : Stage
  channels : List ChannelState
  unusable : Bool

/-- Samples that were rendered: of a channel, in a stage. -/
structure Rendered where
  channel : ℕ
  stage : Stage
  samples : List Sample
  deriving DecidableEq

/-- What a call returns, beside the samples that it rendered. -/
structure Outcome where
  encoder : Encoder
  ret : Except Errno ℕ
  out : List Rendered

namespace Encoder

/-- `hil_source_signal_encoder_init`; `setup` tells whether `lc3_setup_encoder` succeeds. -/
def init (mode : Mode) (profile : Profile) (signalSeed : UInt32) (ch0 : Channel)
    (ch1 : Option Channel) (setup : ℕ → Bool) : Except Errno Encoder :=
  if signalSeed = 0 then .error .einval
  else if mode = .mono ∧ (ch0 ≠ .left ∨ ch1 ≠ none) then .error .einval
  else if mode = .modeA ∧ ch1 ≠ none then .error .einval
  else if mode = .modeB ∧ (ch0 ≠ .left ∨ ch1 ≠ some .right) then .error .einval
  else
    let channels := .init ch0 :: ch1.toList.map .init
    if (List.range channels.length).all setup then
      .ok ⟨mode, profile, signalSeed, .preamble, channels, false⟩
    else .error .eio

/-- A call that changes nothing. -/
def reject (e : Encoder) (err : Errno) : Outcome := ⟨e, .error err, []⟩

/-- `hil_source_signal_set_stage`. -/
def setStage (e : Encoder) (stage : Stage) : Outcome :=
  if e.unusable then e.reject .einval
  else if e.stage = .preamble ∧ stage = .scored then
    if e.channels.any fun ch => ch.preambleRendered ≠ preambleTotalSamples then e.reject .einval
    else ⟨{ e with stage := .scored }, .ok 0, []⟩
  else if e.stage = .scored ∧ stage = .tail then ⟨{ e with stage := .tail }, .ok 0, []⟩
  else e.reject .einval

/-- `hil_source_signal_render`. -/
def render (e : Encoder) (channelIndex samples cap : ℕ) : Outcome :=
  if e.unusable then e.reject .einval
  else
    match e.channels[channelIndex]? with
    | none => e.reject .einval
    | some ch =>
      if samples = 0 then ⟨e, .ok 0, []⟩
      else if samples > sizeMax / 2 then e.reject .enospc
      else if cap < samples * 2 then e.reject .enospc
      else if e.stage = .preamble ∧ samples > preambleTotalSamples - ch.preambleRendered then
        e.reject .eoverflow
      else
        let r := ch.renderLoop e.signalSeed e.stage samples
        ⟨{ e with channels := e.channels.set channelIndex r.2 }, .ok samples,
          [⟨channelIndex, e.stage, r.1⟩]⟩

/-- The loop of `hil_source_signal_encode_next` over the channels. -/
def renderAll (samples : ℕ) : List ℕ → Encoder → Outcome
  | [], e => ⟨e, .ok 0, []⟩
  | i :: is, e =>
    let r := e.render i samples (480 * 2)
    match r.ret with
    | .error _ => r
    | .ok n =>
      if n ≠ samples then { r with ret := .error .eio }
      else
        let rest := renderAll samples is r.encoder
        { rest with out := r.out ++ rest.out }

/-- `hil_source_signal_encode_next`; `lc3` tells whether `lc3_encode` succeeds for a channel. -/
def encodeNext (e : Encoder) (cap : ℕ) (lc3 : ℕ → Bool) : Outcome :=
  let samples := profileFrameSamples e.profile
  let sdu := profileSduSize e.profile e.mode
  if e.unusable then e.reject .eio
  else if cap < sdu then e.reject .enospc
  else if e.stage = .preamble ∧
      e.channels.any fun ch => samples > preambleTotalSamples - ch.preambleRendered then
    e.reject .eoverflow
  else
    let r := e.renderAll samples (List.range e.channels.length)
    match r.ret with
    | .error _ => r
    | .ok _ =>
      if (List.range e.channels.length).all lc3 then { r with ret := .ok sdu }
      else { r with encoder := { r.encoder with unusable := true }, ret := .error .eio }

end Encoder

/-! ### Calls -/

/-- A call on an encoder. -/
inductive Call where
  | setStage (stage : Stage)
  | render (channelIndex samples cap : ℕ)
  | encodeNext (cap : ℕ) (lc3 : ℕ → Bool)

/-- What a call does. -/
def Encoder.call (e : Encoder) : Call → Outcome
  | .setStage stage => e.setStage stage
  | .render channelIndex samples cap => e.render channelIndex samples cap
  | .encodeNext cap lc3 => e.encodeNext cap lc3

/-- The samples of a channel in a stage. -/
def samplesOf (log : List Rendered) (channel : ℕ) (stage : Stage) : List Sample :=
  (log.filter fun r => r.channel = channel ∧ r.stage = stage).flatMap (·.samples)

/-- All samples of a channel, in the order in which they were rendered. -/
def streamOf (log : List Rendered) (channel : ℕ) : List Sample :=
  (log.filter fun r => r.channel = channel).flatMap (·.samples)

/-- An encoder and what was rendered. -/
structure Session where
  encoder : Encoder
  log : List Rendered

namespace Session

/-- One call. -/
def step (s : Session) (c : Call) : Session :=
  ⟨(s.encoder.call c).encoder, s.log ++ (s.encoder.call c).out⟩

/-- The calls, one after the other. -/
def run (s : Session) (calls : List Call) : Session := calls.foldl step s

end Session

end Signal

end Hil

end LeAudioReceiver
