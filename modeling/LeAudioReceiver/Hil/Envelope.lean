import LeAudioReceiver.Hil.Signal
import Mathlib.Algebra.Order.Ring.Int
import Mathlib.Algebra.Order.Ring.Nat

/-!
# The samples of the HIL signal by their index

Each sample of a stage is a function of the seed, the semantic channel and its index in the stage
(`sampleAt`).  The state of a channel behind `n` scored samples is described by `n` alone, so the
per-sample code renders these functions, however its calls split a stage.

* `scoredAmplitude_spec` : one scored sample, over ramps and blocks;
* `renderOne_spec` : one sample of a stage, from the counts of the samples before it;
* `renderLoop_spec` : a call renders the next samples of its stage.
-/

namespace LeAudioReceiver

namespace Hil

namespace Signal

/-! ### Samples by their index -/

/-- The state of the generator in a block. -/
def prngAt (seed : UInt32) (c : Channel) : ℕ → UInt32
  | 0 => xorshift32 (derivePrng seed (prngMask c))
  | b + 1 => xorshift32 (prngAt seed c b)

/-- The target of a block. -/
def targetAt (seed : UInt32) (c : Channel) (b : ℕ) : ℤ := ChannelState.target (prngAt seed c b)

/-- Where the ramp of a block starts. -/
def oldAt (seed : UInt32) (c : Channel) : ℕ → ℤ
  | 0 => amplitudeFull
  | b + 1 => targetAt seed c b

/-- The amplitude at a position of a block. -/
def rampAt (old next : ℤ) (pos : ℕ) : ℤ :=
  if pos < transitionRampSamples then
    old + ((next - old) * (pos + 1)).tdiv transitionRampSamples
  else next

/-- The amplitude of scored sample `k`. -/
def scoredAt (seed : UInt32) (c : Channel) (k : ℕ) : ℤ :=
  rampAt (oldAt seed c (k / envelopeBlockSamples)) (targetAt seed c (k / envelopeBlockSamples))
    (k % envelopeBlockSamples)

/-- The amplitude of preamble sample `k`. -/
def preambleAt (c : Channel) (k : ℕ) : ℤ := preambleAmplitude c (k / preambleSegmentSamples)

/-- The phase of the sample number `k` of all stages. -/
def phaseAt (c : Channel) (k : ℕ) : UInt32 := UInt32.ofNat k * phaseStep c

/-- Sample `k` of a stage. -/
def sampleAt (seed : UInt32) (c : Channel) : Stage → ℕ → Sample
  | .preamble, k => .at (phaseAt c k) (preambleAt c k)
  | .scored, k => .at (phaseAt c (preambleTotalSamples + k)) (scoredAt seed c k)
  | .tail, _ => ⟨0, 0⟩

/-- The first `n` samples of a stage. -/
def stageSamples (seed : UInt32) (c : Channel) (stage : Stage) (n : ℕ) : List Sample :=
  (List.range n).map (sampleAt seed c stage)

theorem phaseAt_succ (c : Channel) (k : ℕ) : phaseAt c k + phaseStep c = phaseAt c (k + 1) := by
  rw [phaseAt, phaseAt, UInt32.ofNat_add, UInt32.add_mul]
  congr 1
  exact (UInt32.one_mul _).symm

/-! ### The envelope -/

namespace ChannelState

variable {seed : UInt32} {ch : ChannelState} {n : ℕ}

/-- The envelope state `n` samples into the scored stage, once it is entered. -/
structure InBlock (seed : UInt32) (ch : ChannelState) (n : ℕ) : Prop where
  entered : ch.scoredEntered = true
  prng : ch.prng = prngAt seed ch.semantic (n / envelopeBlockSamples)
  blockPos : ch.blockPos = n % envelopeBlockSamples
  rampIndex : ch.rampIndex = min (n % envelopeBlockSamples) transitionRampSamples
  rampOld : ch.rampOld = oldAt seed ch.semantic (n / envelopeBlockSamples)
  rampNext : ch.rampNext = targetAt seed ch.semantic (n / envelopeBlockSamples)

/-- The envelope state behind `n` scored samples. -/
def Scored (seed : UInt32) (ch : ChannelState) (n : ℕ) : Prop :=
  (n = 0 ∧ ch.scoredEntered = false) ∨ ch.InBlock seed n

theorem enterScored_spec (h : ch.Scored seed n) :
    (ch.enterScored seed).InBlock seed n ∧ (ch.enterScored seed).semantic = ch.semantic ∧
      (ch.enterScored seed).phase = ch.phase ∧
      (ch.enterScored seed).preambleRendered = ch.preambleRendered := by
  unfold enterScored
  rcases h with ⟨rfl, hentered⟩ | h
  · rw [if_neg (by simp [hentered])]
    exact ⟨⟨rfl, rfl, rfl, rfl, rfl, rfl⟩, rfl, rfl, rfl⟩
  · rw [if_pos h.entered]
    exact ⟨h, rfl, rfl, rfl⟩

theorem ramp_spec (h : ch.InBlock seed n) :
    ch.ramp = (scoredAt seed ch.semantic n,
      { ch with rampIndex := min (n % envelopeBlockSamples + 1) transitionRampSamples }) := by
  unfold ramp scoredAt rampAt
  rw [h.rampIndex, h.rampOld, h.rampNext]
  by_cases hlt : n % envelopeBlockSamples < transitionRampSamples
  · rw [Nat.min_eq_left hlt.le, if_pos hlt, if_pos hlt, Nat.min_eq_left hlt]
  · have hle := not_lt.1 hlt
    rw [Nat.min_eq_right hle, if_neg (lt_irrefl _), if_neg hlt, Nat.min_eq_right (by omega)]
    refine Prod.ext rfl ?_
    have hindex := h.rampIndex
    rw [Nat.min_eq_right hle] at hindex
    rw [← hindex, ← h.rampOld, ← h.rampNext]

theorem block_succ (n : ℕ) :
    (n % envelopeBlockSamples + 1 < envelopeBlockSamples ∧
      (n + 1) / envelopeBlockSamples = n / envelopeBlockSamples ∧
      (n + 1) % envelopeBlockSamples = n % envelopeBlockSamples + 1) ∨
    (envelopeBlockSamples ≤ n % envelopeBlockSamples + 1 ∧
      (n + 1) / envelopeBlockSamples = n / envelopeBlockSamples + 1 ∧
      (n + 1) % envelopeBlockSamples = 0) := by
  unfold envelopeBlockSamples
  omega

/-- Everything of a channel that the envelope does not touch. -/
structure SameOutside (ch ch' : ChannelState) : Prop where
  semantic : ch'.semantic = ch.semantic
  phase : ch'.phase = ch.phase
  preambleRendered : ch'.preambleRendered = ch.preambleRendered

/-- The envelope does not read the phase or the preamble position. -/
theorem Scored.outside (h : ch.Scored seed n) (phase : UInt32) (preambleRendered : ℕ) :
    { ch with phase := phase, preambleRendered := preambleRendered }.Scored seed n := by
  rcases h with ⟨hzero, hentered⟩ | ⟨hentered, hprng, hpos, hindex, hold, hnext⟩
  · exact .inl ⟨hzero, hentered⟩
  · exact .inr ⟨hentered, hprng, hpos, hindex, hold, hnext⟩

theorem stepBlock_spec (h : ch.InBlock seed n) :
    let ch' := { ch with rampIndex := min (n % envelopeBlockSamples + 1) transitionRampSamples }
    ch'.stepBlock.InBlock seed (n + 1) ∧ SameOutside ch ch'.stepBlock := by
  intro ch'
  have hpos : ch'.blockPos = n % envelopeBlockSamples := h.blockPos
  rcases block_succ n with ⟨hlt, hdiv, hmod⟩ | ⟨hle, hdiv, hmod⟩
  · -- within the block: only the two positions move
    have hstep : ch'.stepBlock = { ch' with blockPos := ch'.blockPos + 1 } := by
      unfold stepBlock
      exact if_neg (by change ¬(ch'.blockPos + 1 ≥ _); omega)
    rw [hstep]
    refine ⟨⟨h.entered, ?_, ?_, ?_, ?_, ?_⟩, rfl, rfl, rfl⟩
    · rw [hdiv]; exact h.prng
    · rw [hmod, ← hpos]
    · rw [hmod]
    · rw [hdiv]; exact h.rampOld
    · rw [hdiv]; exact h.rampNext
  · -- behind its last sample: the generator moves on and the ramp starts at the old target
    have hstep : ch'.stepBlock =
        { ch' with
            blockPos := 0, blockIndex := ch'.blockIndex + 1, prng := xorshift32 ch'.prng
            rampOld := ch'.rampNext, rampNext := target (xorshift32 ch'.prng)
            rampIndex := 0 } := by
      unfold stepBlock
      exact if_pos (by change ch'.blockPos + 1 ≥ _; omega)
    rw [hstep]
    have hprng : xorshift32 ch'.prng =
        prngAt seed ch.semantic ((n + 1) / envelopeBlockSamples) := by
      rw [hdiv, prngAt, ← h.prng]
    refine ⟨⟨h.entered, hprng, ?_, ?_, ?_, ?_⟩, rfl, rfl, rfl⟩
    · rw [hmod]
    · rw [hmod, Nat.zero_min]
    · rw [hdiv]; exact h.rampNext
    · exact congrArg target hprng

/-- One scored sample: its amplitude is that of its index. -/
theorem scoredAmplitude_spec (h : ch.Scored seed n) :
    (ch.scoredAmplitude seed).1 = scoredAt seed ch.semantic n ∧
      (ch.scoredAmplitude seed).2.InBlock seed (n + 1) ∧
      SameOutside ch (ch.scoredAmplitude seed).2 := by
  obtain ⟨hin, hsem, hphase, hpre⟩ := enterScored_spec h
  unfold scoredAmplitude
  rw [ramp_spec hin]
  obtain ⟨hnext, hsame⟩ := stepBlock_spec hin
  refine ⟨by rw [hsem], hnext, ?_, ?_, ?_⟩
  · rw [hsame.semantic, hsem]
  · rw [hsame.phase, hphase]
  · rw [hsame.preambleRendered, hpre]

/-! ### One channel -/

/-- How many samples of each stage a channel has rendered. -/
structure Counts where
  preamble : ℕ
  scored : ℕ
  tail : ℕ

/-- The samples of a stage. -/
def Counts.of (k : Counts) : Stage → ℕ
  | .preamble => k.preamble
  | .scored => k.scored
  | .tail => k.tail

/-- `n` more samples of a stage. -/
def Counts.add (k : Counts) : Stage → ℕ → Counts
  | .preamble, n => { k with preamble := k.preamble + n }
  | .scored, n => { k with scored := k.scored + n }
  | .tail, n => { k with tail := k.tail + n }

theorem Counts.add_add (k : Counts) (stage : Stage) (m n : ℕ) :
    (k.add stage m).add stage n = k.add stage (m + n) := by
  cases stage <;> simp [Counts.add, Nat.add_assoc]

/-- The stage of the encoder fits the counts of a channel: the preamble is full behind its stage. -/
structure Counts.Fit (k : Counts) (stage : Stage) : Prop where
  preamble : k.preamble ≤ preambleTotalSamples
  full : stage ≠ .preamble → k.preamble = preambleTotalSamples
  scored : stage = .preamble → k.scored = 0
  tail : stage ≠ .tail → k.tail = 0

/-- The state of a channel of a semantics that has rendered these samples. -/
structure Holds (seed : UInt32) (c : Channel) (k : Counts) (ch : ChannelState) : Prop where
  semantic : ch.semantic = c
  phase : ch.phase = phaseAt c (k.preamble + k.scored + k.tail)
  rendered : ch.preambleRendered = k.preamble
  envelope : ch.Scored seed k.scored

variable {c : Channel} {k : Counts} {stage : Stage}

theorem renderOne_spec (h : ch.Holds seed c k) (hfit : k.Fit stage) :
    (ch.renderOne seed stage).1 = sampleAt seed c stage (k.of stage) ∧
      (ch.renderOne seed stage).2.Holds seed c (k.add stage 1) := by
  obtain ⟨hsem, hphase, hpre, henv⟩ := h
  cases stage with
  | preamble =>
    have hscored := hfit.scored rfl
    have htail := hfit.tail (by decide)
    rw [hscored, htail, Nat.add_zero] at hphase
    refine ⟨?_, hsem, ?_, congrArg (· + 1) hpre, henv.outside _ _⟩
    · change Sample.at ch.phase (preambleAmplitude ch.semantic _) = _
      rw [hphase, hsem, hpre]
      rfl
    · change ch.phase + phaseStep ch.semantic = _
      rw [hphase, hsem, phaseAt_succ]
      simp only [Counts.add, hscored, htail, Nat.add_zero]
  | scored =>
    have hfull := hfit.full (by decide)
    have htail := hfit.tail (by decide)
    obtain ⟨hamp, hin, hsame⟩ := scoredAmplitude_spec henv
    rw [hfull, htail, Nat.add_zero] at hphase
    refine ⟨?_, hsame.semantic.trans hsem, ?_, hsame.preambleRendered.trans hpre,
      .outside (.inr hin) _ _⟩
    · change Sample.at ch.phase (ch.scoredAmplitude seed).1 = _
      rw [hphase, hamp, hsem]
      rfl
    · change ch.phase + phaseStep ch.semantic = _
      rw [hphase, hsem, phaseAt_succ]
      simp only [Counts.add, hfull, htail, Nat.add_zero, Nat.add_assoc]
  | tail =>
    refine ⟨?_, hsem, ?_, hpre, henv.outside _ _⟩
    · change Sample.at ch.phase 0 = _
      simp [Sample.at, sampleAt]
    · change ch.phase + phaseStep ch.semantic = _
      rw [hphase, hsem, phaseAt_succ]
      rfl

theorem Counts.Fit.add {m : ℕ} (hfit : k.Fit stage)
    (hroom : stage = .preamble → k.preamble + m ≤ preambleTotalSamples) :
    (k.add stage m).Fit stage := by
  obtain ⟨hpre, hfull, hscored, htail⟩ := hfit
  cases stage with
  | preamble => exact ⟨hroom rfl, fun hne => absurd rfl hne, hscored, htail⟩
  | scored => exact ⟨hpre, hfull, fun heq => absurd heq (by decide), htail⟩
  | tail => exact ⟨hpre, hfull, hscored, fun hne => absurd rfl hne⟩

theorem length_renderLoop (m : ℕ) (ch : ChannelState) :
    (ch.renderLoop seed stage m).1.length = m := by
  induction m generalizing ch with
  | zero => rfl
  | succ m ih =>
    rw [renderLoop, List.length_cons, ih]

/-- The loop renders the next samples of its stage. -/
theorem renderLoop_spec (m : ℕ) (h : ch.Holds seed c k) (hfit : k.Fit stage)
    (hroom : stage = .preamble → k.preamble + m ≤ preambleTotalSamples) :
    (ch.renderLoop seed stage m).1 =
        (List.range' (k.of stage) m).map (sampleAt seed c stage) ∧
      (ch.renderLoop seed stage m).2.Holds seed c (k.add stage m) := by
  induction m generalizing ch k with
  | zero =>
    refine ⟨rfl, ?_⟩
    have hzero : k.add stage 0 = k := by cases stage <;> rfl
    rw [hzero]
    exact h
  | succ m ih =>
    obtain ⟨hout, hnext⟩ := renderOne_spec h hfit
    have hfit' : (k.add stage 1).Fit stage :=
      hfit.add fun hstage => by have := hroom hstage; omega
    have hroom' : stage = .preamble → (k.add stage 1).preamble + m ≤ preambleTotalSamples := by
      rintro rfl
      have := hroom rfl
      simp only [Counts.add]
      omega
    obtain ⟨houts, hlast⟩ := ih hnext hfit' hroom'
    have hof : (k.add stage 1).of stage = k.of stage + 1 := by cases stage <;> rfl
    rw [hof] at houts
    rw [Counts.add_add, Nat.add_comm 1 m] at hlast
    refine ⟨?_, hlast⟩
    rw [renderLoop, List.range'_succ, List.map_cons, hout, houts]

end ChannelState

end Signal

end Hil

end LeAudioReceiver
