import LeAudioReceiver.Hil.Partition

/-!
# The capture oracle of the HIL signal

A model of the amplitude sequences of `scripts/hil/capture_signal.py`, over Python's integers, with
the constants that it reads from the header of the source.  The two sequences are the amplitudes
that the source applies (`amplitude_oracle`).

The arrays hold integers below `2 ^ 53`, so their floats are `ℤ` here.  A channel is `left` or
`right`: the errors for other names are left out.
-/

namespace LeAudioReceiver

namespace Hil

namespace CaptureSignal

open Signal (Channel amplitudeFull amplitudeLow envelopeBlockSamples transitionRampSamples
  preambleSegmentSamples preambleTotalSamples prngZeroReplacement)

/-- `xorshift32`. -/
def xorshift32 (value : ℕ) : ℕ :=
  let value := value &&& 0xFFFFFFFF
  let value := value ^^^ (value <<< 13 &&& 0xFFFFFFFF)
  let value := value ^^^ (value >>> 17)
  let value := value ^^^ (value <<< 5 &&& 0xFFFFFFFF)
  value &&& 0xFFFFFFFF

/-- `_c_trunc_div`. -/
def cTruncDiv (numerator denominator : ℤ) : ℤ :=
  if numerator < 0 then -(-numerator).fdiv denominator else numerator.fdiv denominator

/-- `_prng_mask`. -/
def prngMask (channel : Channel) : ℕ := (Signal.prngMask channel).toNat

/-- `preamble_amplitude`. -/
def preambleAmplitude (channel : Channel) (samples : Option ℤ) : Except String (List ℤ) :=
  let count := samples.getD preambleTotalSamples
  if count < 0 ∨ count > preambleTotalSamples then .error "preamble samples out of range"
  else
    let on (index : ℕ) : Bool :=
      if channel = .left then index = 1 ∨ index = 5 else index = 3 ∨ index = 5
    .ok ((List.range count.toNat).map fun i =>
      if on (i / preambleSegmentSamples) then amplitudeFull else 0)

/-- The target of a block. -/
def target (state : ℕ) : ℤ := if state &&& 1 ≠ 0 then amplitudeFull else amplitudeLow

/-- How many samples the next block takes. -/
def blockCount (samples written : ℕ) : ℕ := min envelopeBlockSamples (samples - written)

/-- The samples of a block of the loop. -/
def block (old target : ℤ) (blockCount : ℕ) : List ℤ :=
  let rampCount := min transitionRampSamples blockCount
  let values := (List.range rampCount).map fun i : ℕ =>
    old + cTruncDiv ((target - old) * (i + 1)) transitionRampSamples
  let held :=
    if blockCount > rampCount then List.replicate (blockCount - rampCount) target else []
  values ++ held

theorem blockCount_pos {samples written : ℕ} (h : written < samples) :
    samples - (written + blockCount samples written) < samples - written := by
  unfold blockCount envelopeBlockSamples
  omega

/-- The loop of `scored_amplitude`; `out` is what was written. -/
def scoredLoop (samples state : ℕ) (old next : ℤ) (out : List ℤ) (written : ℕ) : List ℤ :=
  if _h : written < samples then
    let out := out ++ block old next (blockCount samples written)
    if blockCount samples written = envelopeBlockSamples then
      scoredLoop samples (xorshift32 state) next (target (xorshift32 state)) out
        (written + blockCount samples written)
    else scoredLoop samples state old next out (written + blockCount samples written)
  else out
termination_by samples - written
decreasing_by all_goals exact blockCount_pos _h

/-- `scored_amplitude`. -/
def scoredAmplitude (channel : Channel) (seed samples : ℤ) : Except String (List ℤ) :=
  if seed ≤ 0 ∨ seed > 0xFFFFFFFF then .error "signal seed must be nonzero uint32"
  else if samples < 0 then .error "scored sample count must be nonnegative"
  else
    let state := seed.toNat ^^^ prngMask channel
    let state := if state = 0 then prngZeroReplacement.toNat else state
    let state := xorshift32 state
    .ok (scoredLoop samples.toNat state amplitudeFull (target state) [] 0)

end CaptureSignal

namespace Signal

open CaptureSignal (cTruncDiv)

/-! ### The generator -/

theorem xorshift32_toNat (x : UInt32) :
    CaptureSignal.xorshift32 x.toNat = (xorshift32 x).toNat := by
  have hmask : ∀ n : ℕ, n &&& 0xFFFFFFFF = n % 2 ^ 32 := fun n =>
    Nat.and_two_pow_sub_one_eq_mod n 32
  have hsize : ∀ y : UInt32, y.toNat % 2 ^ 32 = y.toNat := fun y =>
    Nat.mod_eq_of_lt y.toNat_lt
  unfold CaptureSignal.xorshift32 xorshift32
  simp only [hmask, hsize]
  have hleft : x.toNat ^^^ (x.toNat <<< 13 % 2 ^ 32) = (x ^^^ x <<< 13).toNat := by
    rw [UInt32.toNat_xor, UInt32.toNat_shiftLeft]
    rfl
  rw [hleft]
  have hright : ∀ y : UInt32, y.toNat ^^^ y.toNat >>> 17 = (y ^^^ y >>> 17).toNat := by
    intro y
    rw [UInt32.toNat_xor, UInt32.toNat_shiftRight]
    rfl
  rw [hright]
  have hlast : ∀ y : UInt32, y.toNat ^^^ (y.toNat <<< 5 % 2 ^ 32) = (y ^^^ y <<< 5).toNat := by
    intro y
    rw [UInt32.toNat_xor, UInt32.toNat_shiftLeft]
    rfl
  rw [hlast, hsize]

theorem target_toNat (x : UInt32) : CaptureSignal.target x.toNat = ChannelState.target x := by
  unfold CaptureSignal.target ChannelState.target
  have hiff : x.toNat &&& 1 ≠ 0 ↔ x &&& 1 ≠ 0 := by
    rw [not_iff_not, ← UInt32.toNat_inj, UInt32.toNat_and]
    rfl
  simp only [hiff]

theorem derivePrng_toNat (seed : UInt32) (c : Channel) :
    (if seed.toNat ^^^ CaptureSignal.prngMask c = 0 then prngZeroReplacement.toNat
      else seed.toNat ^^^ CaptureSignal.prngMask c) = (derivePrng seed (prngMask c)).toNat := by
  unfold derivePrng CaptureSignal.prngMask
  rw [← UInt32.toNat_xor]
  have hiff : (seed ^^^ prngMask c).toNat = 0 ↔ seed ^^^ prngMask c = 0 := by
    rw [← UInt32.toNat_inj]
    rfl
  simp only [hiff]
  split <;> rfl

/-! ### Blocks -/

theorem cTruncDiv_eq (numerator : ℤ) (denominator : ℕ) :
    cTruncDiv numerator denominator = numerator.tdiv denominator := by
  have hdenominator : (0 : ℤ) ≤ denominator := Int.natCast_nonneg _
  unfold cTruncDiv
  split
  · rename_i hneg
    rw [Int.fdiv_eq_tdiv_of_nonneg (by omega) hdenominator, Int.neg_tdiv, Int.neg_neg]
  · rename_i hpos
    rw [Int.fdiv_eq_tdiv_of_nonneg (by omega) hdenominator]

/-- A block of the oracle is the ramp and the held target. -/
theorem block_eq (old next : ℤ) (m : ℕ) :
    CaptureSignal.block old next m = (List.range m).map (rampAt old next) := by
  unfold CaptureSignal.block
  dsimp only
  refine List.ext_getElem ?_ fun j h₁ h₂ => ?_
  · split
    · simp
    · simp
      omega
  · simp only [List.length_map, List.length_range] at h₂
    rw [List.getElem_map, List.getElem_range, rampAt]
    by_cases hj : j < transitionRampSamples
    · rw [if_pos hj, List.getElem_append_left (by simp; omega), List.getElem_map,
        List.getElem_range, cTruncDiv_eq]
    · have hle : ¬j < min transitionRampSamples m := by omega
      rw [if_neg hj, List.getElem_append_right (by simp; omega)]
      split
      · rw [List.getElem_replicate]
      · omega

theorem block_scoredAt (seed : UInt32) (c : Channel) (b : ℕ) {m : ℕ}
    (hm : m ≤ envelopeBlockSamples) :
    CaptureSignal.block (oldAt seed c b) (targetAt seed c b) m =
      (List.range' (envelopeBlockSamples * b) m).map (scoredAt seed c) := by
  rw [block_eq, List.range'_eq_map_range, List.map_map]
  refine List.map_congr_left fun j hj => ?_
  have hlt : j < envelopeBlockSamples := lt_of_lt_of_le (List.mem_range.1 hj) hm
  have hdiv : (envelopeBlockSamples * b + j) / envelopeBlockSamples = b := by
    rw [Nat.mul_add_div (by decide), Nat.div_eq_of_lt hlt, Nat.add_zero]
  have hmod : (envelopeBlockSamples * b + j) % envelopeBlockSamples = j := by
    rw [Nat.mul_add_mod, Nat.mod_eq_of_lt hlt]
  rw [Function.comp, scoredAt, hdiv, hmod]

theorem map_range_append {α : Type} (f : ℕ → α) (n m : ℕ) :
    (List.range n).map f ++ (List.range' n m).map f = (List.range (n + m)).map f := by
  have happend := @List.range'_append 0 n m 1
  rw [Nat.one_mul, Nat.zero_add] at happend
  rw [← List.map_append, List.range_eq_range', List.range_eq_range', happend]

theorem scoredLoop_end (samples state : ℕ) (old next : ℤ) (out : List ℤ) :
    CaptureSignal.scoredLoop samples state old next out samples = out := by
  rw [CaptureSignal.scoredLoop, dif_neg (lt_irrefl samples)]

/-- The loop from the start of a block on: full blocks, and a last one that may be cut. -/
theorem scoredLoop_eq (seed : UInt32) (c : Channel) (samples b : ℕ)
    (hle : envelopeBlockSamples * b ≤ samples) :
    CaptureSignal.scoredLoop samples (prngAt seed c b).toNat (oldAt seed c b) (targetAt seed c b)
        ((List.range (envelopeBlockSamples * b)).map (scoredAt seed c))
        (envelopeBlockSamples * b) =
      (List.range samples).map (scoredAt seed c) := by
  induction hrest : samples - envelopeBlockSamples * b using Nat.strongRecOn generalizing b with
  | ind rest ih =>
    by_cases hlt : envelopeBlockSamples * b < samples
    · have hcount : CaptureSignal.blockCount samples (envelopeBlockSamples * b) ≤
          envelopeBlockSamples := Nat.min_le_left _ _
      rw [CaptureSignal.scoredLoop, dif_pos hlt]
      dsimp only
      rw [block_scoredAt seed c b hcount, map_range_append]
      split
      · rename_i hfull
        -- a full block: the oracle moves its generator on as the source does
        have hnext : envelopeBlockSamples * b + envelopeBlockSamples =
            envelopeBlockSamples * (b + 1) := (Nat.mul_succ _ _).symm
        have hroom : envelopeBlockSamples * (b + 1) ≤ samples := by
          have := Nat.min_le_right envelopeBlockSamples (samples - envelopeBlockSamples * b)
          unfold CaptureSignal.blockCount at hfull
          omega
        have hless : samples - envelopeBlockSamples * (b + 1) < rest := by
          have hpos : 0 < envelopeBlockSamples := by decide
          omega
        rw [hfull, hnext, xorshift32_toNat, target_toNat]
        exact ih _ hless (b + 1) hroom rfl
      · rename_i hcut
        have hend : envelopeBlockSamples * b +
            CaptureSignal.blockCount samples (envelopeBlockSamples * b) = samples := by
          unfold CaptureSignal.blockCount at hcut ⊢
          omega
        rw [hend, scoredLoop_end]
    · have hend : envelopeBlockSamples * b = samples := le_antisymm hle (not_lt.1 hlt)
      rw [hend, scoredLoop_end]

/-! ### The two sequences -/

theorem scoredAmplitude_eq {seed : UInt32} (hseed : seed ≠ 0) (c : Channel) (n : ℕ) :
    CaptureSignal.scoredAmplitude c seed.toNat n =
      .ok ((List.range n).map (scoredAt seed c)) := by
  have hpos : seed.toNat ≠ 0 := fun h => hseed (UInt32.toNat_inj.1 h)
  have hlt := seed.toNat_lt
  have hstate : CaptureSignal.xorshift32 (derivePrng seed (prngMask c)).toNat =
      (prngAt seed c 0).toNat := xorshift32_toNat _
  unfold CaptureSignal.scoredAmplitude
  rw [if_neg (by omega), if_neg (by omega)]
  dsimp only
  rw [Int.toNat_natCast, Int.toNat_natCast, derivePrng_toNat, hstate, target_toNat]
  exact congrArg Except.ok (scoredLoop_eq seed c n 0 (Nat.zero_le n))

theorem preambleAmplitude_eq (c : Channel) :
    CaptureSignal.preambleAmplitude c none =
      .ok ((List.range preambleTotalSamples).map (preambleAt c)) := by
  unfold CaptureSignal.preambleAmplitude
  dsimp only
  rw [Option.getD_none, if_neg (by omega), Int.toNat_natCast]
  refine congrArg Except.ok (List.map_congr_left fun i _ => ?_)
  cases c <;> rfl

theorem map_amp_stageSamples (seed : UInt32) (c : Channel) (n : ℕ) :
    (stageSamples seed c .preamble n).map (·.amp) = (List.range n).map (preambleAt c) ∧
      (stageSamples seed c .scored n).map (·.amp) = (List.range n).map (scoredAt seed c) := by
  unfold stageSamples
  rw [List.map_map, List.map_map]
  exact ⟨rfl, rfl⟩

theorem parts_one {i length : ℕ} (h : i < length) (n : ℕ) :
    ∀ p ∈ List.replicate n (i, 1), p.1 < length ∧ p.2 ≤ sizeMax / 2 := by
  intro p hp
  obtain rfl := List.eq_of_mem_replicate hp
  exact ⟨h, show 1 ≤ sizeMax / 2 by decide⟩

theorem take_range {n m : ℕ} (h : n ≤ m) (f : ℕ → ℤ) :
    ((List.range m).map f).take n = (List.range n).map f := by
  rw [← List.map_take, List.take_range, Nat.min_eq_left h]

/-- **The oracle of the capture.**  After any calls on an encoder, as many amplitudes were applied
in a stage of a channel as the accepted calls asked for.  Those of the preamble are the amplitudes
of `preamble_amplitude`, those of the scored stage are the ones of `scored_amplitude`, for any
number of samples, and behind the whole preamble there are calls for every number of them. -/
theorem amplitude_oracle {seed : UInt32} {e : Encoder} (h : e.Fresh seed) {i : ℕ} {c : Channel}
    (hc : e.semantic i = some c) (calls : List Call) :
    let s := Session.run ⟨e, []⟩ calls
    let amps (stage : Stage) := (samplesOf s.log i stage).map (·.amp)
    (∀ stage, (amps stage).length = e.accepted i stage calls) ∧
    (∃ oracle, CaptureSignal.preambleAmplitude c none = .ok oracle ∧
      amps .preamble = oracle.take (amps .preamble).length) ∧
    (∀ n : ℕ, (amps .scored).length ≤ n → ∃ oracle,
      CaptureSignal.scoredAmplitude c seed.toNat n = .ok oracle ∧ oracle.length = n ∧
        amps .scored = oracle.take (amps .scored).length) ∧
    ∀ n, ∃ calls', e.accepted i .preamble calls' = preambleTotalSamples ∧
      e.accepted i .scored calls' = n := by
  intro s amps
  obtain ⟨k, hk⟩ := Session.renders_run h hc calls
  have hseed : seed ≠ 0 := by
    obtain ⟨mode, profile, ch0, ch1, setup, hinit⟩ := h
    rintro rfl
    cases hinit
  have hpreamble : amps .preamble = (List.range k.preamble).map (preambleAt c) := by
    change (samplesOf s.log i .preamble).map _ = _
    rw [hk.samples]
    exact (map_amp_stageSamples seed c _).1
  have hscored : amps .scored = (List.range k.scored).map (scoredAt seed c) := by
    change (samplesOf s.log i .scored).map _ = _
    rw [hk.samples]
    exact (map_amp_stageSamples seed c _).2
  refine ⟨fun stage => ?_, ⟨_, preambleAmplitude_eq c, ?_⟩,
    fun n hn => ⟨_, scoredAmplitude_eq hseed c n, ?_, ?_⟩, fun n => ?_⟩
  · rw [List.length_map, Session.samplesOf_run h hc, length_stageSamples]
  · rw [hpreamble, List.length_map, List.length_range, take_range hk.fit.preamble]
  · rw [List.length_map, List.length_range]
  · rw [hscored, List.length_map, List.length_range] at hn
    rw [hscored, List.length_map, List.length_range, take_range hn]
  · -- one call for each sample
    have hindex : i < e.channels.length := by
      obtain ⟨ch, hch, -⟩ := Option.map_eq_some_iff.1 hc
      exact (List.getElem?_eq_some_iff.1 hch).1
    obtain ⟨hfull, hcount⟩ := Encoder.accepted_split h hc (parts_one hindex n)
    refine ⟨_, hfull, hcount.trans ?_⟩
    simp

/-- The seed that the mask of the right channel turns into zero.  The scored samples end within the
falling ramp of the third block. -/
theorem amplitude_oracle_zero :
    ∃ e : Encoder, Encoder.init .modeA .p48_3_1 0x52494748 .right none (fun _ => true) = .ok e ∧
      let amps := (samplesOf (Session.run ⟨e, []⟩
        (e.preambleCalls ++ renderCalls [(0, 11000), (0, 550)])).log 0 .scored).map (·.amp)
      CaptureSignal.scoredAmplitude .right 0x52494748 11550 = .ok amps ∧
        amps[11540]? = some 7834 := by
  let e : Encoder := ⟨.modeA, .p48_3_1, 0x52494748, .preamble, [.init .right], false⟩
  have hfresh : e.Fresh 0x52494748 := ⟨.modeA, .p48_3_1, .right, none, fun _ => true, rfl⟩
  have hcount : e.accepted 0 .scored (e.preambleCalls ++ renderCalls [(0, 11000), (0, 550)]) =
      11550 := (Encoder.accepted_split hfresh (c := .right) rfl (by decide)).2
  obtain ⟨hlength, -, hscored, -⟩ := @amplitude_oracle 0x52494748 e hfresh 0 .right rfl
    (e.preambleCalls ++ renderCalls [(0, 11000), (0, 550)])
  have hall := (hlength .scored).trans hcount
  obtain ⟨oracle, horacle, hsize, hamps⟩ := hscored 11550 hall.le
  rw [hall, List.take_of_length_le hsize.le] at hamps
  refine ⟨e, rfl, ?_⟩
  intro amps
  have heq : amps = oracle := hamps
  refine ⟨heq ▸ horacle, ?_⟩
  -- the third block falls to the low amplitude
  have hseq := horacle.symm.trans (@scoredAmplitude_eq 0x52494748 (by decide) .right 11550)
  rw [heq, Except.ok.inj hseq, List.getElem?_map, List.getElem?_range (by decide)]
  exact congrArg some (by decide +kernel)

end Signal

end Hil

end LeAudioReceiver
