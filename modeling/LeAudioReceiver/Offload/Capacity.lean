import LeAudioReceiver.Asrc.Split
import LeAudioReceiver.Offload.Submit

/-!
# The capacity of an output slot

In production the converter takes blocks of 480 frames from 48000 Hz to 47619 Hz, with a
correction of at most 3000 ppm that may change with every block.  The remote core keeps no state:
each answer carries the state that the next request brings back.

How many frames a block yields depends on the phase the blocks before it left behind.  That phase
stays between nothing and one step at the largest correction, whatever the corrections were, and
this bounds the frames of every block.

* `Carry` : the bound on the phase;
* `Carry.due` : a block yields 474 to 478 frames;
* `Carry.advance` : the phase it leaves is bounded again;
* `stream_fits` : **every block of a stream is converted whole** and fits its slot.
-/

namespace LeAudioReceiver

namespace Offload

open Asrc (Frame AsrcState AudioAsrc Session q32One)
open FlprRing Resample

/-! ### The phase between two blocks -/

/-- The nominal step of the production rates. -/
def productionStep : ℕ := 4329331364

/-- The largest correction of the production step. -/
def productionDelta : ℕ := 12987994

theorem init_production : Asrc.init 48000 47619 = some ⟨4294967296, 4329331364⟩ := by decide

/-- The states of the converter between two blocks: the nominal step is the production step, and
the phase is at most one step. -/
structure Carry (s : Session) : Prop where
  stepBase : s.ctx.stepBase.toNat = productionStep
  phase_pos : 0 < s.ctx.phase.toNat
  phase_le : s.ctx.phase.toNat ≤ productionStep + productionDelta
  seeded : s.prevValid = true ∨ q32One ≤ s.ctx.phase.toNat

namespace Carry

variable {s : Session} {ppm : ℤ}

theorem ok (h : Carry s) : s.Ok where
  step_pos := by
    rw [h.stepBase]
    decide
  step_lt := by
    rw [h.stepBase]
    decide
  seeded := h.seeded

theorem step_near (h : Carry s) (h₁ : -Asrc.maxPpm ≤ ppm) (h₂ : ppm ≤ Asrc.maxPpm) :
    productionStep - productionDelta ≤ s.ctx.step ppm ∧
      s.ctx.step ppm ≤ productionStep + productionDelta := by
  rw [AudioAsrc.step, h.stepBase]
  exact Asrc.computeStep_near (by decide) (by decide) (by decide) h₁ h₂

/-- The frames of one block. -/
theorem due (h : Carry s) (h₁ : -Asrc.maxPpm ≤ ppm) (h₂ : ppm ≤ Asrc.maxPpm) :
    474 ≤ s.ctx.dueFrames ppm payloadMaxInput ∧ s.ctx.dueFrames ppm payloadMaxInput ≤ 478 := by
  obtain ⟨hlo, hhi⟩ := h.step_near h₁ h₂
  have hpos := h.phase_pos
  have hle := h.phase_le
  have hfits : s.ctx.phase.toNat ≤ payloadMaxInput * q32One := hle.trans (by decide)
  rw [AudioAsrc.dueFrames, Resample.due, if_pos hfits]
  generalize s.ctx.step ppm = step at hlo hhi
  generalize s.ctx.phase.toNat = phase at hpos hle
  simp only [productionStep, productionDelta, payloadMaxInput, q32One] at *
  have hstep : 0 < step := by omega
  constructor
  · -- 474 of the largest steps fit behind the largest phase
    have : 473 ≤ (480 * 2 ^ 32 - phase) / step := (Nat.le_div_iff_mul_le hstep).2 (by omega)
    omega
  · have : (480 * 2 ^ 32 - phase) / step < 478 := (Nat.div_lt_iff_lt_mul hstep).2 (by omega)
    omega

/-- The phase behind a block: positive, and at most the step of that block. -/
theorem advance (h : Carry s) (h₁ : -Asrc.maxPpm ≤ ppm) (h₂ : ppm ≤ Asrc.maxPpm) (prev : Frame) :
    Carry ⟨s.ctx.advance ppm payloadMaxInput, prev, true⟩ := by
  obtain ⟨hs, hlt⟩ := h.ok.step_bounds h₁ h₂
  obtain ⟨-, hhi⟩ := h.step_near h₁ h₂
  obtain ⟨hdue, -⟩ := h.due h₁ h₂
  have hphase := AudioAsrc.advance_phase hs hlt payloadMaxInput
  have hexit := AudioAsrc.lt_exit hs payloadMaxInput
  have hlast := add_mul_le_of_lt_due hs
    (show s.ctx.dueFrames ppm payloadMaxInput - 1 < s.ctx.dueFrames ppm payloadMaxInput by omega)
  have hmul : s.ctx.dueFrames ppm payloadMaxInput * s.ctx.step ppm =
      (s.ctx.dueFrames ppm payloadMaxInput - 1) * s.ctx.step ppm + s.ctx.step ppm := by
    rw [← Nat.succ_mul, Nat.succ_eq_add_one, Nat.sub_add_cancel (by omega)]
  refine ⟨?_, ?_, ?_, .inl rfl⟩
  · rw [AudioAsrc.advance_stepBase]
    exact h.stepBase
  · dsimp only
    omega
  · dsimp only
    omega

end Carry

theorem carry_init {ctx : AudioAsrc} (h : Asrc.init 48000 47619 = some ctx) (prev : Frame)
    (prevValid : Bool) : Carry ⟨ctx, prev, prevValid⟩ := by
  rw [init_production] at h
  obtain rfl := Option.some.inj h
  have hphase : (4294967296 : UInt64).toNat = q32One := by decide
  refine ⟨?_, ?_, ?_, .inr hphase.ge⟩
  · show (4329331364 : UInt64).toNat = productionStep
    decide
  · show 0 < (4294967296 : UInt64).toNat
    decide
  · show (4294967296 : UInt64).toNat ≤ productionStep + productionDelta
    decide

/-! ### One request -/

/-- A request to resample a block of 480 frames: the flags, the frame count, the correction, and
a checksum that is absent or right.  The samples, the state and the other fields are free. -/
structure AsrcRequest (m : SlotMeta) (payload : List UInt8) : Prop where
  flagValid : m.flags &&& flagValid ≠ 0
  flagsKnown : m.flags &&& ~~~knownFlags = 0
  flagAsrc : m.flags &&& flagAsrcLinear ≠ 0
  frames : m.validFrames.toNat = payloadMaxInput
  bytes : payloadMaxInput * 4 ≤ payload.length
  ppm_ge : -Asrc.maxPpm ≤ m.correctionPpm.toInt
  ppm_le : m.correctionPpm.toInt ≤ Asrc.maxPpm
  crc : m.crc32 = 0 ∨ crc32 (payload.take (payloadMaxInput * 4)) = m.crc32

theorem AsrcRequest.withState {m : SlotMeta} {payload : List UInt8} (h : AsrcRequest m payload)
    (st : AsrcState) : AsrcRequest { m with asrcState := st } payload :=
  ⟨h.flagValid, h.flagsKnown, h.flagAsrc, h.frames, h.bytes, h.ppm_ge, h.ppm_le, h.crc⟩

theorem AsrcRequest.validateInput {m : SlotMeta} {payload : List UInt8}
    (h : AsrcRequest m payload) : validateInput m payload = none := by
  have hframes := h.frames
  have hzero : m.validFrames ≠ 0 := by
    intro h₀
    rw [h₀] at hframes
    exact absurd hframes (by decide)
  have hcap : ¬ payloadMaxInput > payloadCapacityFrames := by decide
  have hppm : ¬ (m.correctionPpm.toInt < -Asrc.maxPpm ∨ m.correctionPpm.toInt > Asrc.maxPpm) := by
    have := h.ppm_ge
    have := h.ppm_le
    omega
  have hcrc : ¬ (m.crc32 ≠ 0 ∧ crc32 (payload.take (payloadMaxInput * 4)) ≠ m.crc32) := by
    rcases h.crc with hc | hc <;> simp [hc]
  simp only [Offload.validateInput, hframes, if_neg h.flagValid, h.flagsKnown, ne_eq,
    not_true_eq_false, if_false, hzero, hcap, Nat.not_lt.2 h.bytes, hppm, and_false]
  exact if_neg hcrc

theorem AsrcRequest.flprAudioProcess_eq {m : SlotMeta} {payload : List UInt8}
    (h : AsrcRequest m payload) {ctx ctx' : AudioAsrc} {prev : Frame} {prevValid : Bool}
    {output : List Frame} {next : Option Frame}
    (himport : Asrc.stateImport m.asrcState = some (ctx, prev, prevValid))
    (hdone : Asrc.process ctx (decodeFrames payloadMaxInput payload) payloadCapacityFrames
      m.correctionPpm.toInt prev prevValid = .done ctx' output payloadMaxInput next)
    (hpos : 0 < output.length) (hcap : output.length ≤ payloadCapacityFrames) :
    flprAudioProcess m payload payloadCapacityBytes =
      (0, asrcMeta m ctx' output (next.getD ⟨0, 0⟩),
        padTo payloadCapacityBytes (encodeFrames output)) := by
  have hasrc : processAsrc m payload payloadCapacityBytes =
      .ok (asrcMeta m ctx' output (next.getD ⟨0, 0⟩),
        padTo payloadCapacityBytes (encodeFrames output)) := by
    have hlen : ¬ (output.length = 0 ∨ output.length > payloadCapacityFrames) := by omega
    simp only [processAsrc, h.frames, himport, hdone, ne_eq, not_true_eq_false, if_false,
      lt_irrefl, hlen]
    rfl
  rw [flprAudioProcess, h.validateInput]
  simp only [if_pos h.flagAsrc, hasrc]

/-- The requests that `flpr_ring_mgr_produce_asrc` writes are of this kind. -/
theorem asrcRequest_requestSlot {old : Slot} {epoch timestamp sequence : UInt32}
    {pcm : List Frame} {ppm : Int32} {preState : AsrcState} (hlen : pcm.length = payloadMaxInput)
    (h₁ : -Asrc.maxPpm ≤ ppm.toInt) (h₂ : ppm.toInt ≤ Asrc.maxPpm) :
    AsrcRequest (requestSlot old epoch timestamp pcm sequence ppm preState).slotMeta
      (requestSlot old epoch timestamp pcm sequence ppm preState).payload where
  flagValid := by
    show (flagValid ||| flagAsrcLinear) &&& flagValid ≠ 0
    decide
  flagsKnown := by
    show (flagValid ||| flagAsrcLinear) &&& ~~~knownFlags = 0
    decide
  flagAsrc := by
    show (flagValid ||| flagAsrcLinear) &&& flagAsrcLinear ≠ 0
    decide
  frames := by
    show (UInt16.ofNat payloadMaxInput).toNat = payloadMaxInput
    decide
  bytes := by
    simp only [requestSlot, padTo, List.length_append, List.length_take, length_encodeFrames, hlen,
      Nat.min_self]
    exact Nat.le_add_right _ _
  ppm_ge := h₁
  ppm_le := h₂
  crc := .inr rfl

/-! ### A stream of requests -/

/-- One block of a stream: the state it was sent with, the request, and what came back. -/
structure Processed where
  state : AsrcState
  request : SlotMeta × List UInt8
  ret : Int32
  outMeta : SlotMeta
  outPayload : List UInt8

/-- A block sent with the state `st`. -/
def processBlock (st : AsrcState) (request : SlotMeta × List UInt8) : Processed :=
  let r := flprAudioProcess { request.1 with asrcState := st } request.2 payloadCapacityBytes
  ⟨st, request, r.1, r.2.1, r.2.2⟩

/-- A stream: every block is sent with the state that the block before it came back with. -/
def stream : AsrcState → List (SlotMeta × List UInt8) → List Processed
  | _, [] => []
  | st, request :: requests =>
    processBlock st request :: stream (processBlock st request).outMeta.asrcState requests

/-- The block was accepted, all of its 480 frames were consumed, and the frames that were produced
are between 474 and 478, as the answer says. -/
def Processed.Fits (p : Processed) : Prop :=
  p.ret = 0 ∧
  474 ≤ p.outMeta.validFrames.toNat ∧ p.outMeta.validFrames.toNat ≤ 478 ∧
  ∃ ctx prev prevValid ctx' output next,
    Asrc.stateImport p.state = some (ctx, prev, prevValid) ∧
    Asrc.process ctx (decodeFrames payloadMaxInput p.request.2) payloadCapacityFrames
      p.request.1.correctionPpm.toInt prev prevValid = .done ctx' output payloadMaxInput next ∧
    output.length = p.outMeta.validFrames.toNat ∧
    p.outPayload = padTo payloadCapacityBytes (encodeFrames output)

theorem processBlock_fits {s : Session} (hs : Carry s) {request : SlotMeta × List UInt8}
    (hr : AsrcRequest request.1 request.2) :
    (processBlock (Asrc.stateExport s.ctx s.prev s.prevValid) request).Fits ∧
    ∃ s', Carry s' ∧
      (processBlock (Asrc.stateExport s.ctx s.prev s.prevValid) request).outMeta.asrcState =
        Asrc.stateExport s'.ctx s'.prev s'.prevValid := by
  obtain ⟨m, payload⟩ := request
  replace hr : AsrcRequest m payload := hr
  have hframes := length_decodeFrames hr.bytes
  let b : Asrc.Block := ⟨decodeFrames payloadMaxInput payload,
    List.ne_nil_of_length_pos (by rw [hframes]; decide), by rw [hframes]; decide⟩
  have hb : b.frames.length = payloadMaxInput := hframes
  obtain ⟨hlo, hhi⟩ := hs.due hr.ppm_ge hr.ppm_le
  have hroomy : Asrc.Roomy s.ctx m.correctionPpm.toInt b payloadCapacityFrames := by
    refine ⟨by decide, ?_⟩
    rw [hb]
    exact hhi.trans (by decide)
  have hdone := Asrc.process_done hs.ok hr.ppm_ge hr.ppm_le hroomy
  have hlen : (s.output m.correctionPpm.toInt b.frames).length =
      s.ctx.dueFrames m.correctionPpm.toInt payloadMaxInput := by
    rw [Session.output, length_render, hb]
    rfl
  rw [hb] at hdone
  set output := s.output m.correctionPpm.toInt b.frames
  have hstep : s.ctx.stepBase ≠ 0 := by
    intro h₀
    have := hs.stepBase
    rw [h₀] at this
    exact absurd this (by decide)
  have himport := Asrc.stateImport_stateExport s.prev s.prevValid hstep
  have heq := (hr.withState (Asrc.stateExport s.ctx s.prev s.prevValid)).flprAudioProcess_eq
    himport hdone (by omega) (hlen.trans_le (hhi.trans (by decide)))
  have hvalid : (UInt16.ofNat output.length).toNat = output.length :=
    UInt16.toNat_ofNat_of_lt' (by show _ < 65536; omega)
  refine ⟨⟨?_, ?_, ?_, s.ctx, s.prev, s.prevValid, _, output, _, himport, hdone, ?_, ?_⟩,
    _, hs.advance hr.ppm_ge hr.ppm_le b.last, ?_⟩ <;>
    simp only [processBlock, heq, asrcMeta, hvalid]
  · omega
  · omega
  · rfl

/-- **Every block of a stream is converted whole.**  From the production rates, with corrections
that change from block to block, each answer is accepted and carries 474 to 478 frames. -/
theorem stream_fits {ctx : AudioAsrc} (hinit : Asrc.init 48000 47619 = some ctx) (prev : Frame)
    (prevValid : Bool) (requests : List (SlotMeta × List UInt8))
    (hr : ∀ r ∈ requests, AsrcRequest r.1 r.2) :
    ∀ p ∈ stream (Asrc.stateExport ctx prev prevValid) requests, p.Fits := by
  suffices H : ∀ s : Session, Carry s →
      ∀ p ∈ stream (Asrc.stateExport s.ctx s.prev s.prevValid) requests, p.Fits from
    H _ (carry_init hinit prev prevValid)
  induction requests with
  | nil => exact fun _ _ p hp => nomatch hp
  | cons r requests ih =>
    intro s hs p hp
    obtain ⟨hfits, s', hs', hstate⟩ := processBlock_fits hs (hr r (List.mem_cons_self ..))
    rcases List.mem_cons.1 hp with rfl | hp
    · exact hfits
    · rw [hstate] at hp
      exact ih (fun r' hr' => hr r' (List.mem_cons_of_mem _ hr')) s' hs' p hp

/-- A block of silence with the correction `ppm`. -/
def silentBlock (ppm : Int32) : SlotMeta × List UInt8 :=
  let slot := requestSlot ⟨SlotMeta.zero, []⟩ 1 0 (List.replicate payloadMaxInput ⟨0, 0⟩) 0 ppm
    SlotMeta.zero.asrcState
  (slot.slotMeta, slot.payload)

/-- Two blocks with the two extreme corrections. -/
theorem stream_fits_extremes :
    Asrc.init 48000 47619 = some ⟨4294967296, 4329331364⟩ ∧
    ∀ p ∈ stream (Asrc.stateExport ⟨4294967296, 4329331364⟩ ⟨0, 0⟩ false)
      [silentBlock 3000, silentBlock (-3000)], p.Fits := by
  refine ⟨init_production, stream_fits init_production ⟨0, 0⟩ false _ ?_⟩
  have hlen : (List.replicate payloadMaxInput (⟨0, 0⟩ : Frame)).length = payloadMaxInput :=
    List.length_replicate ..
  intro r hr
  rcases List.mem_cons.1 hr with rfl | hr
  · exact asrcRequest_requestSlot hlen (by decide) (by decide)
  · obtain rfl := List.mem_singleton.1 hr
    exact asrcRequest_requestSlot hlen (by decide) (by decide)

end Offload

end LeAudioReceiver
