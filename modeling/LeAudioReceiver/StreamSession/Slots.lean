import LeAudioReceiver.AudioPath.Basic
import LeAudioReceiver.Machine.Basic
import LeAudioReceiver.Threads.Basic
import Mathlib.Algebra.BigOperators.Fin

/-!
# The slots of the receive session

The configured slots of `src/audio_stream_session.c` and the number of them that is kept beside
their flags: Config counts up, Release counts down, and the mode of a slot is inferred from the
count.

* `Slots.agrees_iff` : the count agrees with the flags all along a sequence of calls **exactly if
  no Config is for a slot that is configured already**;
* `Slots.stray_modeA` : two Configs of one slot make it a channel of a stream of two.

Left out are the decoders, the trackers, the assembler and the receive counters, which these
functions only clear.
-/

namespace LeAudioReceiver

namespace StreamSession

open AudioPath (maxSinkAse Session setAt)
open Threads

/-- `struct audio_stream_codec_shape`. -/
structure Shape where
  freqHz : UInt16
  frameDurUs : UInt16
  octetsPerFrame : UInt16
  frameBlocksPerSdu : UInt8
  chanCount : UInt8
  deriving DecidableEq, Repr

/-- After `memset`. -/
def Shape.zero : Shape := ⟨0, 0, 0, 0, 0⟩

/-- `struct audio_stream_slot`. -/
structure Slot where
  configured : Bool
  shape : Shape
  pdUs : UInt32
  deriving DecidableEq, Repr

/-- A slot that is not configured. -/
def Slot.clear : Slot := ⟨false, .zero, 0⟩

/-- `enum audio_stream_mode`. -/
inductive Mode where
  | mono
  | modeB
  | modeA
  deriving DecidableEq, Repr

/-- The slots of `struct audio_stream_session_data`. -/
structure Slots where
  slots : Fin maxSinkAse → Slot
  configuredCount : ℕ

namespace Slots

variable (s : Slots)

/-! ### The functions of the session -/

/-- `slot_at`. -/
def slotAt (idx : ℕ) : Option (Fin maxSinkAse) :=
  if h : idx < maxSinkAse then some ⟨idx, h⟩ else none

/-- A write to one slot. -/
def set (i : Fin maxSinkAse) (sl : Slot) : Slots :=
  { s with slots := Function.update s.slots i sl }

/-- `audio_stream_session_init`. -/
def init : Slots := ⟨fun _ => .clear, 0⟩

/-- `audio_stream_session_config`; no result is `-EINVAL`. -/
def config (idx : ℕ) (shape : Option Shape) : Option Slots := do
  let shape ← shape
  let i ← slotAt idx
  return { s.set i ⟨true, shape, 0⟩ with configuredCount := s.configuredCount + 1 }

/-- `audio_stream_session_qos`; no result is `-EINVAL`. -/
def qos (idx : ℕ) (pdUs : UInt32) : Option Slots := do
  let i ← slotAt idx
  if !(s.slots i).configured then none
  else return s.set i { s.slots i with pdUs := pdUs }

/-- `audio_stream_session_release`. -/
def release (idx : ℕ) : Slots :=
  match slotAt idx with
  | none => s
  | some i =>
    if !(s.slots i).configured then s
    else
      { s.set i .clear with
        configuredCount :=
          if s.configuredCount > 0 then s.configuredCount - 1 else s.configuredCount }

/-- `audio_stream_session_reset_all`. -/
def resetAll : Slots := ⟨fun _ => .clear, 0⟩

/-- `slot_mode`. -/
def slotMode (sl : Slot) : Mode :=
  if sl.shape.chanCount ≥ 2 then .modeB
  else if s.configuredCount ≥ 2 then .modeA
  else .mono

/-- `audio_stream_session_mode`. -/
def mode (idx : ℕ) : Mode :=
  match slotAt idx with
  | none => .mono
  | some i => if (s.slots i).configured then s.slotMode (s.slots i) else .mono

/-! ### Sequences of calls -/

/-- A call. -/
inductive Call where
  | init
  | config (idx : ℕ) (shape : Option Shape)
  | qos (idx : ℕ) (pdUs : UInt32)
  | release (idx : ℕ)
  | resetAll
  deriving DecidableEq, Repr

/-- What a call leaves behind; a call that is refused leaves everything as it was. -/
def call : Call → Slots
  | .init => init
  | .config idx shape => (s.config idx shape).getD s
  | .qos idx pdUs => (s.qos idx pdUs).getD s
  | .release idx => s.release idx
  | .resetAll => resetAll

/-- The number of slots whose flag is set. -/
def numConfigured : ℕ := countAt Slot.configured s.slots

/-- The count agrees with the flags, and so does what is inferred from it. -/
structure Agrees : Prop where
  count : s.configuredCount = s.numConfigured
  modeA : ∀ i, (s.slots i).shape.chanCount < 2 →
    (s.slotMode (s.slots i) = .modeA ↔ ∀ j, (s.slots j).configured = true)

/-- The call is no Config of a configured slot. -/
def Fresh : Call → Prop
  | .config idx (some _) => ∀ i, slotAt idx = some i → (s.slots i).configured = false
  | _ => True

variable {s}

theorem numConfigured_eq_two : s.numConfigured = 2 ↔ ∀ j, (s.slots j).configured = true := by
  have hsum : s.numConfigured = (s.slots 0).configured.toNat + (s.slots 1).configured.toNat :=
    Fin.sum_univ_two fun i => (s.slots i).configured.toNat
  have hall : (∀ j, (s.slots j).configured = true) ↔
      (s.slots 0).configured = true ∧ (s.slots 1).configured = true :=
    Fin.forall_fin_two
  rw [hsum, hall]
  cases (s.slots 0).configured <;> cases (s.slots 1).configured <;> simp

theorem numConfigured_le : s.numConfigured ≤ 2 := by
  have hsum : s.numConfigured = (s.slots 0).configured.toNat + (s.slots 1).configured.toNat :=
    Fin.sum_univ_two fun i => (s.slots i).configured.toNat
  have h₀ := Bool.toNat_le (s.slots 0).configured
  have h₁ := Bool.toNat_le (s.slots 1).configured
  omega

theorem agrees_of_count (h : s.configuredCount = s.numConfigured) : s.Agrees := by
  refine ⟨h, fun i hi => ?_⟩
  have hle := s.numConfigured_le
  have hmono : ¬ (s.slots i).shape.chanCount ≥ 2 := by
    rw [ge_iff_le, UInt8.le_iff_toNat_le]
    rw [UInt8.lt_iff_toNat_lt] at hi
    omega
  rw [← numConfigured_eq_two, slotMode, if_neg hmono]
  split_ifs with h₂
  · exact ⟨fun _ => by omega, fun _ => rfl⟩
  · exact iff_of_false not_false (by omega)

theorem numConfigured_set (i : Fin maxSinkAse) (sl : Slot) :
    (s.set i sl).numConfigured + (s.slots i).configured.toNat =
      s.numConfigured + sl.configured.toNat :=
  countAt_update Slot.configured s.slots i sl

theorem numConfigured_clear (n : ℕ) : numConfigured ⟨fun _ => .clear, n⟩ = 0 :=
  countAt_eq_zero.2 fun _ => rfl

theorem agrees_call_iff (h : s.Agrees) (c : Call) : (s.call c).Agrees ↔ s.Fresh c := by
  have hclear : Agrees ⟨fun _ => .clear, 0⟩ := agrees_of_count (numConfigured_clear 0).symm
  -- only a Config of a configured slot counts a slot twice
  cases c with
  | init | resetAll => exact iff_of_true hclear trivial
  | config idx shape =>
    cases shape with
    | none => exact iff_of_true h trivial
    | some sh =>
      cases hi : slotAt idx with
      | none =>
        have hcall : s.call (.config idx (some sh)) = s := by simp [call, config, hi]
        exact iff_of_true (hcall.symm ▸ h) fun i hsome => by rw [hi] at hsome; cases hsome
      | some i =>
        have hcall : s.call (.config idx (some sh)) =
            { s.set i ⟨true, sh, 0⟩ with configuredCount := s.configuredCount + 1 } := by
          simp [call, config, hi]
        have hset := s.numConfigured_set i ⟨true, sh, 0⟩
        have hcount := h.count
        have hfresh : s.Fresh (.config idx (some sh)) ↔ (s.slots i).configured = false := by
          simp only [Fresh, hi, Option.some.injEq, forall_eq']
        rw [hfresh, hcall]
        constructor
        · intro h'
          have hcount' : s.configuredCount + 1 = (s.set i ⟨true, sh, 0⟩).numConfigured := h'.count
          -- with the flag set before, the count would be one too high
          cases hconf : (s.slots i).configured with
          | false => rfl
          | true =>
            rw [hconf] at hset
            simp only [Bool.toNat_true] at hset
            omega
        · intro hconf
          rw [hconf] at hset
          refine agrees_of_count ?_
          show s.configuredCount + 1 = (s.set i ⟨true, sh, 0⟩).numConfigured
          simp only [Bool.toNat_true, Bool.toNat_false] at hset
          omega
  | qos idx pdUs =>
    refine iff_of_true ?_ trivial
    cases hi : slotAt idx with
    | none =>
      have hcall : s.call (.qos idx pdUs) = s := by simp [call, qos, hi]
      exact hcall.symm ▸ h
    | some i =>
      cases hconf : (s.slots i).configured with
      | false =>
        have hcall : s.call (.qos idx pdUs) = s := by simp [call, qos, hi, hconf]
        exact hcall.symm ▸ h
      | true =>
        have hcall : s.call (.qos idx pdUs) = s.set i { s.slots i with pdUs := pdUs } := by
          simp [call, qos, hi, hconf]
        have hset := s.numConfigured_set i { s.slots i with pdUs := pdUs }
        rw [hcall]
        exact agrees_of_count (h.count.trans (Nat.add_right_cancel hset).symm)
  | release idx =>
    refine iff_of_true ?_ trivial
    cases hi : slotAt idx with
    | none =>
      have hcall : s.call (.release idx) = s := by simp [call, release, hi]
      exact hcall.symm ▸ h
    | some i =>
      cases hconf : (s.slots i).configured with
      | false =>
        have hcall : s.call (.release idx) = s := by simp [call, release, hi, hconf]
        exact hcall.symm ▸ h
      | true =>
        have hset := s.numConfigured_set i .clear
        have hcount := h.count
        rw [hconf] at hset
        simp only [Slot.clear, Bool.toNat_true, Bool.toNat_false] at hset
        have hpos : s.configuredCount > 0 := by omega
        have hcall : s.call (.release idx) =
            { s.set i .clear with configuredCount := s.configuredCount - 1 } := by
          simp [call, release, hi, hconf, hpos]
        rw [hcall]
        refine agrees_of_count ?_
        show s.configuredCount - 1 = (s.set i .clear).numConfigured
        simp only [Slot.clear]
        omega

/-- The count and the mode agree with the flags in every state of a sequence of calls exactly if
no Config of the sequence is for a slot that is configured. -/
theorem agrees_iff (calls : List Call) :
    (∀ calls', calls' <+: calls → (calls'.foldl call init).Agrees) ↔
      ∀ calls' c, calls' ++ [c] <+: calls → (calls'.foldl call init).Fresh c := by
  refine Machine.forall_prefix_iff ?_ ?_ calls
  · intro s c h
    exact agrees_call_iff h c
  · exact agrees_of_count (numConfigured_clear 0).symm

/-- One mono slot, configured twice, is taken for a channel of a stream of two. -/
theorem stray_modeA :
    let s := [Call.config 0 (some ⟨48000, 10000, 60, 1, 1⟩),
      .config 0 (some ⟨48000, 10000, 60, 1, 1⟩)].foldl call init
    s.configuredCount = 2 ∧ s.numConfigured = 1 ∧ s.mode 0 = .modeA := by
  decide

end Slots

end StreamSession

end LeAudioReceiver
