import Mathlib.Data.List.Basic
import Mathlib.Data.Nat.Notation
import Mathlib.Tactic.Ring

/-!
# The payload of the ring tests

A model of `flpr_ring_gen_payload` and `flpr_ring_verify_payload` (`src/flpr_ring.h`): the bytes
that a sequence number generates, and the comparison of received bytes with them, which runs the
same recurrence again and is to count the stereo frames, of four bytes, that differ.

* `toNat_verifyPayload` : the frames are counted whose **first** byte differs;
* `verifyPayload_eq_iff` : when that is the number of frames that differ.
-/

namespace LeAudioReceiver

namespace FlprRing

/-- The state of the recurrence in front of the first byte. -/
def payloadSeed (sequence : UInt32) : UInt64 :=
  (sequence.toUInt64 <<< 32) ^^^ 0x9E3779B97F4A7C15

/-- One round of the recurrence, for the byte at place `i`. -/
def payloadRound (state : UInt64) (i : ℕ) : UInt64 :=
  let state := state + UInt64.ofNat i
  let state := (state ^^^ (state >>> 30)) * 0xBF58476D1CE4E5B9
  let state := (state ^^^ (state >>> 27)) * 0x94D049BB133111EB
  state ^^^ (state >>> 31)

/-- The bytes from place `i` on. -/
def payloadFrom : ℕ → ℕ → UInt64 → List UInt8
  | 0, _, _ => []
  | n + 1, i, state =>
    let state := payloadRound state i
    (state &&& 0xFF).toUInt8 :: payloadFrom n (i + 1) state

/-- `flpr_ring_gen_payload`. -/
def genPayload (capBytes : ℕ) (sequence : UInt32) : List UInt8 :=
  payloadFrom capBytes 0 (payloadSeed sequence)

/-- The loop of `flpr_ring_verify_payload`, with `n` bytes left from place `i` on. -/
def verifyFrom (actual : List UInt8) : ℕ → ℕ → UInt64 → UInt32 → UInt32
  | 0, _, _, frameErrors => frameErrors
  | n + 1, i, state, frameErrors =>
    let state := payloadRound state i
    let frameErrors :=
      if actual.getD i 0 ≠ (state &&& 0xFF).toUInt8 then
        if i &&& 3 = 0 then frameErrors + 1 else frameErrors
      else frameErrors
    verifyFrom actual n (i + 1) state frameErrors

/-- `flpr_ring_verify_payload`. -/
def verifyPayload (actual : List UInt8) (validBytes : ℕ) (sequence : UInt32) : UInt32 :=
  verifyFrom actual validBytes 0 (payloadSeed sequence) 0

/-! ### The recurrence -/

/-- The state in front of the byte at place `i`. -/
def payloadState (sequence : UInt32) : ℕ → UInt64
  | 0 => payloadSeed sequence
  | i + 1 => payloadRound (payloadState sequence i) i

/-- The byte at place `i`. -/
def payloadByte (sequence : UInt32) (i : ℕ) : UInt8 :=
  (payloadState sequence (i + 1) &&& 0xFF).toUInt8

variable {sequence : UInt32}

theorem payloadFrom_state (n i : ℕ) :
    payloadFrom n i (payloadState sequence i) = (List.range' i n).map (payloadByte sequence) := by
  induction n generalizing i with
  | zero => rfl
  | succ n ih =>
    rw [List.range'_succ, List.map_cons, ← ih (i + 1)]
    rfl

/-- The generated bytes do not depend on how many there are. -/
theorem genPayload_eq (n : ℕ) (sequence : UInt32) :
    genPayload n sequence = (List.range n).map (payloadByte sequence) := by
  rw [List.range_eq_range']
  exact payloadFrom_state n 0

/-- The verifier counts at the places that are multiples of four. -/
def countsAt (actual : List UInt8) (sequence : UInt32) (i : ℕ) : Bool :=
  i % 4 = 0 && actual.getD i 0 ≠ payloadByte sequence i

theorem verifyFrom_state (actual : List UInt8) (n i : ℕ) (frameErrors : UInt32) :
    verifyFrom actual n i (payloadState sequence i) frameErrors =
      frameErrors + UInt32.ofNat ((List.range' i n).countP (countsAt actual sequence)) := by
  induction n generalizing i frameErrors with
  | zero => exact (UInt32.add_zero _).symm
  | succ n ih =>
    have hmask : i &&& 3 = i % 4 := Nat.and_two_pow_sub_one_eq_mod i 2
    have hstep : verifyFrom actual (n + 1) i (payloadState sequence i) frameErrors =
        verifyFrom actual n (i + 1) (payloadState sequence (i + 1))
          (if countsAt actual sequence i then frameErrors + 1 else frameErrors) := by
      rw [verifyFrom, hmask]
      change verifyFrom actual n (i + 1) (payloadState sequence (i + 1))
        (if actual.getD i 0 ≠ payloadByte sequence i then
          if i % 4 = 0 then frameErrors + 1 else frameErrors else frameErrors) = _
      unfold countsAt
      by_cases hplace : i % 4 = 0 <;> simp [hplace]
    rw [hstep, ih, List.range'_succ, List.countP_cons]
    split_ifs
    · rw [UInt32.ofNat_add, UInt32.add_assoc, UInt32.add_comm 1]
      rfl
    · rfl

/-! ### Frames -/

/-- Stereo frame `f`, or what there is of it. -/
def frameBytes (bytes : List UInt8) (f : ℕ) : List UInt8 := (bytes.drop (4 * f)).take 4

/-- Frame `f` differs from the generated one. -/
def frameDiffers (actual : List UInt8) (validBytes : ℕ) (sequence : UInt32) (f : ℕ) : Bool :=
  frameBytes (actual.take validBytes) f ≠ frameBytes (genPayload validBytes sequence) f

/-- Its first byte differs. -/
def firstByteDiffers (actual : List UInt8) (validBytes : ℕ) (sequence : UInt32) (f : ℕ) : Bool :=
  (actual.take validBytes)[4 * f]? ≠ (genPayload validBytes sequence)[4 * f]?

/-- The number of frames in `n` bytes, the last one possibly incomplete. -/
def frameCount (n : ℕ) : ℕ := (n + 3) / 4

theorem frameDiffers_of_firstByteDiffers {actual : List UInt8} {n f : ℕ}
    (h : firstByteDiffers actual n sequence f = true) :
    frameDiffers actual n sequence f = true := by
  have hfirst : ∀ bytes : List UInt8, (frameBytes bytes f)[0]? = bytes[4 * f]? := by
    intro bytes
    unfold frameBytes
    rw [List.getElem?_take_of_lt (by decide), List.getElem?_drop, Nat.add_zero]
  unfold frameDiffers
  unfold firstByteDiffers at h
  rw [decide_eq_true_eq] at h ⊢
  intro heq
  rw [← hfirst, ← hfirst, heq] at h
  exact h rfl

/-- Counting at the multiples of four is counting frames. -/
theorem countP_frames (P : ℕ → Bool) (n : ℕ) :
    (List.range n).countP (fun i => i % 4 = 0 && P i) =
      (List.range (frameCount n)).countP fun f => P (4 * f) := by
  unfold frameCount
  induction n with
  | zero => rfl
  | succ n ih =>
    rw [List.range_succ, List.countP_append, ih, List.countP_singleton]
    by_cases hn : n % 4 = 0
    · -- byte `n` begins a frame
      have hcount : (n + 1 + 3) / 4 = (n + 3) / 4 + 1 := by omega
      have hplace : n = 4 * ((n + 3) / 4) := by omega
      rw [hcount, List.range_succ, List.countP_append, List.countP_singleton, ← hplace]
      simp [hn]
    · have hcount : (n + 1 + 3) / 4 = (n + 3) / 4 := by omega
      rw [hcount]
      simp [hn]

/-- The verifier counts the frames whose first byte differs. -/
theorem toNat_verifyPayload {actual : List UInt8} {validBytes : ℕ} (hsize : validBytes < 2 ^ 32)
    (hbuf : validBytes ≤ actual.length) (sequence : UInt32) :
    (verifyPayload actual validBytes sequence).toNat =
      (List.range (frameCount validBytes)).countP
        (firstByteDiffers actual validBytes sequence) := by
  have hplaces : ∀ f ∈ List.range (frameCount validBytes),
      decide (actual.getD (4 * f) 0 ≠ payloadByte sequence (4 * f)) =
        firstByteDiffers actual validBytes sequence f := by
    intro f hf
    have hlt : 4 * f < validBytes := by
      rw [List.mem_range] at hf
      unfold frameCount at hf
      omega
    unfold firstByteDiffers
    rw [genPayload_eq, List.getElem?_take_of_lt hlt, List.getElem?_map, List.getElem?_range hlt,
      List.getD_eq_getElem?_getD, List.getElem?_eq_getElem (Nat.lt_of_lt_of_le hlt hbuf)]
    simp
  have hcount : (List.range validBytes).countP (countsAt actual sequence) =
      (List.range (frameCount validBytes)).countP
        (firstByteDiffers actual validBytes sequence) := by
    refine (countP_frames (fun i => actual.getD i 0 ≠ payloadByte sequence i) validBytes).trans ?_
    exact List.countP_congr fun f hf => Bool.eq_iff_iff.1 (hplaces f hf)
  have hle : (List.range (frameCount validBytes)).countP
      (firstByteDiffers actual validBytes sequence) ≤ (validBytes + 3) / 4 := by
    exact Nat.le_trans List.countP_le_length (Nat.le_of_eq List.length_range)
  have hloop := @verifyFrom_state sequence actual validBytes 0 0
  rw [UInt32.zero_add, ← List.range_eq_range', hcount] at hloop
  unfold verifyPayload
  rw [show payloadSeed sequence = payloadState sequence 0 from rfl, hloop, UInt32.toNat_ofNat']
  exact Nat.mod_eq_of_lt (by omega)

/-- Two predicates of which one implies the other hold equally often only if they agree. -/
theorem countP_eq_countP_iff {α : Type*} {p q : α → Bool} {l : List α}
    (h : ∀ x ∈ l, p x = true → q x = true) :
    l.countP p = l.countP q ↔ ∀ x ∈ l, q x = true → p x = true := by
  induction l with
  | nil => simp
  | cons x l ih =>
    obtain ⟨hx, hl⟩ := List.forall_mem_cons.1 h
    have hle := List.countP_mono_left hl
    rw [List.countP_cons, List.countP_cons, List.forall_mem_cons, ← ih hl]
    cases hp : p x <;> cases hq : q x <;> simp_all
    omega

/-- **The verifier** returns the number of frames that differ from the generated ones if and only
if each of them differs in its first byte. -/
theorem verifyPayload_eq_iff {actual : List UInt8} {validBytes : ℕ} (hsize : validBytes < 2 ^ 32)
    (hbuf : validBytes ≤ actual.length) (sequence : UInt32) :
    (verifyPayload actual validBytes sequence).toNat =
        (List.range (frameCount validBytes)).countP (frameDiffers actual validBytes sequence) ↔
      ∀ f < frameCount validBytes, frameDiffers actual validBytes sequence f = true →
        firstByteDiffers actual validBytes sequence f = true := by
  rw [toNat_verifyPayload hsize hbuf,
    countP_eq_countP_iff fun f _ => frameDiffers_of_firstByteDiffers]
  simp only [List.mem_range]

/-- A payload whose first byte is corrupted. -/
theorem verifyPayload_first :
    (verifyPayload [0, 203, 241, 32] 4 0).toNat =
      (List.range (frameCount 4)).countP (frameDiffers [0, 203, 241, 32] 4 0) :=
  (verifyPayload_eq_iff (by decide) (by decide) 0).2 (by decide +kernel)

/-- A payload whose second byte is corrupted passes. -/
theorem verifyPayload_blind :
    (verifyPayload ((genPayload 4 0).set 1 0) 4 0).toNat = 0 ∧
      (List.range (frameCount 4)).countP (frameDiffers ((genPayload 4 0).set 1 0) 4 0) = 1 := by
  decide +kernel

end FlprRing

end LeAudioReceiver
