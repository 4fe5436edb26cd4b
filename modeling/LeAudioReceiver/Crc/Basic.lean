import Mathlib.Data.BitVec
import Mathlib.Tactic.Common

/-!
# Reflected cyclic redundancy checks

A reflected CRC of width `w` takes a message bit by bit, low bit first: `bitStep` moves the
remainder down one place and subtracts the polynomial when a one falls out.  Practical code looks
up eight such steps in a table of 256 remainders.

* `bitSteps_xor` : steps are linear in exclusive or;
* `bitSteps_of_low_clear` : a remainder with `n` clear low bits only moves down in `n` steps;
* `bitSteps_eight` : eight steps are those of the low byte, and the bits above it moved down;
* `tableStep_xor` : a byte by way of any table, and what an error of the remainder and an error of
  the entry make of it;
* `bitSteps_eq_zero_iff` : an error on its own never dies out.
-/

namespace LeAudioReceiver

namespace Crc

variable {w : ℕ} (poly : BitVec w)

/-- One bit. -/
def bitStep (c : BitVec w) : BitVec w :=
  if c.getLsbD 0 then (c >>> 1) ^^^ poly else c >>> 1

/-- `n` bits. -/
def bitSteps : ℕ → BitVec w → BitVec w
  | 0, c => c
  | n + 1, c => bitSteps n (bitStep poly c)

/-- A byte of the message: it is added to the low end of the remainder, and its bits fall out. -/
def byteStep (c : BitVec w) (b : UInt8) : BitVec w :=
  bitSteps poly 8 (c ^^^ b.toBitVec.setWidth w)

/-- The check of a message. -/
def reflected (init xorOut : BitVec w) (data : List UInt8) : BitVec w :=
  data.foldl (byteStep poly) init ^^^ xorOut

/-- Where the byte-wise loop looks up a byte. -/
def index (c : BitVec w) (b : UInt8) : ℕ := (c ^^^ b.toBitVec.setWidth w).toNat % 256

/-- A byte by way of a table. -/
def tableStep (table : ℕ → BitVec w) (c : BitVec w) (b : UInt8) : BitVec w :=
  table (index c b) ^^^ (c >>> 8)

variable {poly}

/-! ### Steps -/

theorem bitStep_xor (a b : BitVec w) :
    bitStep poly (a ^^^ b) = bitStep poly a ^^^ bitStep poly b := by
  simp only [bitStep, BitVec.getLsbD_xor, BitVec.ushiftRight_xor_distrib]
  cases a.getLsbD 0 <;> cases b.getLsbD 0
  · rfl
  · exact BitVec.xor_assoc ..
  · show a >>> 1 ^^^ b >>> 1 ^^^ poly = a >>> 1 ^^^ poly ^^^ b >>> 1
    ac_rfl
  · -- the polynomial is added twice on the right
    show a >>> 1 ^^^ b >>> 1 = a >>> 1 ^^^ poly ^^^ (b >>> 1 ^^^ poly)
    have hrot : a >>> 1 ^^^ poly ^^^ (b >>> 1 ^^^ poly) =
        a >>> 1 ^^^ b >>> 1 ^^^ (poly ^^^ poly) := by ac_rfl
    rw [hrot, BitVec.xor_self, BitVec.xor_zero]

theorem bitSteps_xor (n : ℕ) (a b : BitVec w) :
    bitSteps poly n (a ^^^ b) = bitSteps poly n a ^^^ bitSteps poly n b := by
  induction n generalizing a b with
  | zero => rfl
  | succ n ih => rw [bitSteps, bitStep_xor, ih, ← bitSteps, ← bitSteps]

/-- A remainder whose low `n` bits are clear only moves down: no one falls out. -/
theorem bitSteps_of_low_clear (n : ℕ) {c : BitVec w} (hc : ∀ i < n, c.getLsbD i = false) :
    bitSteps poly n c = c >>> n := by
  induction n generalizing c with
  | zero => rfl
  | succ n ih =>
    have hstep : bitStep poly c = c >>> 1 := by
      rw [bitStep, hc 0 (Nat.succ_pos n), if_neg Bool.false_ne_true]
    have hclear : ∀ i < n, (c >>> 1).getLsbD i = false := by
      intro i hi
      rw [BitVec.getLsbD_ushiftRight]
      exact hc (1 + i) (by omega)
    rw [bitSteps, hstep, ih hclear, ← BitVec.shiftRight_add, Nat.add_comm]

@[simp] theorem bitSteps_zero (n : ℕ) : bitSteps poly n 0#w = 0#w := by
  rw [bitSteps_of_low_clear n (by simp)]
  simp

theorem bitSteps_add (m n : ℕ) (c : BitVec w) :
    bitSteps poly (m + n) c = bitSteps poly n (bitSteps poly m c) := by
  induction m generalizing c with
  | zero => rw [Nat.zero_add, bitSteps]
  | succ m ih => rw [Nat.succ_add, bitSteps, bitSteps, ih]

theorem xor_eq_self_iff {c e : BitVec w} : c ^^^ e = c ↔ e = 0#w := by
  have h : c ^^^ e = c ^^^ 0#w ↔ e = 0#w := BitVec.xor_right_inj c
  rwa [BitVec.xor_zero] at h

/-- The polynomial has its highest bit, and what is moved down has not. -/
theorem bitStep_eq_zero (hpoly : poly.getLsbD (w - 1) = true) {c : BitVec w}
    (h : bitStep poly c = 0#w) : c = 0#w := by
  have hw : 0 < w := by
    by_contra hw
    obtain rfl : w = 0 := by omega
    rw [BitVec.getLsbD_of_ge _ _ (Nat.zero_le _)] at hpoly
    exact Bool.false_ne_true hpoly
  by_cases hlow : c.getLsbD 0 = true
  · rw [bitStep, if_pos hlow] at h
    have htop : (c >>> 1 ^^^ poly).getLsbD (w - 1) = true := by
      rw [BitVec.getLsbD_xor, BitVec.getLsbD_ushiftRight, BitVec.getLsbD_of_ge _ _ (by omega),
        hpoly]
      rfl
    rw [h] at htop
    simp at htop
  · rw [bitStep, if_neg hlow] at h
    apply BitVec.eq_of_getLsbD_eq
    intro i _
    cases i with
    | zero => simpa using hlow
    | succ i =>
      have hbit : (c >>> 1).getLsbD i = (0#w).getLsbD i := congrArg (·.getLsbD i) h
      rw [BitVec.getLsbD_ushiftRight, Nat.add_comm] at hbit
      simpa using hbit

theorem bitSteps_eq_zero_iff (hpoly : poly.getLsbD (w - 1) = true) (n : ℕ) {c : BitVec w} :
    bitSteps poly n c = 0#w ↔ c = 0#w := by
  constructor
  · intro h
    induction n generalizing c with
    | zero => exact h
    | succ n ih => exact bitStep_eq_zero hpoly (ih h)
  · rintro rfl
    exact bitSteps_zero n

/-! ### Bytes by way of a table -/

/-- The low byte of a remainder. -/
def lowByte (c : BitVec w) : BitVec w := BitVec.ofNat w (c.toNat % 256)

theorem getLsbD_lowByte (c : BitVec w) (i : ℕ) :
    (lowByte c).getLsbD i = (decide (i < 8) && c.getLsbD i) := by
  rw [lowByte, BitVec.getLsbD_ofNat, show (256 : ℕ) = 2 ^ 8 from rfl, Nat.testBit_mod_two_pow,
    ← BitVec.testBit_toNat]
  by_cases hi : i < w
  · rw [decide_eq_true hi, Bool.true_and]
  · have hzero : c.toNat.testBit i = false :=
      Nat.testBit_lt_two_pow (lt_of_lt_of_le c.isLt (Nat.pow_le_pow_right (by omega) (by omega)))
    rw [hzero, Bool.and_false, Bool.and_false]

theorem lowByte_xor_high (c : BitVec w) : lowByte c ^^^ (lowByte c ^^^ c) = c := by
  rw [← BitVec.xor_assoc, BitVec.xor_self, BitVec.zero_xor]

theorem high_low_clear (c : BitVec w) : ∀ i < 8, (lowByte c ^^^ c).getLsbD i = false := by
  intro i hi
  rw [BitVec.getLsbD_xor, getLsbD_lowByte, decide_eq_true hi, Bool.true_and, Bool.xor_self]

theorem lowByte_shiftRight (c : BitVec w) : lowByte c >>> 8 = 0#w := by
  apply BitVec.eq_of_getLsbD_eq
  intro i _
  rw [BitVec.getLsbD_ushiftRight, getLsbD_lowByte, decide_eq_false (by omega), Bool.false_and]
  simp

/-- **Eight steps**: those of the low byte, and the bits above it moved down. -/
theorem bitSteps_eight (c : BitVec w) :
    bitSteps poly 8 c = bitSteps poly 8 (lowByte c) ^^^ (c >>> 8) := by
  have hhigh : bitSteps poly 8 (lowByte c ^^^ c) = c >>> 8 := by
    rw [bitSteps_of_low_clear 8 (high_low_clear c), BitVec.ushiftRight_xor_distrib,
      lowByte_shiftRight]
    exact BitVec.zero_xor
  calc bitSteps poly 8 c
      = bitSteps poly 8 (lowByte c ^^^ (lowByte c ^^^ c)) := by rw [lowByte_xor_high]
    _ = bitSteps poly 8 (lowByte c) ^^^ (c >>> 8) := by rw [bitSteps_xor, hhigh]

theorem setWidth_shiftRight (b : UInt8) : (b.toBitVec.setWidth w) >>> 8 = 0#w := by
  apply BitVec.eq_of_getLsbD_eq
  intro i _
  rw [BitVec.getLsbD_ushiftRight, BitVec.getLsbD_setWidth, BitVec.getLsbD_of_ge _ _ (by omega)]
  simp

theorem byteStep_eq_index (c : BitVec w) (b : UInt8) :
    byteStep poly c b = bitSteps poly 8 (BitVec.ofNat w (index c b)) ^^^ (c >>> 8) := by
  have hhigh : (c ^^^ b.toBitVec.setWidth w) >>> 8 = c >>> 8 := by
    rw [BitVec.ushiftRight_xor_distrib, setWidth_shiftRight]
    exact BitVec.xor_zero
  rw [byteStep, bitSteps_eight, hhigh, lowByte, index]

theorem byteStep_xor (c e : BitVec w) (b : UInt8) :
    byteStep poly (c ^^^ e) b = byteStep poly c b ^^^ bitSteps poly 8 e := by
  have hcomm : c ^^^ e ^^^ b.toBitVec.setWidth w = c ^^^ b.toBitVec.setWidth w ^^^ e := by ac_rfl
  rw [byteStep, hcomm, bitSteps_xor, ← byteStep]

/-- **A byte by way of any table**: the error `e` of the remainder takes eight steps, and the error
of the entry comes on top. -/
theorem tableStep_xor (table : ℕ → BitVec w) (c e : BitVec w) (b : UInt8) {d : BitVec w}
    (hd : table (index (c ^^^ e) b) =
      bitSteps poly 8 (BitVec.ofNat w (index (c ^^^ e) b)) ^^^ d) :
    tableStep table (c ^^^ e) b = byteStep poly c b ^^^ (bitSteps poly 8 e ^^^ d) := by
  calc tableStep table (c ^^^ e) b
      = byteStep poly (c ^^^ e) b ^^^ d := by
        rw [tableStep, hd, byteStep_eq_index]
        ac_rfl
    _ = byteStep poly c b ^^^ (bitSteps poly 8 e ^^^ d) := by
        rw [byteStep_xor, BitVec.xor_assoc]

end Crc

end LeAudioReceiver
