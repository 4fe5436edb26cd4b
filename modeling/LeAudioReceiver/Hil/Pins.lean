import LeAudioReceiver.Hil.Transmit

/-!
# Timestamps that wrap

A timestamp of the controller is a time modulo `2 ^ 32`.  Where a time and a pin are less than half
a wrap apart, the signed difference of their timestamps is the distance between them, and catching
up moves the pin by the fewest intervals that bring it far enough ahead.

* `Stamps` : the timestamp of a time;
* `Stamps.pinAhead` : the distance;
* `catchUpPin_spec` : **the least number of skipped events**.
-/

namespace LeAudioReceiver

namespace Hil

namespace Transmit

/-- The timestamp of a time. -/
def Stamps (x : UInt32) (t : ℤ) : Prop := (x.toNat : ℤ) = t % 2 ^ 32

/-- Two times are less than half a wrap apart. -/
def HalfWrap (t u : ℤ) : Prop := -2 ^ 31 ≤ t - u ∧ t - u < 2 ^ 31

theorem stamps_toNat (x : UInt32) : Stamps x x.toNat := by
  have hlt := x.toNat_lt
  unfold Stamps
  omega

theorem Stamps.add {x y : UInt32} {t u : ℤ} (hx : Stamps x t) (hy : Stamps y u) :
    Stamps (x + y) (t + u) := by
  unfold Stamps at *
  rw [UInt32.toNat_add]
  omega

theorem Stamps.sub {x y : UInt32} {t u : ℤ} (hx : Stamps x t) (hy : Stamps y u) :
    Stamps (x - y) (t - u) := by
  have hlt := y.toNat_lt
  unfold Stamps at *
  rw [UInt32.toNat_sub]
  omega

theorem stamps_ofNat (n : ℕ) : Stamps (UInt32.ofNat n) n := by
  unfold Stamps
  rw [UInt32.toNat_ofNat']
  omega

theorem Stamps.mul {x y : UInt32} {t u : ℤ} (hx : Stamps x t) (hy : Stamps y u) :
    Stamps (x * y) (t * u) := by
  unfold Stamps at *
  rw [UInt32.toNat_mul, Int.natCast_emod, Int.natCast_mul, hx, hy]
  exact (Int.mul_emod t u (2 ^ 32)).symm

theorem Stamps.movePin {pin : UInt32} {t : ℤ} (h : Stamps pin t) (count interval : ℕ) :
    Stamps (movePin pin count interval) (t + count * interval) :=
  h.add ((stamps_ofNat count).mul (stamps_ofNat interval))

theorem Stamps.toInt32 {x : UInt32} {t : ℤ} (h : Stamps x t) (hlo : -2 ^ 31 ≤ t)
    (hhi : t < 2 ^ 31) :
    x.toInt32.toInt = t := by
  have hbits : x.toInt32.toInt = (x.toNat : ℤ).bmod (2 ^ 32) :=
    BitVec.toInt_eq_toNat_bmod x.toBitVec
  unfold Stamps at h
  rw [hbits, h, Int.bmod_def]
  split_ifs <;> omega

/-- The signed difference of two timestamps is the distance of the times. -/
theorem Stamps.pinAhead {pin now : UInt32} {t u : ℤ} (hpin : Stamps pin t) (hnow : Stamps now u)
    (h : HalfWrap t u) : pinAhead pin now = t - u :=
  (hpin.sub hnow).toInt32 h.1 h.2

theorem pinAhead_range (pin now : UInt32) :
    int32Min ≤ pinAhead pin now ∧ pinAhead pin now ≤ int32Max :=
  ⟨Int32.minValue_le_toInt _, Int32.toInt_le _⟩

theorem stamps_toInt (x : UInt32) : Stamps x x.toInt32.toInt := by
  have hbits : x.toInt32.toInt = (x.toNat : ℤ).bmod (2 ^ 32) :=
    BitVec.toInt_eq_toNat_bmod x.toBitVec
  have hlt := x.toNat_lt
  unfold Stamps
  rw [hbits, Int.bmod_def]
  split_ifs <;> omega

theorem pinAhead_movePin {pin now : UInt32} {count interval : ℕ}
    (hhi : pinAhead pin now + count * interval < 2 ^ 31) :
    pinAhead (movePin pin count interval) now = pinAhead pin now + count * interval := by
  have hmove : movePin pin count interval - now =
      (pin - now) + UInt32.ofNat count * UInt32.ofNat interval := by
    unfold movePin
    rw [UInt32.sub_eq_add_neg, UInt32.sub_eq_add_neg, UInt32.add_assoc, UInt32.add_comm _ (-now),
      ← UInt32.add_assoc]
  have hstamps := (stamps_toInt (pin - now)).add ((stamps_ofNat count).mul (stamps_ofNat interval))
  rw [← hmove] at hstamps
  have hlo := (pinAhead_range pin now).1
  have hnonneg : (0 : ℤ) ≤ count * interval := Int.natCast_nonneg (count * interval)
  refine hstamps.toInt32 ?_ hhi
  unfold int32Min at hlo
  change -2 ^ 31 ≤ pinAhead pin now + _
  omega

theorem movePin_movePin (pin : UInt32) (a b interval : ℕ) :
    movePin (movePin pin a interval) b interval = movePin pin (a + b) interval := by
  unfold movePin
  rw [UInt32.add_assoc, UInt32.ofNat_add, UInt32.add_mul]

/-! ### Catching up -/

/-- The least number of intervals that makes up for a shortfall. -/
theorem shortfall_spec (ahead : ℤ) {interval : ℕ} (h : 0 < interval) :
    minAheadUs ≤ ahead + shortfall ahead interval * interval ∧
      ∀ m < shortfall ahead interval, ahead + m * interval < minAheadUs := by
  unfold shortfall
  split_ifs with hlate
  · have hpos : (0 : ℤ) < interval := Int.natCast_pos.2 h
    set q := (minAheadUs - ahead + interval - 1) / (interval : ℤ) with hq
    have hnonneg : 0 ≤ q := Int.ediv_nonneg (by omega) (Int.le_of_lt hpos)
    have hdiv := Int.mul_ediv_add_emod (minAheadUs - ahead + interval - 1) interval
    have hmod := Int.emod_lt_of_pos (minAheadUs - ahead + interval - 1) hpos
    have hmod' := Int.emod_nonneg (minAheadUs - ahead + interval - 1) (Int.ne_of_gt hpos)
    rw [← hq, Int.mul_comm] at hdiv
    have hcast : ((q.toNat : ℕ) : ℤ) = q := Int.toNat_of_nonneg hnonneg
    refine ⟨by rw [hcast]; omega, fun m hm => ?_⟩
    have hle : ((m : ℤ) + 1) * interval ≤ q * interval :=
      Int.mul_le_mul_of_nonneg_right (by omega) (Int.le_of_lt hpos)
    rw [Int.add_mul, Int.one_mul] at hle
    omega
  · refine ⟨by simpa using hlate, fun m hm => absurd hm (Nat.not_lt_zero m)⟩

theorem pinAhead_catchUp (pin now : UInt32) {interval : ℕ} (h : 0 < interval)
    (hle : interval ≤ 10000) :
    pinAhead (catchUpPin pin now interval).1 now =
      pinAhead pin now + (catchUpPin pin now interval).2 * interval := by
  refine pinAhead_movePin ?_
  have hhi := (pinAhead_range pin now).2
  unfold int32Max at hhi
  cases hcount : shortfall (pinAhead pin now) interval with
  | zero =>
    change _ + ((0 : ℕ) : ℤ) * _ < _
    omega
  | succ m =>
    have hleast := (shortfall_spec (pinAhead pin now) h).2 m (by omega)
    have hsplit : ((m + 1 : ℕ) : ℤ) * interval = m * interval + interval := by
      rw [Int.natCast_succ, Int.add_mul, Int.one_mul]
    unfold minAheadUs at hleast
    rw [hsplit]
    omega

/-- A pin that stays is left as it is. -/
theorem catchUpPin_fst {pin now : UInt32} {interval : ℕ}
    (h : (catchUpPin pin now interval).2 = 0) : (catchUpPin pin now interval).1 = pin := by
  unfold catchUpPin at h ⊢
  dsimp only at h ⊢
  rw [h]
  simp [movePin]

/-- A pin at event `n` of a grid catches up with the clock by the fewest events. -/
theorem catchUpPin_spec {pin now : UInt32} {t u : ℤ} {interval : ℕ} (hinterval : 0 < interval)
    (hpin : Stamps pin t) (hnow : Stamps now u) (h : HalfWrap t u) :
    Stamps (catchUpPin pin now interval).1 (t + (catchUpPin pin now interval).2 * interval) ∧
      minAheadUs ≤ t + (catchUpPin pin now interval).2 * interval - u ∧
      ∀ m < (catchUpPin pin now interval).2, t + m * interval - u < minAheadUs := by
  obtain ⟨hle, hleast⟩ := shortfall_spec (pinAhead pin now) hinterval
  rw [hpin.pinAhead hnow h] at hle hleast
  have hcount : (catchUpPin pin now interval).2 = shortfall (t - u) interval := by
    unfold catchUpPin
    rw [hpin.pinAhead hnow h]
  refine ⟨hpin.movePin _ _, ?_, fun m hm => ?_⟩
  · rw [hcount]
    omega
  · rw [hcount] at hm
    have := hleast m hm
    omega

end Transmit

end Hil

end LeAudioReceiver
