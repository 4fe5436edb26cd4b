import LeAudioReceiver.Timing.Basic
import Mathlib.Algebra.Order.Group.Abs
import Mathlib.Algebra.Order.Ring.Int
import Mathlib.Data.Int.ModEq
import Mathlib.Data.Nat.Bitwise

/-!
# The first compare of an anchor

`audio_timing_sdu_ref_update` knows the presentation time `T` of an SDU only modulo `2 ^ 32`, and
takes it for the first such time that is not before `now`.

* `toNat_isoTsToGrtc64` : the widened timestamp, in natural numbers;
* `widened_eq` : a presentation time within half a period of `now` is found **exactly when it has
  not passed**; one that has passed is taken to be one period, more than an hour, later;
* `State.firstCompare_onTime_iff` : when the first compare lies in the second that is due.
-/

namespace LeAudioReceiver

namespace Timing

/-! ### Widening -/

theorem and_upperMask {x : ℕ} (h : x < 2 ^ 64) :
    x &&& 0xFFFFFFFF00000000 = x / 2 ^ 32 * 2 ^ 32 := by
  have hmask : 0xFFFFFFFF00000000 = (2 ^ 32 - 1) <<< 32 := by decide
  rw [← Nat.shiftLeft_eq, ← Nat.shiftRight_eq_div_pow, hmask]
  apply Nat.eq_of_testBit_eq
  intro i
  rw [Nat.testBit_and, Nat.testBit_shiftLeft, Nat.testBit_shiftLeft, Nat.testBit_shiftRight,
    Nat.testBit_two_pow_sub_one]
  by_cases hi : 32 ≤ i
  · have hback : 32 + (i - 32) = i := by omega
    rw [hback]
    by_cases hlt : i < 64
    · have hlt' : i - 32 < 32 := by omega
      simp [hi, hlt']
    · -- above the mask there is no bit of `x` either
      have hx : x < 2 ^ i := h.trans_le (Nat.pow_le_pow_right (by decide) (not_lt.1 hlt))
      simp [Nat.testBit_lt_two_pow hx]
  · simp [hi]

theorem toNat_isoTsToGrtc64 (tsUs : UInt32) (nowUs : UInt64) :
    (isoTsToGrtc64 tsUs nowUs).toNat =
      if tsUs.toNat < nowUs.toNat % 2 ^ 32 then
        (nowUs.toNat / 2 ^ 32 * 2 ^ 32 + tsUs.toNat + 2 ^ 32) % 2 ^ 64
      else nowUs.toNat / 2 ^ 32 * 2 ^ 32 + tsUs.toNat := by
  have hfull : (nowUs &&& 0xFFFFFFFF00000000 ||| tsUs.toUInt64).toNat =
      nowUs.toNat / 2 ^ 32 * 2 ^ 32 + tsUs.toNat := by
    have hmask : (0xFFFFFFFF00000000 : UInt64).toNat = 0xFFFFFFFF00000000 := rfl
    rw [UInt64.toNat_or, UInt64.toNat_and, hmask, and_upperMask nowUs.toNat_lt,
      UInt32.toNat_toUInt64, Nat.mul_comm]
    exact (Nat.two_pow_add_eq_or_of_lt tsUs.toNat_lt _).symm
  have hlow : (nowUs &&& 0xFFFFFFFF).toNat = nowUs.toNat % 2 ^ 32 := by
    have hmask : (0xFFFFFFFF : UInt64).toNat = 2 ^ 32 - 1 := rfl
    rw [UInt64.toNat_and, hmask, Nat.and_two_pow_sub_one_eq_mod]
  unfold isoTsToGrtc64
  simp only [UInt64.lt_iff_toNat_lt, hlow, UInt32.toNat_toUInt64]
  split_ifs
  · rw [UInt64.toNat_add, hfull]
    rfl
  · exact hfull

/-- A time near `now` of which the low half is known: if it has passed, one period is added. -/
theorem widened_eq {tsUs : UInt32} {now : UInt64} {T : ℤ}
    (hT : (tsUs.toNat : ℤ) ≡ T [ZMOD 2 ^ 32]) (hnear : |T - now.toNat| < 2 ^ 31) :
    ((isoTsToGrtc64 tsUs now).toNat : ℤ) =
      if (now.toNat : ℤ) ≤ T then T % 2 ^ 64 else (T + 2 ^ 32) % 2 ^ 64 := by
  have hlt := tsUs.toNat_lt
  have hnow := now.toNat_lt
  have hmod : (tsUs.toNat : ℤ) = T % 2 ^ 32 := by
    rw [← hT.eq]
    exact (Int.emod_eq_of_lt (Int.natCast_nonneg _) (by omega)).symm
  obtain ⟨hlo, hhi⟩ := abs_lt.1 hnear
  rw [toNat_isoTsToGrtc64]
  split_ifs with hbelow hpassed hpassed <;> push_cast <;> omega

/-! ### The first compare -/

theorem toNat_firstCompare (sduTsUs pdUs : UInt32) (now : UInt64) :
    (State.firstCompare sduTsUs pdUs now).toNat =
      if ((anchorToGrtc64 sduTsUs pdUs now).toNat + 1000000) % 2 ^ 64 ≤ now.toNat then
        (now.toNat + 1000000) % 2 ^ 64
      else ((anchorToGrtc64 sduTsUs pdUs now).toNat + 1000000) % 2 ^ 64 := by
  have hsum : (anchorToGrtc64 sduTsUs pdUs now + 1000000).toNat =
      ((anchorToGrtc64 sduTsUs pdUs now).toNat + 1000000) % 2 ^ 64 := UInt64.toNat_add _ _
  unfold State.firstCompare
  simp only [UInt64.le_iff_toNat_le, hsum]
  split_ifs
  · exact UInt64.toNat_add _ _
  · exact hsum

/-- A compare lies strictly after `now`, and at most one second after the presentation time, or
after `now` if that is later. -/
def OnTime (T : ℤ) (now cmp : UInt64) : Prop :=
  now < cmp ∧ (cmp.toNat : ℤ) ≤ max T now.toNat + 1000000

instance (T : ℤ) (now cmp : UInt64) : Decidable (OnTime T now cmp) :=
  inferInstanceAs (Decidable (_ ∧ _))

/-- The presentation time has not passed.  In the last period of the counter, where the sums
overflow, one that has passed is noticed, and in its last second no compare fits. -/
def Ahead (T : ℤ) (now : UInt64) : Prop :=
  now.toNat + 1000000 < 2 ^ 64 ∧ ((now.toNat : ℤ) ≤ T ∨ 2 ^ 64 ≤ T + 2 ^ 32 + 1000000)

instance (T : ℤ) (now : UInt64) : Decidable (Ahead T now) :=
  inferInstanceAs (Decidable (_ ∧ (_ ∨ _)))

theorem onTime_firstCompare_iff {sduTsUs pdUs : UInt32} {now : UInt64} {T : ℤ}
    (hT : (sduTsUs.toNat + pdUs.toNat : ℤ) ≡ T [ZMOD 2 ^ 32]) (hnear : |T - now.toNat| < 2 ^ 31) :
    OnTime T now (State.firstCompare sduTsUs pdUs now) ↔ Ahead T now := by
  have hnow := now.toNat_lt
  have hsum : ((sduTsUs + pdUs).toNat : ℤ) ≡ T [ZMOD 2 ^ 32] := by
    rw [UInt32.toNat_add]
    push_cast
    exact (Int.mod_modEq _ _).trans hT
  have hanchor : ((anchorToGrtc64 sduTsUs pdUs now).toNat : ℤ) = _ := widened_eq hsum hnear
  have hcmp := toNat_firstCompare sduTsUs pdUs now
  obtain ⟨hlo, hhi⟩ := abs_lt.1 hnear
  unfold OnTime Ahead
  rw [UInt64.lt_iff_toNat_lt]
  generalize (State.firstCompare sduTsUs pdUs now).toNat = cmp at hcmp ⊢
  generalize (anchorToGrtc64 sduTsUs pdUs now).toNat = anchor at hanchor hcmp
  split_ifs at hanchor with hpassed
  · -- found: only the end of the counter is in the way
    rw [max_eq_left hpassed]
    split_ifs at hcmp <;> omega
  · rw [max_eq_right (not_le.1 hpassed).le]
    split_ifs at hcmp <;> omega

namespace State

variable (s : State)

/-- The first compare that an SDU programs lies in the second that is due if and only if its
presentation time has not passed. -/
theorem firstCompare_onTime_iff {sduTsUs pdUs : UInt32} {now : UInt64} {T ret : ℤ}
    (hts : sduTsUs ≠ 0) (hanchor : s.anchorSet = false) (hret : 0 ≤ ret)
    (hT : (sduTsUs.toNat + pdUs.toNat : ℤ) ≡ T [ZMOD 2 ^ 32]) (hnear : |T - now.toNat| < 2 ^ 31) :
    (∃ cmp, (s.sduRefUpdate sduTsUs pdUs now ret).compare = some cmp ∧ OnTime T now cmp) ↔
      Ahead T now := by
  have hstep : (s.sduRefUpdate sduTsUs pdUs now ret).compare =
      some (firstCompare sduTsUs pdUs now) := by
    unfold sduRefUpdate
    rw [if_neg (by simp [hts, hanchor, hret])]
  rw [hstep, ← onTime_firstCompare_iff hT hnear]
  constructor
  · rintro ⟨cmp, hcmp, h⟩
    rwa [Option.some.inj hcmp]
  · intro h
    exact ⟨_, rfl, h⟩

/-- A target behind the next wrap of the low half. -/
theorem firstCompare_onTime_wrap :
    ∃ cmp, ((init 16000000).sduRefUpdate 0xFFFFFF00 40000 0x1FFFFFF80 0).compare = some cmp ∧
      OnTime (0x1FFFFFF00 + 40000) 0x1FFFFFF80 cmp :=
  ((init 16000000).firstCompare_onTime_iff (by decide) rfl le_rfl (by decide) (by decide)).2
    (by decide)

/-- The presentation time passed one microsecond ago: the compare is programmed for 71.6 minutes
later. -/
theorem firstCompare_late :
    (10000 + 40000 : ℤ) ≡ 0x100000000 + 50000 [ZMOD 2 ^ 32] ∧
      ((init 16000000).sduRefUpdate 10000 40000 (0x100000000 + 50001) 0).compare =
        some (0x200000000 + 1050000) ∧
      ¬ OnTime (0x100000000 + 50000) (0x100000000 + 50001) (0x200000000 + 1050000) := by
  decide

end State

end Timing

end LeAudioReceiver
