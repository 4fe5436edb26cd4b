import LeAudioReceiver.Hil.CommandTrip
import LeAudioReceiver.Hil.LateStatus
import LeAudioReceiver.Hil.TransmitKept
import LeAudioReceiver.Hil.TransmitWake

/-!
# A call of the transmit stage

What a call of the stage has sent, with `RowSpec.expected_submitted_per_segment` of
`src/scripts/hil/rows.py`, which is what the host expects of it.

* `Completed` : what a call that returns `0` has sent;
* `stage_sound` : **the account, the pins, the wakes and the end of a call**.
-/

namespace LeAudioReceiver

namespace Hil

open Json (Text)

/-! ### What the host expects -/

/-- `PROFILE_PREAMBLE_SDUS`. -/
def profilePreambleSdus : List (Text × ℕ) := [("48_4_1".toList, 144), ("48_3_1".toList, 192)]

/-- `PROFILE_TAIL_SDUS`. -/
def profileTailSdus : List (Text × ℕ) := [("48_4_1".toList, 500), ("48_3_1".toList, 667)]

/-- `RowSpec.expected_submitted_per_segment`; a profile without an entry is a `KeyError`. -/
def RowSpec.expectedSubmittedPerSegment (row : RowSpec) : Option ℤ :=
  (profilePreambleSdus.lookup row.profile).bind fun preamble =>
    (profileTailSdus.lookup row.profile).map fun tail => preamble + row.scoredSduCount + tail

/-- A configuration has the profile and the length of a row. -/
structure RowSpec.Configures (row : RowSpec) (c : Config) : Prop where
  profile : c.profile.name = row.profile
  scored : (c.scoredSduCount.toNat : ℤ) = row.scoredSduCount

namespace Transmit

/-- The tables of the host are those of the source. -/
theorem profile_sdus (p : Profile) :
    profilePreambleSdus.lookup p.name = some (preambleFrames p) ∧
      profileTailSdus.lookup p.name = some (tailFrames p) := by
  cases p <;> exact ⟨by decide +kernel, by decide +kernel⟩

theorem expected_eq {row : RowSpec} {s : Tx} (hrow : row.Configures s.run.config) :
    row.expectedSubmittedPerSegment = some (s.perStreamTotal : ℤ) := by
  obtain ⟨hpreamble, htail⟩ := profile_sdus s.run.config.profile
  unfold RowSpec.expectedSubmittedPerSegment
  rw [← hrow.profile, ← hrow.scored, hpreamble, htail]
  unfold Tx.perStreamTotal Tx.preamble Tx.scored
  push_cast
  rfl

/-! ### The end of a call -/

/-- What a call that returns `0` has sent: all that the host expects of each configured stream and
nothing of another one, all of it called back, with the record of the boundary between the scored
and the tail SDUs of all streams. -/
structure Completed (s : Tx) (h : History) : Prop where
  length : ∀ row : RowSpec, row.Configures s.run.config → ∀ i : Fin 2, i.val < s.streams →
    row.expectedSubmittedPerSegment = some ((h.sent i).length : ℤ)
  silent : ∀ i : Fin 2, s.streams ≤ i.val → h.sent i = []
  called : ∀ i : Fin 2, i.val < s.streams → h.called i = h.accepted i
  boundary : Bounded h.log s.streams (s.preamble + s.scored)

theorem tailFrames_pos (p : Profile) : 0 < tailFrames p := by
  cases p <;> decide

theorem Known.completed {target : ℕ} {s : Tx} {h : History} (hs : Known s h)
    (haccount : Accounted target s h) (hw : s.worker = .returned 0) : Completed s h := by
  have hkept : Kept s h := hs.kept (by rw [hw]; rfl)
  have hall : ∀ i : Fin 2, i.val < s.streams → (h.sent i).length = s.perStreamTotal :=
    fun i hi => (hkept.length i hi).trans (hkept.done (by rw [hw]; rfl) i hi)
  have hemitted : s.scoredCompleteEmitted = true := by
    -- without the record the first stream would not be past the boundary
    by_contra hnot
    have hle := (hkept.before (Bool.eq_false_iff.2 hnot)).2.2
    have htotal := hkept.done (by rw [hw]; rfl) 0 s.streams_pos
    have htail := tailFrames_pos s.run.config.profile
    unfold Tx.perStreamTotal at htotal
    omega
  refine ⟨fun row hrow i hi => ?_, fun i hi => ?_, fun i hi => ?_, hkept.after hemitted⟩
  · rw [expected_eq hrow, hall i hi]
  · have hpos := s.streams_pos
    have hone : i = 1 := by omega
    subst hone
    exact hkept.single (by change s.streams ≤ 1 at hi; omega)
  · have hbalance := haccount.balance (by rw [hw]; nofun) i
    rw [hkept.drained (by rw [hw]; rfl) i hi, Tx.taking_of_ne (by rw [hw]; nofun)] at hbalance
    omega

/-- **A call of the stage**, in every order of steps and with any readings of the clock: the
outstanding SDUs of a stream are those that were accepted and not called back, at most `target` of
them; what was sent is right; the worker does not wait for what has come; and a call that returns
`0` has sent everything. -/
theorem stage_sound {target : ℕ} (hpos : 0 < target) {s : Tx} {h : History}
    (hs : Reached target s h) :
    (s.worker ≠ .entry → ∀ i, (s.stream i).outstanding + h.called i = h.accepted i + s.taking i ∧
      (s.stream i).outstanding ≤ target) ∧
    Traced s h ∧
    (∀ pc, s.worker.Waits pc → s.satisfied target = true →
      s.wake = true ∧ s.work target .go = some { s with wake := false, worker := pc }) ∧
    (s.worker = .returned 0 → Completed s h) := by
  have haccount : Accounted target s h := hs.accounted hpos
  have hreach : (observed target).Reachable (s, h) := hs.reachable
  have hknown : Known s h := known hreach
  refine ⟨fun hw i => ⟨haccount.balance hw i, haccount.bound hw i⟩, hknown.traced,
    fun pc hwait hcome => ?_, hknown.completed haccount⟩
  exact no_lost_wake (Machine.Reachable.unwatch hreach) hwait hcome

/-- A whole call: 20000 scored SDUs of either stream, at pins that grow. -/
theorem stage_sound_late :
    ∃ h, Reached 3 lateEnd h ∧ (h.sent 0).length = 20644 ∧ (h.sent 1).length = 20644 ∧
      h.events 1 <+: h.events 0 ∧ (h.events 0).Pairwise (· < ·) := by
  obtain ⟨h, hs⟩ := late_end
  obtain ⟨-, htraced, -, hcompleted⟩ := stage_sound (by decide : 0 < 3) hs
  let row : RowSpec :=
    { name := "late".toList, state := "fresh".toList, mode := "mode_a".toList
      profile := "48_4_1".toList, scoredSduCount := 20000, signalSeed := 1
      reconnectPolicy := "once".toList, fault := none }
  have hrow : row.Configures lateEnd.run.config := ⟨by decide +kernel, by decide +kernel⟩
  have hexpected : row.expectedSubmittedPerSegment = some 20644 := by decide +kernel
  have hlength (i : Fin 2) : (h.sent i).length = 20644 := by
    have hall := (hcompleted rfl).length row hrow i i.isLt
    rw [hexpected] at hall
    exact_mod_cast (Option.some.inj hall).symm
  exact ⟨h, hs, hlength 0, hlength 1, htraced.pair, htraced.grows 0⟩

end Transmit

end Hil

end LeAudioReceiver
