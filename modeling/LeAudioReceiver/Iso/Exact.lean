import LeAudioReceiver.Iso.Basic
import Mathlib.Algebra.Order.Group.Abs
import Mathlib.Algebra.Order.Ring.Int
import Mathlib.Data.Int.Notation

/-!
# Exactness of the cadence tracker

A sequence of delivered callbacks, each the callback of one event of the stream, with or without a
timestamp.  The timestamps may be off the grid of the events by the tolerance of the tracker.

* `eventCount_of_near` : rounding to the nearest count undoes a deviation of a quarter interval;
* `Cadence.updateChecked_eq` : no 64-bit intermediate overflows, for any timestamps and interval;
* `cadence_exact` : each timestamp reports exactly the events missing since the one before it.
-/

namespace LeAudioReceiver

namespace Iso

/-! ### 64-bit intermediates -/

/-- A `uint64_t` result. -/
def uint64 (n : ℕ) : Option ℕ := if n < 2 ^ 64 then some n else none

/-- A difference of two `uint64_t`. -/
def uint64Sub (a b : ℕ) : Option ℕ := if b ≤ a then some (a - b) else none

/-- The nearest event count on the grid, checked. -/
def eventCountChecked (delta interval : ℕ) : Option ℕ := do
  let rounded ← uint64 (delta + interval / 2)
  return rounded / interval

/-- The accepted distance from the grid, checked. -/
def toleranceChecked (events interval : ℕ) : Option ℕ := do
  let span ← uint64 (events * interval)
  let scaled ← uint64 (span * 1000)
  let ceiled ← uint64 (scaled + 999999)
  let raw ← uint64 (32 + ceiled / 1000000)
  return if raw < interval / 4 then raw else interval / 4

/-- The distance from the nearest multiple of the interval, checked. -/
def errorChecked (delta events interval : ℕ) : Option ℕ := do
  let nearest ← uint64 (events * interval)
  if delta > nearest then uint64Sub delta nearest else uint64Sub nearest delta

/-- `Cadence.forward` with each `uint64_t` intermediate checked. -/
def Cadence.forwardChecked (M : MaxConceal) (st : Cadence) (ts : UInt32) (interval : ℕ) :
    Option CadenceUpdate := do
  let delivered ← uint64 (st.callbacksSinceTs.toNat + 1)
  let delta ← uint64Sub ts.toNat st.lastTs.toNat
  let events ← eventCountChecked delta interval
  let tolerance ← toleranceChecked events interval
  let err ← errorChecked delta events interval
  let st := { st with lastTs := ts, callbacksSinceTs := 0 }
  let observe (reason : ResyncReason) : Observation :=
    { deltaUs := u32SatU64 delta
      eventCount := u32SatU64 events
      deliveredPositions := u32SatU64 delivered
      errorUs := u32SatU64 err
      toleranceUs := u32SatU64 tolerance
      reason := reason }
  let resync (reason : ResyncReason) : CadenceUpdate :=
    ⟨.resync, 0, observe reason, { st with resyncs := st.resyncs + 1 }⟩
  if events = 0 then return resync .zeroAdvance
  else if events < delivered then return resync .deliveredGtEvents
  else if err > tolerance then return resync .deltaOffGrid
  else do
    let omitted ← uint64Sub events delivered
    if omitted > M.val then return resync .overBound
    else if omitted = 0 then return ⟨.contig, 0, observe .none, st⟩
    else
      return ⟨.gap, omitted, observe .none,
        { st with concealed := st.concealed + UInt32.ofNat omitted }⟩

/-- `Cadence.update` with each `uint64_t` intermediate checked. -/
def Cadence.updateChecked (M : MaxConceal) (st : Cadence) (hasTs : Bool) (ts interval : UInt32) :
    Option CadenceUpdate :=
  if hasTs ∧ interval ≠ 0 ∧ st.initialized ∧ ¬ ts < st.lastTs then
    st.forwardChecked M ts interval.toNat
  else some (st.update M hasTs ts interval)

theorem uint64_eq {n : ℕ} (h : n < 2 ^ 64) : uint64 n = some n := if_pos h

theorem uint64Sub_eq {a b : ℕ} (h : b ≤ a) : uint64Sub a b = some (a - b) := if_pos h

/-- The nearest multiple of the interval is at most half an interval away. -/
theorem eventCount_mul_le (delta interval : ℕ) :
    eventCount delta interval * interval ≤ delta + interval / 2 :=
  Nat.div_mul_le_self _ _

theorem eventCountChecked_eq {delta interval : ℕ} (h : delta + interval / 2 < 2 ^ 64) :
    eventCountChecked delta interval = some (eventCount delta interval) := by
  unfold eventCountChecked
  rw [uint64_eq h]
  rfl

theorem toleranceChecked_eq {events interval : ℕ} (h : events * interval < 2 ^ 48) :
    toleranceChecked events interval = some (toleranceUs events interval) := by
  unfold toleranceChecked
  simp only [Option.bind_eq_bind, Option.pure_def]
  rw [uint64_eq (by omega), Option.bind_some, uint64_eq (by omega), Option.bind_some,
    uint64_eq (by omega), Option.bind_some, uint64_eq (by omega), Option.bind_some]
  refine congrArg some ?_
  unfold toleranceUs
  rw [Nat.min_def]
  split_ifs <;> omega

theorem errorChecked_eq {delta events interval : ℕ} (h : events * interval < 2 ^ 64) :
    errorChecked delta events interval = some (errorUs delta events interval) := by
  unfold errorChecked errorUs
  simp only [Option.bind_eq_bind]
  rw [uint64_eq h, Option.bind_some]
  split_ifs with hgt
  · exact uint64Sub_eq hgt.le
  · exact uint64Sub_eq (not_lt.1 hgt)

/-- No 64-bit intermediate of a forward step overflows. -/
theorem Cadence.forwardChecked_eq (M : MaxConceal) {st : Cadence} {ts : UInt32} {interval : ℕ}
    (hts : st.lastTs ≤ ts) (hint : interval < 2 ^ 32) :
    st.forwardChecked M ts interval = some (st.forward M ts interval) := by
  have hle : st.lastTs.toNat ≤ ts.toNat := hts
  have hcallbacks := st.callbacksSinceTs.toNat_lt
  have hlt := ts.toNat_lt
  have hspan := eventCount_mul_le (ts.toNat - st.lastTs.toNat) interval
  unfold forwardChecked forward
  simp only [Option.bind_eq_bind, Option.pure_def]
  rw [uint64_eq (by omega), Option.bind_some, uint64Sub_eq hle, Option.bind_some,
    eventCountChecked_eq (by omega), Option.bind_some, toleranceChecked_eq (by omega),
    Option.bind_some, errorChecked_eq (by omega), Option.bind_some]
  generalize eventCount (ts.toNat - st.lastTs.toNat) interval = events
  by_cases hdelivered : events < st.callbacksSinceTs.toNat + 1
  · rw [if_pos hdelivered, if_pos hdelivered]
    split_ifs <;> rfl
  · rw [uint64Sub_eq (not_lt.1 hdelivered), Option.bind_some]
    split_ifs <;> rfl

/-- No 64-bit intermediate overflows, whatever the timestamps and the interval. -/
theorem Cadence.updateChecked_eq (M : MaxConceal) (st : Cadence) (hasTs : Bool)
    (ts interval : UInt32) :
    st.updateChecked M hasTs ts interval = some (st.update M hasTs ts interval) := by
  unfold updateChecked
  split_ifs with h
  · obtain ⟨rfl, hint, hi, hts⟩ := h
    rw [forwardChecked_eq M (UInt32.not_lt.1 hts) interval.toNat_lt, update, if_neg (by simp),
      if_neg hint, if_neg (by simp [hi]), if_neg hts]
  · rfl

/-- The reported omission is bounded. -/
theorem Cadence.update_omitted_le (M : MaxConceal) (st : Cadence) (hasTs : Bool)
    (ts interval : UInt32) : (st.update M hasTs ts interval).omitted ≤ M.val := by
  unfold update
  split_ifs
  case neg =>
    unfold forward
    dsimp only
    split_ifs with _ _ _ hbound
    all_goals first | exact Nat.zero_le _ | exact not_lt.1 hbound
  all_goals exact Nat.zero_le _

/-! ### Callbacks of a stream -/

/-- A delivered callback: the event it belongs to, and its timestamp if it has one. -/
structure Callback where
  event : ℕ
  ts : Option UInt32
  deriving DecidableEq, Repr

/-- `audio_iso_cadence_update` for a callback. -/
def Callback.update (M : MaxConceal) (interval : UInt32) (c : Callback) (st : Cadence) :
    CadenceUpdate :=
  st.update M c.ts.isSome (c.ts.getD 0) interval

/-- What the tracker reports at each callback of a sequence. -/
def reports (M : MaxConceal) (interval : UInt32) : Cadence → List Callback → List ℕ
  | _, [] => []
  | st, c :: cbs =>
    (c.update M interval st).omitted :: reports M interval (c.update M interval st).st cbs

/-- The last timestamped callback, and the number of callbacks since. -/
structure Base where
  event : ℕ
  ts : UInt32
  unstamped : ℕ

/-- The base behind a callback. -/
def Callback.next (c : Callback) (base : Option Base) : Option Base :=
  match c.ts with
  | some ts => some ⟨c.event, ts, 0⟩
  | none => base.map fun b => { b with unstamped := b.unstamped + 1 }

/-- The events missing at a callback: without a callback since the last timestamped one. -/
def Callback.missing (c : Callback) (base : Option Base) : ℕ :=
  match c.ts, base with
  | some _, some b => c.event - b.event - (b.unstamped + 1)
  | _, _ => 0

/-- The events missing at each callback of a sequence. -/
def missing : Option Base → List Callback → List ℕ
  | _, [] => []
  | base, c :: cbs => c.missing base :: missing (c.next base) cbs

/-- A timestamp `ts` that follows the one of `b` after `distance` events. -/
structure Base.Near (M : MaxConceal) (interval : UInt32) (b : Base) (distance : ℕ) (ts : UInt32) :
    Prop where
  /-- The timestamps do not decrease. -/
  mono : b.ts ≤ ts
  /-- The difference is off by at most the tolerance of the tracker. -/
  near : |((ts.toNat : ℤ) - b.ts.toNat) - distance * interval.toNat| ≤
    toleranceUs distance interval.toNat
  /-- The delivered callbacks have events of their own. -/
  delivered_le : b.unstamped + 1 ≤ distance
  /-- The omission can be concealed. -/
  missing_le : distance - (b.unstamped + 1) ≤ M.val

/-- Each timestamp of the sequence is near the grid of the one before it. -/
def Regular (M : MaxConceal) (interval : UInt32) : Option Base → List Callback → Prop
  | _, [] => True
  | base, c :: cbs =>
    (∀ b ts, base = some b → c.ts = some ts → b.Near M interval (c.event - b.event) ts) ∧
      Regular M interval (c.next base) cbs

/-! ### Exactness -/

/-- A deviation of a quarter interval does not change the nearest count. -/
theorem eventCount_of_near {delta n interval : ℕ} (hpos : 0 < interval)
    (hle : n * interval ≤ delta + interval / 4) (hge : delta ≤ n * interval + interval / 4) :
    eventCount delta interval = n := by
  refine Nat.div_eq_of_lt_le (by omega) ?_
  rw [Nat.succ_mul]
  omega

/-- The tracker knows the last timestamped callback. -/
def Cadence.Knows (st : Cadence) : Option Base → Prop
  | none => st.initialized = false
  | some b => st.initialized = true ∧ st.lastTs = b.ts ∧
      st.callbacksSinceTs.toNat = min b.unstamped (2 ^ 32 - 1)

/-- A timestamp near the grid reports the missing events. -/
theorem Base.Near.forward {M : MaxConceal} {interval ts : UInt32} {b : Base} {distance : ℕ}
    {st : Cadence} (hint : interval ≠ 0) (h : b.Near M interval distance ts)
    (hknows : st.Knows (some b)) :
    (st.forward M ts interval.toNat).omitted = distance - (b.unstamped + 1) ∧
      (st.forward M ts interval.toNat).st.initialized = true ∧
      (st.forward M ts interval.toNat).st.lastTs = ts ∧
      (st.forward M ts interval.toNat).st.callbacksSinceTs = 0 := by
  obtain ⟨hi, hlast, hcallbacks⟩ := hknows
  have hpos : 0 < interval.toNat := by
    rw [Nat.pos_iff_ne_zero]
    exact fun h => hint (UInt32.toNat_inj.1 h)
  have hts := ts.toNat_lt
  have hmono : b.ts.toNat ≤ ts.toNat := h.mono
  have hdelivered := h.delivered_le
  have hmissing := h.missing_le
  have htol : toleranceUs distance interval.toNat ≤ interval.toNat / 4 := Nat.min_le_right _ _
  obtain ⟨hlow, hhigh⟩ := abs_le.1 h.near
  rw [← Int.natCast_mul] at hlow hhigh
  have hcount : eventCount (ts.toNat - b.ts.toNat) interval.toNat = distance :=
    eventCount_of_near hpos (by omega) (by omega)
  have herr : errorUs (ts.toNat - b.ts.toNat) distance interval.toNat ≤
      toleranceUs distance interval.toNat := by
    unfold errorUs
    split_ifs <;> omega
  -- The callbacks fit in their counter: each has an event, and the events fit in 32 bits.
  have hdistance : distance < 2 ^ 32 := by
    by_contra hge
    have := Nat.mul_le_mul_right interval.toNat (not_lt.1 hge)
    omega
  have hunstamped : st.callbacksSinceTs.toNat = b.unstamped := by omega
  unfold Cadence.forward
  dsimp only
  rw [hlast, hcount, hunstamped, if_neg (by omega), if_neg (by omega), if_neg (by omega),
    if_neg (by omega)]
  split_ifs with hzero
  · exact ⟨hzero.symm, hi, rfl, rfl⟩
  · exact ⟨rfl, hi, rfl, rfl⟩

theorem Callback.update_spec {M : MaxConceal} {interval : UInt32} {c : Callback} {st : Cadence}
    {base : Option Base} (hint : interval ≠ 0) (hknows : st.Knows base)
    (hnear : ∀ b ts, base = some b → c.ts = some ts → b.Near M interval (c.event - b.event) ts) :
    (c.update M interval st).omitted = c.missing base ∧
      (c.update M interval st).st.Knows (c.next base) := by
  obtain ⟨event, _ | ts⟩ := c
  · have hstep : (Callback.update M interval ⟨event, none⟩ st) = ⟨.noTs, 0, .bare .none,
        if st.initialized ∧ st.callbacksSinceTs.toNat < 2 ^ 32 - 1 then
          { st with callbacksSinceTs := st.callbacksSinceTs + 1 } else st⟩ := rfl
    rw [hstep]
    refine ⟨by cases base <;> rfl, ?_⟩
    cases base with
    | none =>
      have hi : st.initialized = false := hknows
      rw [if_neg (by simp [hi])]
      exact hi
    | some b =>
      obtain ⟨hi, hlast, hcallbacks⟩ := hknows
      -- the counter of callbacks saturates
      by_cases hfull : st.callbacksSinceTs.toNat < 2 ^ 32 - 1
      · rw [if_pos ⟨hi, hfull⟩]
        refine ⟨hi, hlast, ?_⟩
        rw [UInt32.toNat_add, Nat.mod_eq_of_lt (by simpa using by omega)]
        simp only [UInt32.reduceToNat]
        omega
      · rw [if_neg (fun h => hfull h.2)]
        exact ⟨hi, hlast, by dsimp only; omega⟩
  · cases base with
    | none =>
      have hi : st.initialized = false := hknows
      have hstep : (Callback.update M interval ⟨event, some ts⟩ st) = ⟨.first, 0, .bare .none,
          { st with initialized := true, lastTs := ts, callbacksSinceTs := 0 }⟩ := by
        change st.update M true ts interval = _
        rw [Cadence.update, if_neg (by simp), if_neg hint, if_pos (by simp [hi])]
      rw [hstep]
      exact ⟨rfl, rfl, rfl, rfl⟩
    | some b =>
      -- a timestamp near the grid moves the base
      have h := hnear b ts rfl rfl
      have hstep : Callback.update M interval ⟨event, some ts⟩ st =
          st.forward M ts interval.toNat := by
        change st.update M true ts interval = _
        rw [Cadence.update, if_neg (by simp), if_neg hint, if_neg (by simp [hknows.1]),
          if_neg (UInt32.not_lt.2 (hknows.2.1 ▸ h.mono))]
      obtain ⟨homitted, hi, hlast, hcallbacks⟩ := h.forward hint hknows
      rw [hstep]
      exact ⟨homitted, hi, hlast, by rw [hcallbacks]; rfl⟩

theorem reports_eq {M : MaxConceal} {interval : UInt32} (hint : interval ≠ 0)
    {cbs : List Callback} : ∀ {st : Cadence} {base : Option Base}, st.Knows base →
      Regular M interval base cbs → reports M interval st cbs = missing base cbs := by
  induction cbs with
  | nil => exact fun _ _ => rfl
  | cons c cbs ih =>
    intro st base hknows hregular
    obtain ⟨homitted, hnext⟩ := c.update_spec hint hknows hregular.1
    rw [reports, missing, homitted, ih hnext hregular.2]

/-- Over a sequence whose timestamps are near the grid, each callback reports exactly the events
missing since the last timestamp; and whatever is fed to the tracker, no intermediate overflows
and the reported omission is bounded. -/
theorem cadence_exact (M : MaxConceal) {interval : UInt32} (hint : interval ≠ 0)
    {cbs : List Callback} (h : Regular M interval none cbs) :
    reports M interval .reset cbs = missing none cbs ∧
      ∀ (st : Cadence) (hasTs : Bool) (ts interval : UInt32),
        st.updateChecked M hasTs ts interval = some (st.update M hasTs ts interval) ∧
          (st.update M hasTs ts interval).omitted ≤ M.val :=
  ⟨@reports_eq M interval hint cbs .reset none rfl h, fun st hasTs ts interval =>
    ⟨st.updateChecked_eq M hasTs ts interval, st.update_omitted_le M hasTs ts interval⟩⟩

/-- Two of four events are missing, and the second timestamp is 35 us late. -/
def late : List Callback := [⟨0, some 100⟩, ⟨1, none⟩, ⟨4, some 40135⟩]

theorem cadence_exact_late : reports ⟨8, by decide, by decide⟩ 10000 .reset late = [0, 0, 2] := by
  have hregular : Regular ⟨8, by decide, by decide⟩ 10000 none late := by
    refine ⟨?_, ?_, ?_, trivial⟩
    · exact fun _ _ h _ => nomatch h
    · exact fun _ _ _ h => nomatch h
    intro b ts hb hts
    obtain rfl := Option.some.inj hb
    obtain rfl := Option.some.inj hts
    exact ⟨by decide, by decide, by decide, by decide⟩
  exact (cadence_exact _ (by decide) hregular).1

end Iso

end LeAudioReceiver
