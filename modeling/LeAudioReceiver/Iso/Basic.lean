import Mathlib.Data.Nat.Basic
import Mathlib.Tactic.Common
import Mathlib.Tactic.Ring

/-!
# Omission trackers of an isochronous stream

A model of `src/audio_iso_seq.c` and of the part of `session_recv_path`
(`src/audio_stream_session.c`) that conceals omitted events.  Two trackers watch the callbacks of
one stream: the sequence tracker sees jumps of the 16-bit packet sequence number, the cadence
tracker sees timestamps that advance by more than one interval.  In the modes with one stream the
larger of the two counts is concealed.

The 64-bit intermediates of the cadence tracker cannot overflow and are natural numbers here.
-/

namespace LeAudioReceiver

namespace Iso

/-- The range of `CONFIG_AUDIO_ISO_SEQ_MAX_CONCEAL`. -/
structure MaxConceal where
  val : ℕ
  pos : 1 ≤ val
  le : val ≤ 64

/-! ### Sequence numbers -/

/-- `enum audio_iso_seq_result`. -/
inductive SeqResult where
  | first
  | contig
  | gap
  | resync
  deriving DecidableEq, Repr

/-- `struct audio_iso_seq`. -/
structure Seq where
  initialized : Bool
  lastSeq : UInt16
  concealed : UInt32
  resyncs : UInt32
  deriving DecidableEq, Repr

/-- `audio_iso_seq_reset`. -/
def Seq.reset : Seq := ⟨false, 0, 0, 0⟩

/-- What `audio_iso_seq_update` returns and stores. -/
structure SeqUpdate where
  result : SeqResult
  omitted : ℕ
  firstSeq : UInt16
  st : Seq
  deriving DecidableEq, Repr

/-- `audio_iso_seq_update`. -/
def Seq.update (M : MaxConceal) (st : Seq) (seq : UInt16) : SeqUpdate :=
  if ¬ st.initialized then ⟨.first, 0, 0, { st with initialized := true, lastSeq := seq }⟩
  else
    let delta := (seq - st.lastSeq).toNat
    if delta = 0 then ⟨.resync, 0, 0, { st with resyncs := st.resyncs + 1 }⟩
    else if delta = 1 then ⟨.contig, 0, 0, { st with lastSeq := seq }⟩
    else if delta ≤ M.val + 1 then
      ⟨.gap, delta - 1, st.lastSeq + 1,
        { st with lastSeq := seq, concealed := st.concealed + UInt32.ofNat (delta - 1) }⟩
    else ⟨.resync, 0, 0, { st with resyncs := st.resyncs + 1, lastSeq := seq }⟩

/-! ### Timestamps -/

/-- `enum audio_iso_cadence_result`. -/
inductive CadenceResult where
  | first
  | noTs
  | contig
  | gap
  | wrap
  | resync
  deriving DecidableEq, Repr

/-- `enum audio_iso_cadence_resync_reason`. -/
inductive ResyncReason where
  | none
  | zeroInterval
  | zeroAdvance
  | deliveredGtEvents
  | deltaOffGrid
  | overBound
  deriving DecidableEq, Repr

/-- `struct audio_iso_cadence_observation`. -/
structure Observation where
  deltaUs : ℕ
  eventCount : ℕ
  deliveredPositions : ℕ
  errorUs : ℕ
  toleranceUs : ℕ
  reason : ResyncReason
  deriving DecidableEq, Repr

/-- `struct audio_iso_cadence`. -/
structure Cadence where
  initialized : Bool
  lastTs : UInt32
  callbacksSinceTs : UInt32
  concealed : UInt32
  resyncs : UInt32
  deriving DecidableEq, Repr

/-- `audio_iso_cadence_reset`. -/
def Cadence.reset : Cadence := ⟨false, 0, 0, 0, 0⟩

/-- What `audio_iso_cadence_update` returns and stores. -/
structure CadenceUpdate where
  result : CadenceResult
  omitted : ℕ
  observation : Observation
  st : Cadence
  deriving DecidableEq, Repr

/-- `u32_sat_u64`. -/
def u32SatU64 (v : ℕ) : ℕ := min v (2 ^ 32 - 1)

/-- An observation of which only the reason is set. -/
def Observation.bare (reason : ResyncReason) : Observation := ⟨0, 0, 0, 0, 0, reason⟩

/-- The nearest event count on the grid. -/
def eventCount (deltaUs intervalUs : ℕ) : ℕ := (deltaUs + intervalUs / 2) / intervalUs

/-- The accepted distance from the grid, scaled with the span. -/
def toleranceUs (events intervalUs : ℕ) : ℕ :=
  min (32 + (events * intervalUs * 1000 + 999999) / 1000000) (intervalUs / 4)

/-- The distance from the nearest multiple of the interval. -/
def errorUs (deltaUs events intervalUs : ℕ) : ℕ :=
  if deltaUs > events * intervalUs then deltaUs - events * intervalUs
  else events * intervalUs - deltaUs

/-- `audio_iso_cadence_update` for a timestamp that is not behind the last one. -/
def Cadence.forward (M : MaxConceal) (st : Cadence) (ts : UInt32) (interval : ℕ) : CadenceUpdate :=
  let delivered := st.callbacksSinceTs.toNat + 1
  let delta := ts.toNat - st.lastTs.toNat
  let st := { st with lastTs := ts, callbacksSinceTs := 0 }
  let events := eventCount delta interval
  let err := errorUs delta events interval
  let observe (reason : ResyncReason) : Observation :=
    { deltaUs := u32SatU64 delta
      eventCount := u32SatU64 events
      deliveredPositions := u32SatU64 delivered
      errorUs := u32SatU64 err
      toleranceUs := u32SatU64 (toleranceUs events interval)
      reason := reason }
  let resync (reason : ResyncReason) : CadenceUpdate :=
    ⟨.resync, 0, observe reason, { st with resyncs := st.resyncs + 1 }⟩
  if events = 0 then resync .zeroAdvance
  else if events < delivered then resync .deliveredGtEvents
  else if err > toleranceUs events interval then resync .deltaOffGrid
  else if events - delivered > M.val then resync .overBound
  else if events - delivered = 0 then ⟨.contig, 0, observe .none, st⟩
  else
    ⟨.gap, events - delivered, observe .none,
      { st with concealed := st.concealed + UInt32.ofNat (events - delivered) }⟩

/-- `audio_iso_cadence_update`. -/
def Cadence.update (M : MaxConceal) (st : Cadence) (hasTs : Bool) (ts interval : UInt32) :
    CadenceUpdate :=
  if ¬ hasTs then
    ⟨.noTs, 0, .bare .none,
      if st.initialized ∧ st.callbacksSinceTs.toNat < 2 ^ 32 - 1 then
        { st with callbacksSinceTs := st.callbacksSinceTs + 1 }
      else st⟩
  else if interval = 0 then
    ⟨.resync, 0, .bare .zeroInterval, { st with resyncs := st.resyncs + 1 }⟩
  else if ¬ st.initialized then
    ⟨.first, 0, .bare .none, { st with initialized := true, lastTs := ts, callbacksSinceTs := 0 }⟩
  else if ts < st.lastTs then
    ⟨.wrap, 0, .bare .none, { st with lastTs := ts, callbacksSinceTs := 0 }⟩
  else st.forward M ts interval.toNat

/-! ### The receive path -/

/-- `enum audio_stream_mode`. -/
inductive Mode where
  | mono
  | modeA
  | modeB
  deriving DecidableEq, Repr

/-- What the omission part of `session_recv_path` reads of a slot. -/
structure Slot where
  /-- The decoder of the slot is ready. -/
  decoder : Bool
  frameDurUs : UInt32
  seq : Seq
  cadence : Cadence
  deriving DecidableEq, Repr

/-- What a callback makes of the events omitted before it. -/
structure Concealed where
  /-- Calls of `session_mode_plc_push`. -/
  plcPushes : ℕ
  /-- The sequence numbers of the sentinels of mode A. -/
  sentinels : List UInt16
  slot : Slot
  deriving DecidableEq, Repr

/-- The part of `session_recv_path` in front of the delivered packet. -/
def Slot.concealOmitted (M : MaxConceal) (mode : Mode) (sl : Slot) (hasTs : Bool) (ts : UInt32)
    (seq : UInt16) : Concealed :=
  if ¬ sl.decoder then ⟨0, [], sl⟩
  else
    let s := sl.seq.update M seq
    if mode ≠ .modeA then
      let c := sl.cadence.update M hasTs ts sl.frameDurUs
      let omitted := if c.result = .gap ∧ c.omitted > s.omitted then c.omitted else s.omitted
      ⟨omitted, [], { sl with seq := s.st, cadence := c.st }⟩
    else
      ⟨0, (List.range s.omitted).map fun i => s.firstSeq + UInt16.ofNat i, { sl with seq := s.st }⟩

/-! ### One update -/

theorem Seq.update_jump {M : MaxConceal} {st : Seq} {seq : UInt16} {d : ℕ}
    (hi : st.initialized = true) (hd : d ≤ M.val)
    (hseq : seq = st.lastSeq + UInt16.ofNat (d + 1)) :
    (st.update M seq).omitted = d ∧ (st.update M seq).st.initialized = true ∧
      (st.update M seq).st.lastSeq = seq := by
  have hM := M.le
  have hdelta : (seq - st.lastSeq).toNat = d + 1 := by
    have hsub : seq - st.lastSeq = UInt16.ofNat (d + 1) := by
      rw [hseq, UInt16.add_comm, UInt16.add_sub_cancel]
    rw [hsub, UInt16.toNat_ofNat']
    omega
  unfold update
  rw [if_neg (by simp [hi])]
  dsimp only
  rw [hdelta, if_neg (Nat.succ_ne_zero d)]
  by_cases hd₀ : d = 0
  · rw [if_pos (by omega)]
    exact ⟨hd₀.symm, hi, rfl⟩
  · rw [if_neg (by omega), if_pos (by omega)]
    exact ⟨rfl, hi, rfl⟩

/-- A timestamp on the grid counts exactly the events without a callback. -/
theorem Cadence.update_onGrid {M : MaxConceal} {st : Cadence} {ts interval : UInt32} {o : ℕ}
    (hi : st.initialized = true) (hint : interval ≠ 0) (ho : o ≤ M.val)
    (hts : ts.toNat = st.lastTs.toNat +
      (st.callbacksSinceTs.toNat + 1 + o) * interval.toNat) :
    ((st.update M true ts interval).result = .gap ↔ o ≠ 0) ∧
      (st.update M true ts interval).omitted = o ∧
      (st.update M true ts interval).st.initialized = true ∧
      (st.update M true ts interval).st.lastTs = ts ∧
      (st.update M true ts interval).st.callbacksSinceTs = 0 := by
  have hpos : 0 < interval.toNat := by
    rw [Nat.pos_iff_ne_zero]
    intro h
    exact hint (UInt32.toNat_inj.1 h)
  have hdelta : ts.toNat - st.lastTs.toNat =
      (st.callbacksSinceTs.toNat + 1 + o) * interval.toNat := by omega
  have hevents : eventCount (ts.toNat - st.lastTs.toNat) interval.toNat =
      st.callbacksSinceTs.toNat + 1 + o := by
    rw [eventCount, hdelta, Nat.add_comm, Nat.add_mul_div_right _ _ hpos,
      Nat.div_eq_of_lt (Nat.div_lt_self hpos (by decide)), Nat.zero_add]
  have herr : errorUs (ts.toNat - st.lastTs.toNat) (st.callbacksSinceTs.toNat + 1 + o)
      interval.toNat = 0 := by
    rw [errorUs, hdelta]
    simp
  have hnot : ¬ ts < st.lastTs := by
    rw [UInt32.lt_iff_toNat_lt]
    omega
  unfold update
  rw [if_neg (by simp), if_neg hint, if_neg (by simp [hi]), if_neg hnot]
  have homitted : st.callbacksSinceTs.toNat + 1 + o - (st.callbacksSinceTs.toNat + 1) = o := by
    omega
  unfold forward
  dsimp only
  rw [hevents, herr, homitted, if_neg (by omega), if_neg (by omega), if_neg (by omega),
    if_neg (by omega)]
  by_cases ho₀ : o = 0
  · rw [if_pos ho₀]
    exact ⟨by simp [ho₀], ho₀.symm, hi, rfl, rfl⟩
  · rw [if_neg ho₀]
    exact ⟨by simp [ho₀], rfl, hi, rfl, rfl⟩

theorem Cadence.update_noTs (M : MaxConceal) {st : Cadence} (ts interval : UInt32)
    (hi : st.initialized = true) (hc : st.callbacksSinceTs.toNat + 1 < 2 ^ 32) :
    (st.update M false ts interval).result = .noTs ∧
      (st.update M false ts interval).st.initialized = true ∧
      (st.update M false ts interval).st.lastTs = st.lastTs ∧
      (st.update M false ts interval).st.callbacksSinceTs.toNat =
        st.callbacksSinceTs.toNat + 1 := by
  have hlt : st.callbacksSinceTs.toNat < 2 ^ 32 - 1 := by omega
  unfold update
  rw [if_pos (by simp)]
  refine ⟨rfl, ?_⟩
  dsimp only
  rw [if_pos ⟨hi, hlt⟩]
  refine ⟨hi, rfl, ?_⟩
  rw [UInt32.toNat_add]
  exact Nat.mod_eq_of_lt hc

end Iso

end LeAudioReceiver
