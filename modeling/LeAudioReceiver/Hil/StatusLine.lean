import LeAudioReceiver.Hil.Status
import Mathlib.Data.Nat.Log

/-!
# The length of a status line

The line of a status is as long as its fields are wide, and the output takes up to
`HIL_SOURCE_OUTPUT_LINE_SIZE` bytes.

* `appendStreams_eq`, `length_txText_lt` : the scratch buffers hold whatever they are asked to hold;
* `lineWidth` : the length of the line, in the widths of the fields;
* `statusLine_eq` : **a status becomes its line if that is at most as long as the lines of the
  output; a few bytes more are an overflow of the output, and still more of the buffers**.
-/

namespace LeAudioReceiver

namespace Hil

open Json (Text)
open Transmit (Stream)

/-! ### Widths -/

/-- The number of decimal digits. -/
def width (n : ℕ) : ℕ := Nat.log 10 n + 1

/-- The number of characters of an integer. -/
def signedWidth (z : ℤ) : ℕ := (if z < 0 then 1 else 0) + width z.natAbs

/-- The number of characters of a flag. -/
def flagWidth (b : Bool) : ℕ := if b then 4 else 5

/-- The variable part of an object of `streams`. -/
def streamWidth (t : Stream) (c : StreamCounter) : ℕ :=
  width t.seq.toNat + width c.submittedSdus.toNat + width c.submittedScoredSdus.toNat +
    width c.sendFailures.toNat + width c.sentCallbacks.toNat + width t.outstanding

/-- The variable part of `tx` that belongs to a stream. -/
def leadWidth (t : Stream) : ℕ :=
  signedWidth (shownLead t t.leadMin) + signedWidth (shownLead t t.leadMax) +
    width t.leadUnder.toNat + width t.syncLast.toNat + width t.syncCnt.toNat

/-- The variable part of `tx` that the streams share. -/
def pinWidth (t : Stream) : ℕ :=
  width t.readback.toNat + width t.pinLast.toNat + width t.pinAdvances.toNat

/-- The variable part of the run state, but for the counters. -/
def runWidth (s : State) : ℕ :=
  flagWidth s.active + s.currentState.name.length + width s.segment.toNat + flagWidth s.aborted +
    s.abortCause.name.length + flagWidth s.stopRequested + signedWidth s.firstError +
    s.config.mode.name.length + width s.config.scoredSduCount.toNat

/-- The variable part of the answers of the backend. -/
def backendWidth (b : BackendStatus) : ℕ :=
  flagWidth b.connPresent + width b.securityLevel.toNat + signedWidth b.securityError +
    width b.discoveredSinkCount.toNat + flagWidth b.groupPresent + width b.disconnectReason.toNat +
    width b.firstAscsCode.toNat + width b.firstAscsReason.toNat + signedWidth b.bondCount

/-- The variable part of the envelope. -/
def headerWidth (h : Header) : ℕ :=
  h.commandId.length + h.runId.length + width h.monotonicMs.toNat + width h.segment.toNat

theorem length_unsigned (n : ℕ) : (unsigned n).length = width n := by
  induction n using Nat.strong_induction_on with
  | _ n ih =>
    unfold unsigned width at *
    rw [Nat.toDigits_eq_if (by decide)]
    split_ifs with hlt
    · rw [Nat.log_of_lt hlt]
      rfl
    · rw [List.length_append, ih (n / 10) (by omega), List.length_singleton,
        Nat.log_of_one_lt_of_le (by decide) (Nat.not_lt.1 hlt)]

theorem length_signed (z : ℤ) : (signed z).length = signedWidth z := by
  cases z with
  | ofNat n =>
    have hneg : ¬ Int.ofNat n < 0 := Int.not_lt.2 (Int.natCast_nonneg n)
    unfold signedWidth
    rw [if_neg hneg, Nat.zero_add]
    exact length_unsigned n
  | negSucc n =>
    unfold signedWidth
    rw [if_pos (Int.negSucc_lt_zero n), Nat.add_comm]
    exact congrArg Nat.succ (length_unsigned (n + 1))

theorem length_flag (b : Bool) : (flag b).length = flagWidth b := by
  cases b <;> rfl

theorem length_streamText (i : Fin 2) (t : Stream) (c : StreamCounter) :
    (streamText i t c).length = (if i = 0 then 40 else 41) + streamWidth t c := by
  unfold streamText streamWidth
  split_ifs <;>
  · simp only [String.reduceToList, List.length_append, List.length_cons, List.length_nil,
      length_unsigned, Nat.reduceAdd]
    omega

theorem length_txTextTwo (t u : Stream) :
    (txTextTwo t u).length = 84 + pinWidth t + leadWidth t + leadWidth u := by
  unfold txTextTwo pinWidth leadWidth
  simp only [String.reduceToList, List.length_append, List.length_cons, List.length_nil,
    length_unsigned, length_signed, Nat.reduceAdd]
  omega

theorem length_txTextOne (t : Stream) :
    (txTextOne t).length = 77 + pinWidth t + leadWidth t := by
  unfold txTextOne pinWidth leadWidth
  simp only [String.reduceToList, List.length_append, List.length_cons, List.length_nil,
    length_unsigned, length_signed, Nat.reduceAdd]
  omega

theorem length_statusText (s : Shown) (streams tx : Text) :
    (statusText s .status true "ok".toList streams tx).length =
      399 + runWidth s.run + backendWidth s.backend + streams.length + tx.length := by
  have hprofile : s.run.config.profile.name.length = 6 := by
    cases s.run.config.profile <;> rfl
  have hpolicy : s.run.config.reconnectPolicy.name.length = 4 := by
    cases s.run.config.reconnectPolicy <;> rfl
  have hverdict : (verdictName s.run.terminal).length = 4 := by
    cases s.run.terminal <;> rfl
  have hcount : width s.run.config.mode.streamCount = 1 := by
    cases s.run.config.mode <;> rfl
  have hcommand : SourceCommand.status.name.length = 6 := rfl
  have hok : flagWidth true = 4 := rfl
  unfold statusText runWidth backendWidth
  simp only [List.length_append, length_unsigned, length_signed, length_flag, hcommand, hok,
    hprofile, hpolicy, hverdict, hcount]
  simp only [String.reduceToList, List.length_cons, List.length_nil, Nat.reduceAdd]
  omega

theorem length_lineText (h : Header) (data : Text) :
    (lineText h "status".toList data).length = 141 + headerWidth h + data.length := by
  have hversion : width protocolVersion = 1 := rfl
  unfold lineText headerWidth firmwareId
  simp only [String.reduceToList, List.length_append, List.length_cons, List.length_nil,
    length_unsigned, hversion, Nat.reduceAdd]
  omega

theorem width_le_iff {n k : ℕ} (hk : 0 < k) : width n ≤ k ↔ n < 10 ^ k := by
  rw [← length_unsigned]
  exact Nat.length_toDigits_le_iff (by decide) hk

theorem width_uint16 (x : UInt16) : width x.toNat ≤ 5 :=
  (width_le_iff (by decide)).2 (Nat.lt_trans x.toNat_lt (by decide))

theorem width_uint32 (x : UInt32) : width x.toNat ≤ 10 :=
  (width_le_iff (by decide)).2 (Nat.lt_trans x.toNat_lt (by decide))

theorem signedWidth_int32 {z : ℤ} (h : Transmit.int32Min ≤ z ∧ z ≤ Transmit.int32Max) :
    signedWidth z ≤ 11 := by
  have habs : width z.natAbs ≤ 10 := by
    refine (width_le_iff (by decide)).2 ?_
    unfold Transmit.int32Min Transmit.int32Max at h
    omega
  unfold signedWidth
  split_ifs <;> omega

/-! ### The scratch buffers -/

theorem streamWidth_le {t : Stream} (h : t.InRange) (c : StreamCounter) :
    streamWidth t c ≤ 55 := by
  have hseq := width_uint16 t.seq
  have hsubmitted := width_uint32 c.submittedSdus
  have hscored := width_uint32 c.submittedScoredSdus
  have hfailures := width_uint32 c.sendFailures
  have hcallbacks := width_uint32 c.sentCallbacks
  have houtstanding : width t.outstanding ≤ 10 :=
    (width_le_iff (by decide)).2 (Nat.lt_trans h.outstanding (by decide))
  unfold streamWidth
  omega

theorem shownLead_range {t : Stream} {lead : ℤ}
    (h : Transmit.int32Min ≤ lead ∧ lead ≤ Transmit.int32Max) :
    Transmit.int32Min ≤ shownLead t lead ∧ shownLead t lead ≤ Transmit.int32Max := by
  unfold shownLead
  split_ifs
  · decide
  · exact h

theorem leadWidth_le {t : Stream} (h : t.InRange) : leadWidth t ≤ 52 := by
  have hmin := signedWidth_int32 (shownLead_range (t := t) h.leadMin)
  have hmax := signedWidth_int32 (shownLead_range (t := t) h.leadMax)
  have hunder := width_uint32 t.leadUnder
  have hlast := width_uint32 t.syncLast
  have hcnt := width_uint32 t.syncCnt
  unfold leadWidth
  omega

theorem pinWidth_le (t : Stream) : pinWidth t ≤ 30 := by
  have hreadback := width_uint32 t.readback
  have hlast := width_uint32 t.pinLast
  have hadvances := width_uint32 t.pinAdvances
  unfold pinWidth
  omega

/-- What `streams_json` holds. -/
def streamsText (s : Shown) : Text :=
  s.run.config.mode.indices.flatMap fun i => streamText i (s.stream i) (s.run.counters i)

/-- The objects of both streams fit into their buffer. -/
theorem appendStreams_eq (s : Shown) :
    appendStreams s s.run.config.mode.indices [] = .ok (streamsText s) ∧
      (streamsText s).length < streamsJsonSize := by
  have hlen (i : Fin 2) : (streamText i (s.stream i) (s.run.counters i)).length ≤ 96 := by
    rw [length_streamText]
    have hwidth := streamWidth_le (s.inRange i) (s.run.counters i)
    split_ifs <;> omega
  have hzero := hlen 0
  have hone := hlen 1
  have hsize : streamsJsonSize = 384 := rfl
  unfold streamsText
  cases s.run.config.mode with
  | modeA =>
    simp only [Mode.indices, appendStreams, List.flatMap_cons, List.flatMap_nil, List.nil_append,
      List.append_nil, List.length_append, List.length_nil]
    rw [if_neg (by omega), if_neg (by omega)]
    exact ⟨rfl, by omega⟩
  | _ =>
    simp only [Mode.indices, appendStreams, List.flatMap_cons, List.flatMap_nil, List.nil_append,
      List.append_nil, List.length_nil]
    rw [if_neg (by omega)]
    exact ⟨rfl, by omega⟩

/-- The transmit diagnostics fit into their buffer. -/
theorem length_txText_lt (s : Shown) (ok : Bool) : (txText s ok).length < txJsonSize := by
  have hpin := pinWidth_le (s.stream 0)
  have hzero := leadWidth_le (s.inRange 0)
  have hone := leadWidth_le (s.inRange 1)
  have hsize : txJsonSize = 320 := rfl
  unfold txText
  split_ifs
  · split
    · rw [length_txTextTwo]
      omega
    · rw [length_txTextOne]
      omega
  · decide

/-! ### The line -/

theorem printable_unsigned (n : ℕ) : (unsigned n).all Json.printable = true :=
  List.all_eq_true.2 (Json.printable_toDigits n)

theorem printable_signed (z : ℤ) : (signed z).all Json.printable = true :=
  List.all_eq_true.2 (Json.printable_decimal z)

theorem printable_flag (b : Bool) : (flag b).all Json.printable = true := by
  cases b <;> decide

theorem printable_streamText (i : Fin 2) (t : Stream) (c : StreamCounter) :
    (streamText i t c).all Json.printable = true := by
  have hlead : (if i = 0 then [] else ",".toList).all Json.printable = true := by
    split_ifs <;> decide
  unfold streamText
  simp only [List.all_append, printable_unsigned, hlead, Bool.and_true, Bool.true_and]
  decide

theorem printable_txText (s : Shown) (ok : Bool) : (txText s ok).all Json.printable = true := by
  unfold txText
  split_ifs
  · split
    · unfold txTextTwo
      simp only [List.all_append, printable_unsigned, printable_signed, Bool.and_true]
      decide
    · unfold txTextOne
      simp only [List.all_append, printable_unsigned, printable_signed, Bool.and_true]
      decide
  · decide

theorem printable_streamsText (s : Shown) : (streamsText s).all Json.printable = true := by
  unfold streamsText
  rw [List.all_flatMap]
  exact List.all_eq_true.2 fun i _ => printable_streamText i _ _

theorem printable_names (s : State) :
    (s.currentState.name.all Json.printable && s.abortCause.name.all Json.printable &&
      (verdictName s.terminal).all Json.printable && s.config.mode.name.all Json.printable &&
      s.config.profile.name.all Json.printable &&
      s.config.reconnectPolicy.name.all Json.printable) = true := by
  have hstate : s.currentState.name.all Json.printable = true := by
    cases s.currentState <;> decide
  have hcause : s.abortCause.name.all Json.printable = true := by
    cases s.abortCause <;> decide
  have hverdict : (verdictName s.terminal).all Json.printable = true := by
    cases s.terminal <;> decide
  have hmode : s.config.mode.name.all Json.printable = true := by
    cases s.config.mode <;> decide
  have hprofile : s.config.profile.name.all Json.printable = true := by
    cases s.config.profile <;> decide
  have hpolicy : s.config.reconnectPolicy.name.all Json.printable = true := by
    cases s.config.reconnectPolicy <;> decide
  rw [hstate, hcause, hverdict, hmode, hprofile, hpolicy]
  rfl

theorem recordDataOk_statusText (s : Shown) {streams tx : Text}
    (hstreams : streams.all Json.printable = true) (htx : tx.all Json.printable = true) :
    recordDataOk (statusText s .status true "ok".toList streams tx) = true := by
  have hcommand : SourceCommand.status.name.all Json.printable = true := by decide
  have hnames := printable_names s.run
  simp only [Bool.and_eq_true] at hnames
  obtain ⟨⟨⟨⟨⟨hstate, hcause⟩, hverdict⟩, hmode⟩, hprofile⟩, hpolicy⟩ := hnames
  have hprintable :
      (statusText s .status true "ok".toList streams tx).all Json.printable = true := by
    unfold statusText
    simp only [List.all_append, printable_unsigned, printable_signed, printable_flag, hcommand,
      hstate, hcause, hverdict, hmode, hprofile, hpolicy, hstreams, htx, Bool.and_true]
    decide
  have hlength := length_statusText s streams tx
  have hlast : (statusText s .status true "ok".toList streams tx).getLast? = some '\x7d' := by
    unfold statusText
    rw [List.getLast?_append]
    rfl
  have hhead : (statusText s .status true "ok".toList streams tx).head? = some '\x7b' := by
    unfold statusText
    simp only [List.head?_append, String.reduceToList, List.head?_cons, Option.some_or]
  have hclean : (statusText s .status true "ok".toList streams tx).all
      (fun c => c ≠ '\r' && c ≠ '\n' && c ≠ nul) = true := by
    rw [List.all_eq_true] at hprintable ⊢
    intro c hc
    simp only [Bool.and_eq_true, decide_eq_true_eq]
    exact ⟨⟨ne_of_printable (hprintable c hc) (by decide),
      ne_of_printable (hprintable c hc) (by decide)⟩,
      ne_of_printable (hprintable c hc) (by decide)⟩
  unfold recordDataOk
  rw [hclean, hlast, hhead, decide_eq_true (show 2 ≤ _ by omega)]
  rfl

theorem snd_snprintf (buf text : Text) : (snprintf buf text).2 = text.length := by
  unfold snprintf
  split_ifs <;> rfl

theorem take_snprintf {buf text : Text} (hfit : text.length < buf.length) :
    (snprintf buf text).1.take text.length = text := by
  have hne : buf.isEmpty = false := by
    rw [List.isEmpty_eq_false_iff]
    rintro rfl
    exact absurd hfit (Nat.not_lt_zero _)
  have htake : text.take (buf.length - 1) = text := List.take_of_length_le (by omega)
  simp only [snprintf, hne, Bool.false_eq_true, if_false, htake, List.append_assoc]
  rw [List.take_append_of_le_length (Nat.le_refl _), List.take_length]

theorem formatLine_status {h : Header} (hok : h.ok = true) {data : Text}
    (hdata : recordDataOk data = true) (buf : Text) :
    ∃ buf', buf'.take (lineText h "status".toList data).length = lineText h "status".toList data ∧
        (lineText h "status".toList data).length < buf.length ∧
        formatLine buf h "status".toList data =
          (buf', .ok (lineText h "status".toList data).length) ∨
      buf.length ≤ (lineText h "status".toList data).length ∧
        formatLine buf h "status".toList data = (buf', .error .enobufs) := by
  have hkind : recordKindOk "status".toList = true := rfl
  simp only [Header.ok, Bool.and_eq_true] at hok
  unfold formatLine
  rw [hkind, hok.1, hok.2, hdata]
  simp only [Bool.not_true, Bool.or_self, Bool.false_eq_true, if_false, snd_snprintf, ge_iff_le]
  by_cases hfit : buf.length ≤ (lineText h "status".toList data).length
  · rw [if_pos hfit]
    exact ⟨_, .inr ⟨hfit, rfl⟩⟩
  · rw [if_neg hfit]
    refine ⟨_, .inl ⟨take_snprintf ?_, Nat.not_le.1 hfit, rfl⟩⟩
    rw [length_clear]
    exact Nat.not_le.1 hfit

/-- The length of the line of a status with its prefix. -/
def lineWidth (h : Header) (s : Shown) : ℕ :=
  headerWidth h + runWidth s.run + backendWidth s.backend + pinWidth (s.stream 0) +
    leadWidth (s.stream 0) + streamWidth (s.stream 0) (s.run.counters 0) +
    match s.run.config.mode with
    | .modeA => leadWidth (s.stream 1) + streamWidth (s.stream 1) (s.run.counters 1) + 710
    | _ => 662

/-- The record of a status. -/
def statusRecord (h : Header) (s : Shown) : Text :=
  lineText h "status".toList
    (statusText s .status true "ok".toList (streamsText s) (txText s true))

theorem length_statusRecord (h : Header) (s : Shown) :
    (statusRecord h s).length + 5 = lineWidth h s := by
  unfold statusRecord lineWidth
  rw [length_lineText, length_statusText]
  unfold streamsText txText
  cases s.run.config.mode with
  | modeA =>
    simp only [Mode.indices, List.flatMap_cons, List.flatMap_nil, List.append_nil,
      List.length_append, length_streamText, if_true, length_txTextTwo]
    rw [if_neg (by decide)]
    omega
  | _ =>
    simp only [Mode.indices, List.flatMap_cons, List.flatMap_nil, List.append_nil,
      length_streamText, if_true, length_txTextOne]
    omega

/-- **What becomes of a status**: its line, unless that is longer than the lines of the output. -/
theorem statusLine_eq {h : Header} (hok : h.ok = true) (s : Shown) :
    statusLine h s =
      if lineWidth h s ≤ outputLineSize then .ok (hil1 ++ statusRecord h s)
      else if lineWidth h s < outputLineSize + 5 then .error .eoverflow
      else .error (.format .enobufs) := by
  have hstreams := (appendStreams_eq s).1
  have htx : ¬ txJsonSize ≤ (txText s true).length := Nat.not_le.2 (length_txText_lt s true)
  have hdata := recordDataOk_statusText s (printable_streamsText s) (printable_txText s true)
  have hwidth := length_statusRecord h s
  have hspan : (statusText s .status true "ok".toList (streamsText s) (txText s true)).length ≤
      (statusRecord h s).length := by
    unfold statusRecord
    rw [length_lineText]
    omega
  have hsize : outputLineSize = 1024 := rfl
  unfold statusLine emitStatusData buildStatusData
  rw [hstreams]
  simp only [if_neg htx]
  by_cases hcap :
      outputLineSize ≤
        (statusText s .status true "ok".toList (streamsText s) (txText s true)).length
  · rw [if_pos hcap, if_neg (by omega), if_neg (by omega)]
  · rw [if_neg hcap]
    obtain ⟨buf, ⟨htake, hfit, hformat⟩ | ⟨hfull, hformat⟩⟩ :=
      formatLine_status hok hdata (List.replicate outputLineSize nul)
    · rw [List.length_replicate] at hfit
      simp only [hformat, htake, submitRecord]
      change (if _ < (statusRecord h s).length + 5 then _ else _) = _
      change (statusRecord h s).length < _ at hfit
      rw [hwidth]
      by_cases hroom : lineWidth h s ≤ outputLineSize
      · rw [if_neg (Nat.not_lt.2 hroom), if_pos hroom]
        rfl
      · rw [if_pos (Nat.not_le.1 hroom), if_neg hroom, if_pos (by omega)]
    · rw [List.length_replicate] at hfull
      change _ ≤ (statusRecord h s).length at hfull
      simp only [hformat]
      rw [if_neg (by omega), if_neg (by omega)]

end Hil

end LeAudioReceiver
