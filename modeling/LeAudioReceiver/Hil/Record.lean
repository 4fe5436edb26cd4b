import LeAudioReceiver.Hil.App
import LeAudioReceiver.Hil.Names

/-!
# Formatting the records of the HIL source

A model of `src/hil/source/core/hil_source_record.c`.  A buffer of the caller is the list of its
bytes, so its length is its capacity; a formatter returns the buffer afterwards beside its return
value, and what the caller then reads is the C string at the start of the buffer.  An argument
outside of its enumeration is `none`.

The checks for null pointers are left out, and so is the failure of `snprintf` on a text beyond
`INT_MAX`.
-/

namespace LeAudioReceiver

namespace Hil

open Json (Text)

/-! ### Buffers -/

/-- The terminating byte. -/
def nul : Char := '\x00'

/-- The C string at the start of a buffer. -/
def cString (buf : Text) : Text := buf.takeWhile (· ≠ nul)

/-- The first byte is cleared, if there is one. -/
def clear (buf : Text) : Text := buf.set 0 nul

/-- `snprintf` of a text: the buffer afterwards and the length of the whole text. -/
def snprintf (buf text : Text) : Text × ℕ :=
  if buf.isEmpty then (buf, text.length)
  else
    let written := text.take (buf.length - 1) ++ [nul]
    (written ++ buf.drop written.length, text.length)

theorem cString_clear (buf : Text) : cString (clear buf) = [] := by
  cases buf <;> simp [clear, cString, nul]

theorem cString_snprintf {buf text : Text} (hfit : text.length < buf.length)
    (hnul : ∀ c ∈ text, c ≠ nul) : cString (snprintf buf text).1 = text := by
  have hne : buf.isEmpty = false := by
    rw [List.isEmpty_eq_false_iff]
    rintro rfl
    exact absurd hfit (Nat.not_lt_zero _)
  have htake : text.take (buf.length - 1) = text := List.take_of_length_le (by omega)
  simp only [snprintf, hne, Bool.false_eq_true, if_false, htake, cString, List.append_assoc,
    List.cons_append, List.nil_append]
  rw [List.takeWhile_append_of_pos (fun c hc => by simpa using hnul c hc),
    List.takeWhile_cons_of_neg (by simp), List.append_nil]

/-! ### The envelope -/

/-- The errors of the formatters. -/
inductive FormatError where
  | einval
  | enobufs
  deriving DecidableEq, Repr

/-- The buffer after a formatter and its return value. -/
abbrev Formatted := Text × Except FormatError ℕ

/-- The arguments that all formatters share. -/
structure Header where
  monotonicMs : UInt32
  commandId : Text
  runId : Text
  segment : UInt32

/-- `hil_record_kind_ok`. -/
def recordKindOk (kind : Text) : Bool :=
  kind = "ack".toList || kind = "state".toList || kind = "terminal".toList ||
    kind = "status".toList

/-- `hil_record_id_ok`. -/
def recordIdOk (id : Text) (maxLen : ℕ) : Bool :=
  safeIdCharsOk id && decide (1 ≤ id.length ∧ id.length ≤ maxLen)

/-- `hil_record_data_ok`. -/
def recordDataOk (data : Text) : Bool :=
  decide (2 ≤ data.length) && data.head? = some '\x7b' && data.getLast? = some '\x7d' &&
    data.all fun c => c ≠ '\r' && c ≠ '\n' && c ≠ nul

/-- The names of `hil_record_error_name_ok`. -/
def errorNames : List Text :=
  ["ok".toList, "unknown_command".toList, "invalid_request".toList, "busy".toList,
    "not_configured".toList, "parse_error".toList, "failed".toList]

/-- `hil_record_error_name_ok`. -/
def recordErrorNameOk (name : Text) : Bool := errorNames.contains name

/-- `%u`. -/
def unsigned (n : ℕ) : Text := Nat.toDigits 10 n

/-- The text of the format string. -/
def lineText (h : Header) (kind data : Text) : Text :=
  "\x7b\"protocol_version\":".toList ++ unsigned protocolVersion ++
    ",\"kind\":\"".toList ++ kind ++
    "\",\"firmware_id\":\"".toList ++ firmwareId.toList ++
    "\",\"monotonic_ms\":".toList ++ unsigned h.monotonicMs.toNat ++
    ",\"command_id\":\"".toList ++ h.commandId ++
    "\",\"run_id\":\"".toList ++ h.runId ++
    "\",\"segment\":".toList ++ unsigned h.segment.toNat ++
    ",\"data\":".toList ++ data ++ "\x7d".toList

/-- `hil_source_record_format_line`. -/
def formatLine (buf : Text) (h : Header) (kind data : Text) : Formatted :=
  if !recordKindOk kind then (clear buf, .error .einval)
  else if !recordIdOk h.commandId maxCommandIdLen || !recordIdOk h.runId maxRunIdLen then
    (clear buf, .error .einval)
  else if !recordDataOk data then (clear buf, .error .einval)
  else
    let out := snprintf (clear buf) (lineText h kind data)
    if out.2 ≥ buf.length then (clear out.1, .error .enobufs) else (out.1, .ok out.2)

/-! ### The kinds of records -/

/-- `hil_source_record_format_ack_start`. -/
def formatAckStart (buf : Text) (h : Header) : Formatted :=
  formatLine buf h "ack".toList "\x7b\"command\":\"start\",\"accepted\":true\x7d".toList

/-- A formatter with a data buffer of `size` bytes of its own; without data an argument had no
name. -/
def formatWithData (buf : Text) (h : Header) (kind : Text) (size : ℕ) (data : Option Text) :
    Formatted :=
  match data with
  | none => (clear buf, .error .einval)
  | some data =>
    if data.length ≥ size then (clear buf, .error .einval) else formatLine buf h kind data

/-- The data of a state record. -/
def stateData (name : Text) : Text := "\x7b\"state\":\"".toList ++ name ++ "\"\x7d".toList

/-- `hil_source_record_format_state`. -/
def formatState (buf : Text) (h : Header) (state : Option RunState) : Formatted :=
  formatWithData buf h "state".toList 64 ((state.map RunState.name).map stateData)

/-- The data of a terminal record. -/
def terminalData (name : Text) : Text := "\x7b\"verdict\":\"".toList ++ name ++ "\"\x7d".toList

/-- `hil_source_record_format_terminal`. -/
def formatTerminal (buf : Text) (h : Header) (verdict : Option Verdict) : Formatted :=
  formatWithData buf h "terminal".toList 32 ((verdict.bind Verdict.name).map terminalData)

/-- The data of an abort record. -/
def abortData (name : Text) : Text :=
  "\x7b\"state\":\"teardown\",\"cause\":\"".toList ++ name ++ "\"\x7d".toList

/-- `hil_source_record_format_abort_teardown`. -/
def formatAbortTeardown (buf : Text) (h : Header) (cause : Option AbortCause) : Formatted :=
  formatWithData buf h "state".toList 48 ((cause.map AbortCause.name).map abortData)

/-- The data of a status record. -/
def statusData (ok : Bool) (errorName name : Text) : Text :=
  "\x7b\"command\":\"".toList ++ name ++ "\",\"ok\":".toList ++
    (if ok then "true".toList else "false".toList) ++ ",\"error\":\"".toList ++ errorName ++
    "\"\x7d".toList

/-- `hil_source_record_format_status`. -/
def formatStatus (buf : Text) (h : Header) (command : Option SourceCommand) (ok : Bool)
    (errorName : Text) : Formatted :=
  formatWithData buf h "status".toList 96
    (if recordErrorNameOk errorName then
      (command.map SourceCommand.name).map (statusData ok errorName)
    else none)

end Hil

end LeAudioReceiver
