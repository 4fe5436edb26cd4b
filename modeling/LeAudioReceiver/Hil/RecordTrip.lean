import LeAudioReceiver.Hil.Record
import LeAudioReceiver.Hil.Hil1

/-!
# What the HIL source formats is what the host reads

The formatters of the source against the reader of the host, for every kind of record with its
payload, every header and every buffer.

* `Hil.lineText_eq_dumps` : the text of the format string is the compact text of an object.
* `Hil.record_round_trip` : **a formatter fails and leaves the empty string, or it returns the
  length of the text it left, and the host reads the record back from it.**  It fails only where an
  argument has no name, an identifier is not safe, or the text and its terminating byte are longer
  than the buffer.
-/

namespace LeAudioReceiver

namespace Hil

open Json (Text Value plain)

/-- What a record says. -/
inductive Payload where
  | ackStart
  | state (s : Option RunState)
  | terminal (verdict : Option Verdict)
  | abortTeardown (cause : Option AbortCause)
  | status (command : Option SourceCommand) (ok : Bool) (errorName : Text)

namespace Payload

/-- The formatter of the payload. -/
def format (p : Payload) (buf : Text) (h : Header) : Formatted :=
  match p with
  | ackStart => formatAckStart buf h
  | .state s => formatState buf h s
  | terminal verdict => formatTerminal buf h verdict
  | abortTeardown cause => formatAbortTeardown buf h cause
  | status command ok errorName => formatStatus buf h command ok errorName

/-- The kind of the record. -/
def kind : Payload → Text
  | ackStart => "ack".toList
  | state _ | abortTeardown _ => "state".toList
  | terminal _ => "terminal".toList
  | status .. => "status".toList

/-- The data of the record, if every argument has a name. -/
def data : Payload → Option (List (Text × Value))
  | ackStart => some [("command".toList, .str "start".toList), ("accepted".toList, .bool true)]
  | .state s => s.map fun s => [("state".toList, .str s.name)]
  | terminal verdict => (verdict.bind Verdict.name).map fun v => [("verdict".toList, .str v)]
  | abortTeardown cause =>
    cause.map fun c => [("state".toList, .str "teardown".toList), ("cause".toList, .str c.name)]
  | status command ok errorName =>
    if recordErrorNameOk errorName then
      command.map fun c =>
        [("command".toList, .str c.name), ("ok".toList, .bool ok), ("error".toList, .str errorName)]
    else none

end Payload

/-- The record of a header and its data. -/
def Header.record (h : Header) (kind : Text) (data : List (Text × Value)) : HilRecord :=
  { protocolVersion := protocolVersion, kind := kind, firmwareId := firmwareId.toList
    monotonicMs := h.monotonicMs.toNat, commandId := h.commandId, runId := h.runId
    segment := h.segment.toNat, data := data }

/-- The object of a record. -/
def HilRecord.members (r : HilRecord) : List (Text × Value) :=
  [("protocol_version".toList, .int r.protocolVersion), ("kind".toList, .str r.kind),
    ("firmware_id".toList, .str r.firmwareId), ("monotonic_ms".toList, .int r.monotonicMs),
    ("command_id".toList, .str r.commandId), ("run_id".toList, .str r.runId),
    ("segment".toList, .int r.segment), ("data".toList, .obj r.data)]

/-- The compact text of a record. -/
def HilRecord.text (r : HilRecord) : Text := Json.dumps (.obj r.members)

/-- The identifiers are safe and within their lengths. -/
def Header.ok (h : Header) : Bool :=
  recordIdOk h.commandId maxCommandIdLen && recordIdOk h.runId maxRunIdLen

/-! ### The text is a JSON text -/

theorem recordIdOk_cases {id : Text} {maxLen : ℕ} (h : recordIdOk id maxLen = true) :
    safeIdCharsOk id = true ∧ id ≠ [] := by
  simp only [recordIdOk, Bool.and_eq_true, decide_eq_true_eq] at h
  exact ⟨h.1, List.length_pos_iff.1 h.2.1⟩

theorem kinds_of_ok {kind : Text} (h : recordKindOk kind = true) :
    kind.all plain = true ∧ kinds.contains kind = true := by
  simp only [recordKindOk, Bool.or_eq_true, decide_eq_true_eq] at h
  rcases h with ((rfl | rfl) | rfl) | rfl <;> exact ⟨by decide, by decide⟩

/-- The format string writes the compact text of the record. -/
theorem lineText_eq_dumps {h : Header} (hok : h.ok = true) {kind : Text}
    (hkind : recordKindOk kind = true) (data : List (Text × Value)) :
    lineText h kind (Json.dumps (.obj data)) = (h.record kind data).text := by
  simp only [Header.ok, Bool.and_eq_true] at hok
  have hcommand := Json.quote_plain (plain_of_safe (recordIdOk_cases hok.1).1)
  have hrun := Json.quote_plain (plain_of_safe (recordIdOk_cases hok.2).1)
  have hk := Json.quote_plain (kinds_of_ok hkind).1
  have hfirmware : Json.quote firmwareId.toList = '\"' :: (firmwareId.toList ++ ['\"']) :=
    Json.quote_plain (by decide +kernel)
  have hkeys : ∀ key ∈ requiredKeys, Json.quote key = '\"' :: (key ++ ['\"']) :=
    fun key hkey => Json.quote_plain
      ((by decide +kernel : ∀ key ∈ requiredKeys, key.all plain = true) key hkey)
  simp only [requiredKeys, List.forall_mem_cons] at hkeys
  obtain ⟨h₁, h₂, h₃, h₄, h₅, h₆, h₇, h₈, -⟩ := hkeys
  simp only [HilRecord.text, HilRecord.members, Header.record, Json.dumps_obj (_ :: _),
    Json.dumpMembers_cons, Json.dumpMembers_singleton, Json.dumps_str, Json.dumps_natCast, hcommand,
    hrun, hk, hfirmware, h₁, h₂, h₃, h₄, h₅, h₆, h₇, h₈]
  unfold lineText
  simp only [unsigned, String.reduceToList, List.append_assoc, List.cons_append, List.nil_append]

/-! ### The data of a record -/

theorem errorName_spec {name : Text} (h : recordErrorNameOk name = true) :
    name.all plain = true ∧ name.length ≤ 15 := by
  have hall : ∀ name ∈ errorNames, name.all plain = true ∧ name.length ≤ 15 := by decide +kernel
  exact hall name (by simpa [recordErrorNameOk] using h)

theorem commandName_spec (command : SourceCommand) :
    command.name.all plain = true ∧ command.name.length ≤ 9 := by
  cases command <;> exact ⟨by decide +kernel, by decide⟩

/-- The data is an object that the reader keeps, and the buffer of the formatter holds it. -/
structure Payload.Named (p : Payload) (data : List (Text × Value)) : Prop where
  format : ∀ buf h, p.format buf h = formatLine buf h p.kind (Json.dumps (.obj data))
  kept : Json.KeptMembers rejectDuplicateKeys data
  nodup : (keys data).Nodup
  check : checkByKind p.kind data = .ok ()

theorem formatWithData_some {buf kind data : Text} {h : Header} {size : ℕ}
    (hsize : data.length < size) :
    formatWithData buf h kind size (some data) = formatLine buf h kind data :=
  if_neg (Nat.not_le.2 hsize)

theorem statusData_spec (command : SourceCommand) (ok : Bool) {errorName : Text}
    (h : recordErrorNameOk errorName = true) :
    statusData ok errorName command.name = Json.dumps (.obj
      [("command".toList, .str command.name), ("ok".toList, .bool ok),
        ("error".toList, .str errorName)]) ∧
    (statusData ok errorName command.name).length < 96 := by
  obtain ⟨herror, herrorLen⟩ := errorName_spec h
  obtain ⟨hname, hnameLen⟩ := commandName_spec command
  have hkeys : Json.quote "command".toList = "\"command\"".toList ∧
      Json.quote "ok".toList = "\"ok\"".toList ∧
      Json.quote "error".toList = "\"error\"".toList := by decide
  obtain ⟨h₁, h₂, h₃⟩ := hkeys
  have hbool : Json.dumps (.bool ok) = if ok then "true".toList else "false".toList := by
    cases ok <;> rfl
  constructor
  · unfold statusData
    simp only [Json.dumps_obj (_ :: _), Json.dumpMembers_cons, Json.dumpMembers_singleton,
      Json.dumps_str, hbool, Json.quote_plain herror, Json.quote_plain hname, h₁, h₂, h₃]
    simp only [String.reduceToList, List.append_assoc, List.cons_append, List.nil_append]
  · have hlen : (if ok then "true".toList else "false".toList).length ≤ 5 := by
      cases ok <;> decide
    unfold statusData
    simp only [List.length_append]
    have hfixed : ∀ n m b : ℕ, n ≤ 9 → m ≤ 15 → b ≤ 5 → 12 + n + 7 + b + 10 + m + 2 < 96 := by
      intro n m b hn hm hb
      omega
    exact hfixed _ _ _ hnameLen herrorLen hlen

theorem Payload.named {p : Payload} {data : List (Text × Value)} (h : p.data = some data) :
    p.Named data := by
  cases p with
  | ackStart =>
    cases h
    exact ⟨fun _ _ => rfl, ⟨trivial, trivial, trivial⟩, by decide, rfl⟩
  | state s =>
    cases s with
    | none => cases h
    | some s =>
      cases h
      cases s <;> exact ⟨fun _ _ => rfl, ⟨trivial, trivial⟩, by decide, rfl⟩
  | terminal v =>
    match v with
    | none => cases h
    | some .none => cases h
    | some .pass =>
      cases h
      exact ⟨fun _ _ => rfl, ⟨trivial, trivial⟩, by decide, rfl⟩
    | some .fail =>
      cases h
      exact ⟨fun _ _ => rfl, ⟨trivial, trivial⟩, by decide, rfl⟩
  | abortTeardown c =>
    cases c with
    | none => cases h
    | some c =>
      cases h
      cases c <;> exact ⟨fun _ _ => rfl, ⟨trivial, trivial, trivial⟩, by decide, rfl⟩
  | status command ok errorName =>
    simp only [Payload.data] at h
    split_ifs at h with herror
    cases command with
    | none => cases h
    | some command =>
      cases h
      obtain ⟨htext, hlen⟩ := statusData_spec command ok herror
      have hnodup : ["command".toList, "ok".toList, "error".toList].Nodup := by decide
      refine ⟨fun buf h => ?_, ⟨trivial, trivial, trivial, trivial⟩, hnodup, rfl⟩
      rw [← htext]
      simp only [Payload.format, formatStatus, herror, if_true, Option.map_some]
      exact formatWithData_some hlen

theorem Payload.unnamed {p : Payload} (h : p.data = none) (buf : Text) (hd : Header) :
    p.format buf hd = (clear buf, .error .einval) := by
  cases p with
  | ackStart => cases h
  | state s =>
    cases s with
    | none => rfl
    | some s => cases h
  | terminal v =>
    match v with
    | none => rfl
    | some .none => rfl
    | some .pass => cases h
    | some .fail => cases h
  | abortTeardown c =>
    cases c with
    | none => rfl
    | some c => cases h
  | status command ok errorName =>
    simp only [Payload.data] at h
    simp only [Payload.format, formatStatus]
    split_ifs at h ⊢ with herror
    · cases command with
      | none => rfl
      | some command => cases h
    · rfl

/-! ### The host reads it back -/

theorem Payload.kind_ok (p : Payload) : recordKindOk p.kind = true := by
  cases p <;> rfl

variable {data : List (Text × Value)}

theorem HilRecord.kept {r : HilRecord} (hdata : r.data = data)
    (hkept : Json.KeptMembers rejectDuplicateKeys data) (hnodup : (keys data).Nodup) :
    Json.Kept rejectDuplicateKeys (.obj r.members) := by
  have hkeys : (keys r.members).Nodup := by
    show requiredKeys.Nodup
    decide
  refine ⟨rejectDuplicateKeys_of_nodup hkeys, trivial, trivial, trivial, trivial, trivial, trivial,
    trivial, ⟨?_, ?_⟩, trivial⟩
  · rw [hdata]
    exact rejectDuplicateKeys_of_nodup hnodup
  · rw [hdata]
    exact hkept

theorem checkKeys_ok {obj : List (Text × Value)} (h : keys obj = requiredKeys) :
    checkKeys obj = .ok () := by
  unfold checkKeys
  rw [h]
  rfl

theorem nonemptyString_ok {obj : List (Text × Value)} {key s : Text}
    (h : get obj key = some (.str s)) (hs : s ≠ []) : nonemptyString obj key = .ok s := by
  unfold nonemptyString
  rw [h]
  exact if_neg fun hempty => hs (List.isEmpty_iff.1 hempty)

theorem nonnegative_ok {obj : List (Text × Value)} {key : Text} {n : ℕ}
    (h : get obj key = some (.int n)) : nonnegative obj key = .ok (n : ℤ) := by
  unfold nonnegative
  rw [h]
  exact if_neg (Int.not_lt.2 (Int.natCast_nonneg n))

theorem checkKind_ok {obj : List (Text × Value)} {kind : Text}
    (h : get obj "kind".toList = some (.str kind)) (hkind : kinds.contains kind = true) :
    checkKind obj = .ok kind := by
  unfold checkKind
  rw [h]
  exact if_pos hkind

theorem recordOf_members {h : Header} (hok : h.ok = true) {p : Payload} (hdata : p.Named data) :
    recordOf (h.record p.kind data).members = .ok (h.record p.kind data) := by
  simp only [Header.ok, Bool.and_eq_true] at hok
  have hkeys : checkKeys (h.record p.kind data).members = .ok () := checkKeys_ok rfl
  have hversion : checkVersion (h.record p.kind data).members = .ok 1 := rfl
  have hkind : checkKind (h.record p.kind data).members = .ok p.kind :=
    checkKind_ok rfl (kinds_of_ok p.kind_ok).2
  have hfirmware : nonemptyString (h.record p.kind data).members "firmware_id".toList =
      .ok firmwareId.toList := nonemptyString_ok rfl (by decide)
  have hcommand : nonemptyString (h.record p.kind data).members "command_id".toList =
      .ok h.commandId := nonemptyString_ok rfl (recordIdOk_cases hok.1).2
  have hrun : nonemptyString (h.record p.kind data).members "run_id".toList = .ok h.runId :=
    nonemptyString_ok rfl (recordIdOk_cases hok.2).2
  have htime : nonnegative (h.record p.kind data).members "monotonic_ms".toList =
      .ok (h.monotonicMs.toNat : ℤ) := nonnegative_ok rfl
  have hsegment : nonnegative (h.record p.kind data).members "segment".toList =
      .ok (h.segment.toNat : ℤ) := nonnegative_ok rfl
  have hobj : checkData (h.record p.kind data).members = .ok data := rfl
  unfold recordOf
  rw [hkeys, hversion, hkind, hfirmware, hcommand, hrun, htime, hsegment, hobj]
  simp only [bind, Except.bind, pure, Except.pure, hdata.check]
  rfl

/-- The host reads the text of a record. -/
theorem parseHil1Line_text {h : Header} (hok : h.ok = true) {p : Payload} (hdata : p.Named data) :
    parseHil1Line (.str (hil1 ++ (h.record p.kind data).text)) =
      .ok (some (h.record p.kind data)) := by
  have hloads := Json.loads_dumps
    (HilRecord.kept (r := h.record p.kind data) rfl hdata.kept hdata.nodup)
  have hspace : (h.record p.kind data).text.all isSpace = false := by
    simp only [HilRecord.text, Json.dumps_obj, List.all_cons]
    rfl
  have hbody : parseBody (h.record p.kind data).text = .ok (h.record p.kind data) := by
    unfold parseBody
    rw [hspace, HilRecord.text, hloads]
    exact recordOf_members hok hdata
  simp only [parseHil1Line, parseText]
  rw [if_pos (List.isPrefixOf_iff_prefix.2 (List.prefix_append ..)), List.drop_left, hbody]
  rfl

/-! ### The buffer -/

theorem length_clear (buf : Text) : (clear buf).length = buf.length := List.length_set

theorem length_snprintf (buf text : Text) : (snprintf buf text).1.length = buf.length := by
  unfold snprintf
  split_ifs with hempty
  · rfl
  · have hpos : 0 < buf.length := List.length_pos_iff.2 fun h => hempty (by rw [h]; rfl)
    simp only [List.length_append, List.length_take, List.length_singleton, List.length_drop]
    omega

theorem ne_of_printable {c d : Char} (hc : Json.printable c = true)
    (hd : Json.printable d = false) : c ≠ d := by
  rintro rfl
  rw [hd] at hc
  cases hc

theorem recordDataOk_dumps (hkept : Json.KeptMembers rejectDuplicateKeys data) :
    recordDataOk (Json.dumps (.obj data)) = true := by
  have hlast := Json.getLast?_dumpMembers data
  have hprintable := Json.printable_dumpMembers data hkept
  obtain ⟨c, s, hs⟩ := List.exists_cons_of_ne_nil
    (show Json.dumpMembers data ≠ [] from fun h => by rw [h] at hlast; cases hlast)
  have hall : ((Json.dumps (.obj data)).all fun c => c ≠ '\r' && c ≠ '\n' && c ≠ nul) = true := by
    rw [List.all_eq_true]
    intro c hc
    have hp : Json.printable c = true := by
      rw [Json.dumps_obj] at hc
      rcases List.mem_cons.1 hc with rfl | hc
      · decide
      · exact hprintable c hc
    simp only [Bool.and_eq_true, decide_eq_true_eq]
    exact ⟨⟨ne_of_printable hp (by decide), ne_of_printable hp (by decide)⟩,
      ne_of_printable hp (by decide)⟩
  unfold recordDataOk
  rw [hall, Json.dumps_obj, List.getLast?_cons, hlast, hs]
  rfl

theorem formatLine_cases {h : Header} (hok : h.ok = true) {p : Payload} (hdata : p.Named data)
    (buf : Text) :
    (∃ buf', formatLine buf h p.kind (Json.dumps (.obj data)) = (buf', .error .enobufs) ∧
      buf'.length = buf.length ∧ cString buf' = [] ∧
      buf.length ≤ (h.record p.kind data).text.length) ∨
    ∃ buf', formatLine buf h p.kind (Json.dumps (.obj data)) =
        (buf', .ok (h.record p.kind data).text.length) ∧
      buf'.length = buf.length ∧ cString buf' = (h.record p.kind data).text ∧
      (h.record p.kind data).text.length < buf.length := by
  have hkept := HilRecord.kept (r := h.record p.kind data) rfl hdata.kept hdata.nodup
  have htext := lineText_eq_dumps hok p.kind_ok data
  have hids := hok
  simp only [Header.ok, Bool.and_eq_true] at hids
  have hlen := length_snprintf (clear buf) (h.record p.kind data).text
  rw [length_clear] at hlen
  have hsnd : (snprintf (clear buf) (h.record p.kind data).text).2 =
      (h.record p.kind data).text.length := by
    unfold snprintf
    split_ifs <;> rfl
  unfold formatLine
  rw [p.kind_ok, hids.1, hids.2, recordDataOk_dumps hdata.kept, htext]
  simp only [Bool.not_true, Bool.or_self, Bool.false_eq_true, if_false, hsnd]
  by_cases hfit : (h.record p.kind data).text.length ≥ buf.length
  · rw [if_pos hfit]
    exact .inl ⟨_, rfl, by rw [length_clear, hlen], cString_clear _, hfit⟩
  · rw [if_neg hfit]
    refine .inr ⟨_, rfl, hlen, ?_, Nat.not_le.1 hfit⟩
    refine cString_snprintf (by rw [length_clear]; exact Nat.not_le.1 hfit) fun c hc => ?_
    exact ne_of_printable (Json.printable_dumps _ hkept c hc) (by decide)

/-- **A formatter fails and leaves the empty string, or it leaves a text that the host reads as the
record, and returns its length.**  It fails only if an argument has no name or an identifier is not
safe, or if the text does not fit. -/
theorem record_round_trip (p : Payload) (buf : Text) (h : Header) :
    ∃ buf' r, p.format buf h = (buf', r) ∧ buf'.length = buf.length ∧
      match r with
      | .error .einval => cString buf' = [] ∧ (p.data = none ∨ h.ok = false)
      | .error .enobufs => cString buf' = [] ∧ ∃ data, p.data = some data ∧
          buf.length ≤ (h.record p.kind data).text.length
      | .ok n => n = (cString buf').length ∧ ∃ data, p.data = some data ∧
          cString buf' = (h.record p.kind data).text ∧
          parseHil1Line (.str (hil1 ++ cString buf')) = .ok (some (h.record p.kind data)) ∧
          parseHil1Line (.bytes (String.ofList (hil1 ++ cString buf')).toUTF8) =
            .ok (some (h.record p.kind data)) := by
  cases hdata : p.data with
  | none =>
    exact ⟨_, _, Payload.unnamed hdata buf h, length_clear buf, cString_clear buf, .inl rfl⟩
  | some data =>
    have hnamed := Payload.named hdata
    rw [hnamed.format]
    cases hok : h.ok with
    | false =>
      have hids : (!recordIdOk h.commandId maxCommandIdLen || !recordIdOk h.runId maxRunIdLen) =
          true := by
        rwa [← Bool.not_and, Bool.not_eq_true']
      unfold formatLine
      rw [p.kind_ok, hids]
      exact ⟨_, _, rfl, length_clear buf, cString_clear buf, .inr rfl⟩
    | true =>
      rcases formatLine_cases hok hnamed buf with ⟨buf', hf, hlen, hempty, hcap⟩ |
        ⟨buf', hf, hlen, htext, -⟩
      · exact ⟨buf', _, hf, hlen, hempty, data, rfl, hcap⟩
      · have hparse := parseHil1Line_text hok hnamed
        refine ⟨buf', _, hf, hlen, by rw [htext], data, rfl, htext, ?_, ?_⟩
        · rw [htext]
          exact hparse
        · rw [htext, parseHil1Line_bytes]
          exact hparse

end Hil

end LeAudioReceiver
