import LeAudioReceiver.Hil.Names
import Mathlib

/-!
# Reading the records of the HIL source

A model of `parse_hil1_line` in `src/scripts/hil/protocol.py`: a line of the source is not a record,
or it is a record whose every key and value is checked, or it is refused.  `json.loads` is the
reader of JSON texts with the hook that refuses a repeated key.

The messages of the errors are left out beside what they name.
-/

namespace LeAudioReceiver

namespace Hil

open Json (Text Value)

/-- `HilProtocolError`, by what it says. -/
inductive ProtocolError where
  | notUtf8
  | emptyObject
  | duplicateKey (key : Text)
  | invalidJson
  | notAnObject
  | unknownKey (key : Text)
  | missingKey (key : Text)
  | protocolVersion
  | unknownKind (kind : Value)
  /-- The value of the key must be a nonempty string. -/
  | notAString (key : Text)
  /-- The value of the key must be a nonnegative integer. -/
  | negative (key : Text)
  | dataNotAnObject
  | abortState
  | abortCause
  | stateKeys
  | unknownState (state : Option Value)
  | verdict

/-- `HilRecord`. -/
structure HilRecord where
  protocolVersion : ℤ
  kind : Text
  firmwareId : Text
  monotonicMs : ℤ
  commandId : Text
  runId : Text
  segment : ℤ
  data : List (Text × Value)

/-- A line as it comes from the console. -/
inductive Line where
  | str (s : Text)
  | bytes (b : ByteArray)

/-! ### Constants -/

/-- `KINDS`. -/
def kinds : List Text := ["ack".toList, "state".toList, "terminal".toList, "status".toList]

/-- `STATES`. -/
def states : List Text :=
  ["idle".toList, "configured".toList, "connecting".toList, "secured".toList, "discovered".toList,
    "qos".toList, "streaming".toList, "scored_complete".toList, "teardown".toList]

/-- `TERMINAL_VERDICTS`. -/
def terminalVerdicts : List Text := ["pass".toList, "fail".toList]

/-- `ABORT_CAUSES`. -/
def abortCauses : List Text := ["stop".toList, "timeout".toList, "error".toList]

/-- `REQUIRED_KEYS`. -/
def requiredKeys : List Text :=
  ["protocol_version".toList, "kind".toList, "firmware_id".toList, "monotonic_ms".toList,
    "command_id".toList, "run_id".toList, "segment".toList, "data".toList]

/-! ### Objects -/

/-- The keys of a dict. -/
def keys (obj : List (Text × Value)) : List Text := obj.map Prod.fst

/-- `obj.get(key)`. -/
def get (obj : List (Text × Value)) (key : Text) : Option Value := obj.lookup key

/-- `set(obj.keys()) == set`. -/
def keysAre (obj : List (Text × Value)) (set : List Text) : Bool :=
  (keys obj).all set.contains && set.all (keys obj).contains

/-- The loop of `_reject_duplicate_keys`. -/
def rejectFrom (out : List (Text × Value)) : List (Text × Value) → Except Text Value
  | [] => .ok (.obj out)
  | (key, value) :: pairs =>
    if (keys out).contains key then .error key else rejectFrom (out ++ [(key, value)]) pairs

/-- `_reject_duplicate_keys`. -/
def rejectDuplicateKeys (pairs : List (Text × Value)) : Except Text Value := rejectFrom [] pairs

/-- The value is one of the strings. -/
def isOneOf (v : Option Value) (names : List Text) : Bool :=
  match v with
  | some (.str s) => names.contains s
  | _ => false

/-! ### The checks of a record -/

/-- A value that must be a nonempty string. -/
def nonemptyString (obj : List (Text × Value)) (key : Text) : Except ProtocolError Text :=
  match get obj key with
  | some (.str s) => if s.isEmpty then .error (.notAString key) else .ok s
  | _ => .error (.notAString key)

/-- A value that must be a nonnegative integer. -/
def nonnegative (obj : List (Text × Value)) (key : Text) : Except ProtocolError ℤ :=
  match get obj key with
  | some (.int n) => if n < 0 then .error (.negative key) else .ok n
  | _ => .error (.negative key)

/-- The first key that is not expected, then the first that is not there. -/
def checkKeys (obj : List (Text × Value)) : Except ProtocolError Unit :=
  match (keys obj).find? fun key => !requiredKeys.contains key with
  | some key => .error (.unknownKey key)
  | none =>
    match requiredKeys.find? fun key => !(keys obj).contains key with
    | some key => .error (.missingKey key)
    | none => .ok ()

/-- The protocol version must be the one of the host. -/
def checkVersion (obj : List (Text × Value)) : Except ProtocolError ℤ :=
  match get obj "protocol_version".toList with
  | some (.int n) => if n = 1 then .ok n else .error .protocolVersion
  | _ => .error .protocolVersion

/-- The kind must be known. -/
def checkKind (obj : List (Text × Value)) : Except ProtocolError Text :=
  match get obj "kind".toList with
  | some (.str s) => if kinds.contains s then .ok s else .error (.unknownKind (.str s))
  | some v => .error (.unknownKind v)
  | none => .error (.missingKey "kind".toList)

/-- The data must be an object. -/
def checkData (obj : List (Text × Value)) : Except ProtocolError (List (Text × Value)) :=
  match get obj "data".toList with
  | some (.obj data) => .ok data
  | _ => .error .dataNotAnObject

/-- The data of a state record: an abort by its keys, or a state. -/
def checkState (data : List (Text × Value)) : Except ProtocolError Unit :=
  if keysAre data ["state".toList, "cause".toList] then
    if !isOneOf (get data "state".toList) ["teardown".toList] then .error .abortState
    else if !isOneOf (get data "cause".toList) abortCauses then .error .abortCause
    else .ok ()
  else if !keysAre data ["state".toList] then .error .stateKeys
  else if !isOneOf (get data "state".toList) states then
    .error (.unknownState (get data "state".toList))
  else .ok ()

/-- The data of a terminal record. -/
def checkTerminal (data : List (Text × Value)) : Except ProtocolError Unit :=
  if isOneOf (get data "verdict".toList) terminalVerdicts then .ok () else .error .verdict

/-- The checks of the data by the kind of the record. -/
def checkByKind (kind : Text) (data : List (Text × Value)) : Except ProtocolError Unit := do
  if kind = "state".toList then checkState data
  if kind = "terminal".toList then checkTerminal data

/-- The record of an object. -/
def recordOf (obj : List (Text × Value)) : Except ProtocolError HilRecord := do
  checkKeys obj
  let protocolVersion ← checkVersion obj
  let kind ← checkKind obj
  let firmwareId ← nonemptyString obj "firmware_id".toList
  let commandId ← nonemptyString obj "command_id".toList
  let runId ← nonemptyString obj "run_id".toList
  let monotonicMs ← nonnegative obj "monotonic_ms".toList
  let segment ← nonnegative obj "segment".toList
  let data ← checkData obj
  checkByKind kind data
  return { protocolVersion, kind, firmwareId, monotonicMs, commandId, runId, segment, data }

/-! ### Lines -/

/-- The prefix of a record. -/
def hil1 : Text := "HIL1 ".toList

/-- `str.isspace` of a character. -/
def isSpace (c : Char) : Bool :=
  [0x1680, 0x2028, 0x2029, 0x202f, 0x205f, 0x3000, 0x20, 0x85, 0xa0].contains c.toNat ||
    (0x09 ≤ c.toNat && c.toNat ≤ 0x0d) || (0x1c ≤ c.toNat && c.toNat ≤ 0x1f) ||
    (0x2000 ≤ c.toNat && c.toNat ≤ 0x200a)

/-- The record of a line after its prefix. -/
def parseBody (body : Text) : Except ProtocolError HilRecord :=
  if body.all isSpace then .error .emptyObject
  else
    match Json.loads rejectDuplicateKeys body with
    | .error (.hook key) => .error (.duplicateKey key)
    | .error .decode => .error .invalidJson
    | .ok (.obj obj) => recordOf obj
    | .ok _ => .error .notAnObject

/-- A line of text. -/
def parseText (line : Text) : Except ProtocolError (Option HilRecord) :=
  if hil1.isPrefixOf line then (parseBody (line.drop hil1.length)).map some else .ok none

/-- `parse_hil1_line`: `none` is a line without the prefix. -/
def parseHil1Line : Line → Except ProtocolError (Option HilRecord)
  | .str line => parseText line
  | .bytes line =>
    if line.extract 0 hil1.length = (String.ofList hil1).toUTF8 then
      match String.fromUTF8? line with
      | none => .error .notUtf8
      | some line => parseText line.toList
    else .ok none

/-! ### Bytes -/

theorem fromUTF8?_toUTF8 (s : String) : String.fromUTF8? s.toUTF8 = some s := by
  rw [String.toUTF8_eq_toByteArray, String.fromUTF8?, dif_pos s.isValidUTF8]
  rfl

theorem parseHil1Line_bytes (body : Text) :
    parseHil1Line (.bytes (String.ofList (hil1 ++ body)).toUTF8) =
      parseHil1Line (.str (hil1 ++ body)) := by
  have hprefix : (String.ofList (hil1 ++ body)).toUTF8.extract 0 hil1.length =
      (String.ofList hil1).toUTF8 := by
    rw [String.ofList_append, String.toUTF8_eq_toByteArray, String.toByteArray_append,
      ByteArray.extract_append_eq_left (by decide)]
    rfl
  simp only [parseHil1Line, hprefix, if_true, fromUTF8?_toUTF8, String.toList_ofList]

/-! ### Objects without repeated keys -/

theorem rejectFrom_of_nodup {out pairs : List (Text × Value)} (h : (keys (out ++ pairs)).Nodup) :
    rejectFrom out pairs = .ok (.obj (out ++ pairs)) := by
  induction pairs generalizing out with
  | nil => rw [List.append_nil, rejectFrom]
  | cons pair pairs ih =>
    obtain ⟨key, value⟩ := pair
    have hkey : key ∉ keys out := by
      intro hmem
      simp only [keys, List.map_append, List.map_cons] at h hmem
      exact (List.disjoint_of_nodup_append h) hmem List.mem_cons_self
    have hnext := @ih (out ++ [(key, value)]) (by simpa using h)
    simpa [rejectFrom, hkey] using hnext

theorem rejectDuplicateKeys_of_nodup {pairs : List (Text × Value)} (h : (keys pairs).Nodup) :
    rejectDuplicateKeys pairs = .ok (.obj pairs) :=
  rejectFrom_of_nodup h

end Hil

end LeAudioReceiver
