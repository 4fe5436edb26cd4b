import LeAudioReceiver.Hil.CommandLine
import LeAudioReceiver.Hil.Protocol
import Mathlib.Data.List.DropRight

/-!
# The grammar of the command lines

What a command line is, without a word about how it is parsed: one object in JSON, with whitespace
around every token, whose members are named strings and unsigned integers, and the members that each
command has.

A string is written with the simple escapes of JSON or without; its `\u` escapes and its raw control
characters are no part of the grammar.
-/

namespace LeAudioReceiver

namespace Hil

open Json (Text)

/-! ### Tokens -/

/-- Whitespace. -/
def IsWs (w : Text) : Prop := ∀ c ∈ w, Json.isWs c = true

/-- The simple escapes of a string and what they stand for. -/
def simpleEscapes : List (Char × Char) :=
  [('\"', '\"'), ('\\', '\\'), ('/', '/'), ('b', '\x08'), ('f', '\x0c'), ('n', '\n'), ('r', '\r'),
    ('t', '\t')]

/-- What stands between the quotes of a string, and the text it stands for. -/
inductive StringBody : Text → Text → Prop
  | nil : StringBody [] []
  | plain {c : Char} {raw s : Text} (hlow : 0x20 ≤ c.toNat) (hquote : c ≠ '\"') (hslash : c ≠ '\\')
      (h : StringBody raw s) : StringBody (c :: raw) (c :: s)
  | escape {e c : Char} {raw s : Text} (he : (e, c) ∈ simpleEscapes) (h : StringBody raw s) :
      StringBody ('\\' :: e :: raw) (c :: s)

/-- A string in its quotes, and the text it stands for. -/
def IsString (t s : Text) : Prop := ∃ raw, StringBody raw s ∧ t = '\"' :: (raw ++ ['\"'])

/-- A string, or an unsigned integer in decimal without a leading zero. -/
inductive IsValue : Text → HilValue → Prop
  | string {t s : Text} (h : IsString t s) : IsValue t (.string s)
  | uint (n : ℕ) : IsValue (Nat.toDigits 10 n) (.uint n)

/-! ### Lines -/

/-- A key, a colon and a value. -/
def IsMember (t : Text) (m : Text × HilValue) : Prop :=
  ∃ key w w' value, IsString key m.1 ∧ IsWs w ∧ IsWs w' ∧ IsValue value m.2 ∧
    t = key ++ (w ++ ':' :: (w' ++ value))

/-- The members of an object, with commas between them and whitespace after each. -/
inductive IsMembers : Text → List (Text × HilValue) → Prop
  | last {t w : Text} {m : Text × HilValue} (hm : IsMember t m) (hw : IsWs w) :
      IsMembers (t ++ w) [m]
  | next {t w w' ts : Text} {m : Text × HilValue} {ms : List (Text × HilValue)} (hm : IsMember t m)
      (hw : IsWs w) (hw' : IsWs w') (h : IsMembers ts ms) :
      IsMembers (t ++ (w ++ ',' :: (w' ++ ts))) (m :: ms)

/-- An object and its members. -/
inductive IsObject : Text → List (Text × HilValue) → Prop
  | empty {w : Text} (hw : IsWs w) : IsObject ('\x7b' :: (w ++ ['\x7d'])) []
  | members {w t : Text} {ms : List (Text × HilValue)} (hw : IsWs w) (h : IsMembers t ms) :
      IsObject ('\x7b' :: (w ++ (t ++ ['\x7d']))) ms

/-- One object with whitespace around it. -/
def IsLine (buf : Text) (ms : List (Text × HilValue)) : Prop :=
  ∃ w t w', IsWs w ∧ IsObject t ms ∧ IsWs w' ∧ buf = w ++ (t ++ w')

/-! ### Commands -/

namespace CommandIn

/-- The value of a key. -/
def value (cmd : CommandIn) : Key → HilValue
  | .protocolVersion => .uint protocolVersion
  | .command => .string cmd.command.name
  | .commandId => .string cmd.commandId
  | .runId => .string cmd.runId
  | .peerAddress => .string (peerAddressText cmd.peerAddress)
  | .peerAddressType => .string cmd.peerAddressType.name
  | .mode => .string cmd.mode.name
  | .profile => .string cmd.profile.name
  | .scoredSduCount => .uint cmd.scoredSduCount.toNat
  | .signalSeed => .uint cmd.signalSeed.toNat
  | .reconnectPolicy => .string cmd.reconnectPolicy.name

/-- The members of a command: every key of its set with its value. -/
def members (cmd : CommandIn) : List (Text × HilValue) :=
  (Key.all.filter (Key.allowed cmd.command)).map fun k => (k.name, cmd.value k)

/-- A command within its limits, with zero in the fields that are not its own. -/
structure Canonical (cmd : CommandIn) : Prop where
  commandId : safeIdCharsOk cmd.commandId = true ∧ cmd.commandId.length ≤ maxCommandIdLen
  runId : safeIdCharsOk cmd.runId = true ∧ cmd.runId.length ≤ maxRunIdLen
  count : cmd.command = .configure →
    1 ≤ cmd.scoredSduCount.toNat ∧ cmd.scoredSduCount.toNat ≤ maxScoredSdus.toNat
  seed : cmd.command = .configure → 1 ≤ cmd.signalSeed.toNat
  peer : cmd.command ≠ .unpair → cmd.command ≠ .configure →
    cmd.peerAddress = (fun _ => 0) ∧ cmd.peerAddressType = .pub
  config : cmd.command ≠ .configure →
    cmd.mode = .mono ∧ cmd.profile = .p48_3_1 ∧ cmd.scoredSduCount = 0 ∧ cmd.signalSeed = 0 ∧
      cmd.reconnectPolicy = .none

end CommandIn

/-- The text of a command: a line with the members of the command, each once and in any order. -/
def IsCommand (buf : Text) (cmd : CommandIn) : Prop :=
  cmd.Canonical ∧ ∃ ms, IsLine buf ms ∧ ms.Perm cmd.members

/-! ### Whitespace -/

theorem isWs_nil : IsWs [] := fun _ h => absurd h List.not_mem_nil

/-- Whitespace before something else is skipped to the last character. -/
theorem skipWs_append {w s : Text} (hw : IsWs w) (hs : Json.skipWs s = s) :
    Json.skipWs (w ++ s) = s := by
  rw [Json.skipWs, List.dropWhile_append_of_pos hw]
  exact hs

theorem skipWs_ws {w : Text} (hw : IsWs w) : Json.skipWs w = [] := by
  rw [Json.skipWs, List.dropWhile_eq_nil_iff]
  exact hw

theorem skipWs_split (s : Text) : ∃ w, IsWs w ∧ s = w ++ Json.skipWs s :=
  ⟨s.takeWhile Json.isWs, List.all_eq_true.1 List.all_takeWhile,
    (List.takeWhile_append_dropWhile (p := Json.isWs)).symm⟩

theorem skipWs_skipWs (s : Text) : Json.skipWs (Json.skipWs s) = Json.skipWs s :=
  List.dropWhile_idempotent ..

end Hil

end LeAudioReceiver
