import LeAudioReceiver.Hil.Names
import Mathlib.Data.Fin.VecNotation

/-!
# The command parser of the HIL source

A model of `src/hil/source/core/hil_source_protocol.c`: the lexer, the validation of nested values,
the scan of the object and the checks of the selected command.  A function that moves the position
of the context takes the rest of the input and returns what is left of it.

The input is a span of bytes, given by their characters.  The nested validation and the scan loop
take fuel; every call and every turn takes a character off.  The checks for null pointers are left
out.
-/

namespace LeAudioReceiver

namespace Hil

open Json (Text skipWs)

/-- `enum hil_source_parse_result` without `HIL_SOURCE_PARSE_OK`. -/
inductive ParseError where
  | tooLong
  | syntaxError
  | unknownKey
  | duplicateKey
  | missingKey
  | wrongType
  | range
  | unsupportedValue
  deriving DecidableEq, Repr

/-- `struct hil_source_command_in`. -/
structure CommandIn where
  command : SourceCommand
  commandId : Text
  runId : Text
  peerAddress : Fin 6 → UInt8
  peerAddressType : AddressType
  mode : Mode
  profile : Profile
  scoredSduCount : UInt32
  signalSeed : UInt32
  reconnectPolicy : ReconnectPolicy

/-! ### Keys and values -/

/-- `enum hil_source_key_id`. -/
inductive Key where
  | protocolVersion
  | command
  | commandId
  | runId
  | peerAddress
  | peerAddressType
  | mode
  | profile
  | scoredSduCount
  | signalSeed
  | reconnectPolicy
  deriving DecidableEq, Repr

/-- `hil_key_names`. -/
def Key.name : Key → Text
  | protocolVersion => "protocol_version".toList
  | command => "command".toList
  | commandId => "command_id".toList
  | runId => "run_id".toList
  | peerAddress => "peer_address".toList
  | peerAddressType => "peer_address_type".toList
  | mode => "mode".toList
  | profile => "profile".toList
  | scoredSduCount => "scored_sdu_count".toList
  | signalSeed => "signal_seed".toList
  | reconnectPolicy => "reconnect_policy".toList

/-- The keys in the order of their table. -/
def Key.all : List Key :=
  [protocolVersion, command, commandId, runId, peerAddress, peerAddressType, mode, profile,
    scoredSduCount, signalSeed, reconnectPolicy]

/-- The search of the key table. -/
def Key.ofName (name : Text) : Option Key := Key.all.find? fun k => name = k.name

/-- The key set of a command: `KEY_COMMON_MASK`, `KEY_UNPAIR_MASK`, `KEY_CONFIGURE_MASK`. -/
def Key.allowed (command : SourceCommand) : Key → Bool
  | protocolVersion | .command | commandId | runId => true
  | peerAddress | peerAddressType => command = .unpair || command = .configure
  | mode | profile | scoredSduCount | signalSeed | reconnectPolicy => command = .configure

/-- A value that was lexed, by its kind. -/
inductive HilValue where
  | string (s : Text)
  | uint (n : ℕ)
  | object
  | array
  | bool
  | null
  deriving DecidableEq, Repr

/-- `HIL_SOURCE_STRING_BUFFER`. -/
def stringBuffer : ℕ := 66

/-- `HIL_SOURCE_KEY_BUFFER`. -/
def keyBuffer : ℕ := 18

/-- `HIL_JSON_MAX_DEPTH`. -/
def jsonMaxDepth : ℕ := 32

/-! ### The lexer -/

/-- The escapes of the lexer; `u` is none of them. -/
def lexEscape : Char → Option Char
  | '\"' => some '\"'
  | '\\' => some '\\'
  | '/' => some '/'
  | 'b' => some '\x08'
  | 'f' => some '\x0c'
  | 'n' => some '\n'
  | 'r' => some '\r'
  | 't' => some '\t'
  | _ => none

/-- What a string leaves: the decoded text in the buffer, whether it was too long, and the rest. -/
structure Lexed where
  out : Text
  tooLong : Bool
  rest : Text

/-- The loop of `hil_lex_string_bounded`. -/
def lexChars (cap : ℕ) : Text → Text → Bool → Except ParseError Lexed
  | [], _, _ => .error .syntaxError
  | c :: s, out, tooLong =>
    if c.toNat < 0x20 then .error .syntaxError
    else if c = '\"' then .ok ⟨out, tooLong, s⟩
    else if c = '\\' then
      match s with
      | [] => .error .syntaxError
      | e :: s =>
        match lexEscape e with
        | none => .error .syntaxError
        | some c =>
          if out.length + 1 ≥ cap then lexChars cap s out true
          else lexChars cap s (out ++ [c]) tooLong
    else if out.length + 1 ≥ cap then lexChars cap s out true
    else lexChars cap s (out ++ [c]) tooLong

/-- `hil_lex_string_bounded`. -/
def lexStringBounded (cap : ℕ) : Text → Except ParseError Lexed
  | '\"' :: s => lexChars cap s [] false
  | _ => .error .syntaxError

/-- `hil_lex_string_skip`: the same scan without a buffer. -/
def lexStringSkip (s : Text) : Except ParseError Text := (lexStringBounded 0 s).map Lexed.rest

/-- One digit at least, then all that follow. -/
def lexDigits : Text → Except ParseError Text
  | [] => .error .syntaxError
  | c :: s => if c.isDigit then .ok (s.dropWhile Char.isDigit) else .error .syntaxError

/-- A minus sign that may be there. -/
def lexMinus : Text → Text
  | '-' :: s => s
  | s => s

/-- An exponent's sign that may be there. -/
def lexSign : Text → Text
  | '+' :: s => s
  | '-' :: s => s
  | s => s

/-- The integer of a number. -/
def lexInteger : Text → Except ParseError Text
  | [] => .error .syntaxError
  | c :: s => if c = '0' then .ok s else lexDigits (c :: s)

/-- A fraction that may be there. -/
def lexFraction : Text → Except ParseError Text
  | '.' :: s => lexDigits s
  | s => .ok s

/-- An exponent that may be there. -/
def lexExponent : Text → Except ParseError Text
  | 'e' :: s | 'E' :: s => lexDigits (lexSign s)
  | s => .ok s

/-- `hil_lex_number_skip`. -/
def lexNumberSkip (s : Text) : Except ParseError Text := do
  let s ← lexInteger (lexMinus s)
  let s ← lexFraction s
  lexExponent s

/-- `hil_validate_literal`. -/
def validateLiteral (literal s : Text) : Except ParseError Text :=
  if literal.isPrefixOf s then .ok (s.drop literal.length) else .error .syntaxError

/-! ### Nested values -/

mutual

/-- `hil_validate_value`. -/
def validateValue : ℕ → ℕ → Text → Except ParseError Text
  | 0, _, _ => .error .syntaxError
  | _ + 1, _, [] => .error .syntaxError
  | fuel + 1, depth, c :: s =>
    if depth > jsonMaxDepth then .error .syntaxError
    else if c = '\"' then lexStringSkip (c :: s)
    else if c = '\x7b' then validateObject fuel (depth + 1) s
    else if c = '[' then validateArray fuel (depth + 1) s
    else if c = 't' then validateLiteral "true".toList (c :: s)
    else if c = 'f' then validateLiteral "false".toList (c :: s)
    else if c = 'n' then validateLiteral "null".toList (c :: s)
    else if c = '-' ∨ c.isDigit then lexNumberSkip (c :: s)
    else .error .syntaxError

/-- `hil_validate_object` after its brace. -/
def validateObject : ℕ → ℕ → Text → Except ParseError Text
  | 0, _, _ => .error .syntaxError
  | fuel + 1, depth, s =>
    match skipWs s with
    | [] => .error .syntaxError
    | '\x7d' :: s => .ok s
    | s => validateMembers fuel depth s

/-- The loop of `hil_validate_object`. -/
def validateMembers : ℕ → ℕ → Text → Except ParseError Text
  | 0, _, _ => .error .syntaxError
  | fuel + 1, depth, s => do
    let s ← lexStringSkip s
    match skipWs s with
    | ':' :: s =>
      let s ← validateValue fuel depth (skipWs s)
      match skipWs s with
      | ',' :: s =>
        match skipWs s with
        | [] => .error .syntaxError
        | '\x7d' :: _ => .error .syntaxError
        | s => validateMembers fuel depth s
      | '\x7d' :: s => .ok s
      | _ => .error .syntaxError
    | _ => .error .syntaxError

/-- `hil_validate_array` after its bracket. -/
def validateArray : ℕ → ℕ → Text → Except ParseError Text
  | 0, _, _ => .error .syntaxError
  | fuel + 1, depth, s =>
    match skipWs s with
    | [] => .error .syntaxError
    | ']' :: s => .ok s
    | s => validateItems fuel depth s

/-- The loop of `hil_validate_array`. -/
def validateItems : ℕ → ℕ → Text → Except ParseError Text
  | 0, _, _ => .error .syntaxError
  | fuel + 1, depth, s => do
    let s ← validateValue fuel depth s
    match skipWs s with
    | ',' :: s =>
      match skipWs s with
      | [] => .error .syntaxError
      | ']' :: _ => .error .syntaxError
      | s => validateItems fuel depth s
    | ']' :: s => .ok s
    | _ => .error .syntaxError

end

/-- A nested value with the fuel it needs: three calls for a character at most. -/
def validateNested (s : Text) : Except ParseError Text := validateValue (3 * s.length + 1) 0 s

/-! ### Values of known keys -/

/-- The accumulation of an unsigned integer, in 64 bits. -/
def lexUint : Text → ℕ → Except ParseError (ℕ × Text)
  | [], acc => .ok (acc, [])
  | c :: s, acc =>
    if c.isDigit then
      let digit := c.toNat - '0'.toNat
      if acc > (2 ^ 64 - 1 - digit) / 10 then .error .range else lexUint s (acc * 10 + digit)
    else .ok (acc, c :: s)

/-- What may follow an unsigned integer. -/
def afterUint : Text → Bool
  | [] => true
  | c :: _ => c = ',' || c = '\x7d' || Json.isWs c

/-- A zero before another digit. -/
def leadingZero : Text → Bool
  | '0' :: d :: _ => d.isDigit
  | _ => false

/-- `hil_parse_value`. -/
def parseValue : Text → Except ParseError (HilValue × Text)
  | [] => .error .syntaxError
  | c :: s =>
    if c = '\"' then do
      let lexed ← lexStringBounded stringBuffer (c :: s)
      if lexed.tooLong then .error .range else .ok (.string lexed.out, lexed.rest)
    else if c = '\x7b' then (validateNested (c :: s)).map fun s => (.object, s)
    else if c = '[' then (validateNested (c :: s)).map fun s => (.array, s)
    else if c = 't' then (validateLiteral "true".toList (c :: s)).map fun s => (.bool, s)
    else if c = 'f' then (validateLiteral "false".toList (c :: s)).map fun s => (.bool, s)
    else if c = 'n' then (validateLiteral "null".toList (c :: s)).map fun s => (.null, s)
    else if c.isDigit then
      if leadingZero (c :: s) then .error .syntaxError
      else do
        let (n, s) ← lexUint (c :: s) 0
        if afterUint s then .ok (.uint n, s) else .error .syntaxError
    else .error .syntaxError

/-! ### The scan of the object -/

/-- `struct hil_parse_ctx` beside its position: the values of the known keys that were seen. -/
structure Ctx where
  pending : Key → Option HilValue
  unknownKeySeen : Bool

/-- The context at the start. -/
def Ctx.empty : Ctx := ⟨fun _ => none, false⟩

/-- The value of a key is stored. -/
def Ctx.put (ctx : Ctx) (k : Key) (v : HilValue) : Ctx :=
  { ctx with pending := fun j => if j = k then some v else ctx.pending j }

/-- The value after a key. -/
def scanValue (ctx : Ctx) (key : Option Key) (s : Text) : Except ParseError (Ctx × Text) :=
  match key with
  | none => (validateNested s).map fun s => ({ ctx with unknownKeySeen := true }, s)
  | some k =>
    if (ctx.pending k).isSome then .error .duplicateKey
    else (parseValue s).map fun p => (ctx.put k p.1, p.2)

/-- A key, its colon and its value. -/
def scanMember (ctx : Ctx) (s : Text) : Except ParseError (Ctx × Text) := do
  let lexed ← lexStringBounded keyBuffer s
  let key := if lexed.tooLong then none else Key.ofName lexed.out
  match skipWs lexed.rest with
  | ':' :: s => scanValue ctx key (skipWs s)
  | _ => .error .syntaxError

/-- The scan loop of `hil_source_parse`. -/
def scan : ℕ → Ctx → Text → Except ParseError (Ctx × Text)
  | 0, _, _ => .error .syntaxError
  | fuel + 1, ctx, s =>
    match skipWs s with
    | [] => .error .syntaxError
    | '\x7d' :: s => .ok (ctx, s)
    | s =>
      match scanMember ctx s with
      | .error e => .error e
      | .ok (ctx, s) =>
        match skipWs s with
        | ',' :: s =>
          match skipWs s with
          | [] => .error .syntaxError
          | '\x7d' :: _ => .error .syntaxError
          | s => scan fuel ctx s
        | '\x7d' :: s => .ok (ctx, s)
        | _ => .error .syntaxError

/-! ### The checks of the selected command -/

/-- The value of a string. -/
def HilValue.text : HilValue → Except ParseError Text
  | string s => .ok s
  | _ => .error .wrongType

/-- The value of an integer. -/
def HilValue.number : HilValue → Except ParseError ℕ
  | uint n => .ok n
  | _ => .error .wrongType

/-- A value that was seen; a command with a key that was not is refused before. -/
def Ctx.value (ctx : Ctx) (k : Key) : Except ParseError HilValue :=
  match ctx.pending k with
  | none => .error .missingKey
  | some v => .ok v

/-- The string of a value that was seen. -/
def Ctx.text (ctx : Ctx) (k : Key) : Except ParseError Text := do (← ctx.value k).text

/-- The integer of a value that was seen. -/
def Ctx.number (ctx : Ctx) (k : Key) : Except ParseError ℕ := do (← ctx.value k).number

/-- The value whose name is the text. -/
def named {α : Type} (values : List α) (name : α → Text) (s : Text) : Except ParseError α :=
  match values.find? fun v => s = name v with
  | none => .error .unsupportedValue
  | some v => .ok v

/-- `hil_command_from_string`. -/
def commandFromString (s : Text) : Except ParseError SourceCommand :=
  named [.hello, .idle, .unpair, .configure, .start, .stop, .status] SourceCommand.name s

/-- The keys of the command and no others. -/
def checkKeySet (ctx : Ctx) (command : SourceCommand) : Except ParseError Unit :=
  if ctx.unknownKeySeen then .error .unknownKey
  else if Key.all.any fun k => (ctx.pending k).isSome && !k.allowed command then .error .unknownKey
  else if Key.all.any fun k => (ctx.pending k).isNone && k.allowed command then .error .missingKey
  else .ok ()

/-- The protocol version. -/
def checkProtocol (ctx : Ctx) : Except ParseError Unit := do
  if (← ctx.number .protocolVersion) ≠ protocolVersion then .error .range else .ok ()

/-- The checks of an identifier. -/
def checkId (ctx : Ctx) (k : Key) (maxLen : ℕ) : Except ParseError Text := do
  let s ← ctx.text k
  if s.length = 0 ∨ s.length > maxLen then .error .range
  else if !safeIdCharsOk s then .error .unsupportedValue
  else .ok s

/-- A hexadecimal digit in upper case. -/
def nibble (c : Char) : Option ℕ :=
  if '0' ≤ c ∧ c ≤ '9' then some (c.toNat - '0'.toNat)
  else if 'A' ≤ c ∧ c ≤ 'F' then some (c.toNat - 'A'.toNat + 10)
  else none

/-- One byte of an address, with the colon behind every byte but the last. -/
def peerByte (s : Text) (i : ℕ) : Option UInt8 :=
  match (s[i * 3]?).bind nibble, (s[i * 3 + 1]?).bind nibble with
  | some hi, some lo =>
    if i < 5 ∧ s[i * 3 + 2]? ≠ some ':' then none else some (.ofNat (hi * 16 + lo))
  | _, _ => none

/-- `hil_parse_peer_address`. -/
def parsePeerAddress (s : Text) : Option (Fin 6 → UInt8) :=
  if s.length ≠ 17 then none
  else
    match peerByte s 0, peerByte s 1, peerByte s 2, peerByte s 3, peerByte s 4, peerByte s 5 with
    | some a, some b, some c, some d, some e, some f => some ![a, b, c, d, e, f]
    | _, _, _, _, _, _ => none

/-- The peer of a command that names one. -/
def checkPeer (ctx : Ctx) (candidate : CommandIn) : Except ParseError CommandIn := do
  let address ← ctx.text .peerAddress
  let addressType ← ctx.text .peerAddressType
  match parsePeerAddress address with
  | none => .error .unsupportedValue
  | some peerAddress =>
    let peerAddressType ← named [.pub, .random] AddressType.name addressType
    return { candidate with peerAddress, peerAddressType }

/-- An integer of the configuration. -/
def inRange (n hi : ℕ) : Except ParseError UInt32 :=
  if n < 1 ∨ n > hi then .error .range else .ok (.ofNat n)

/-- The configuration. -/
def checkConfig (ctx : Ctx) (candidate : CommandIn) : Except ParseError CommandIn := do
  let modeName ← ctx.text .mode
  let profileName ← ctx.text .profile
  let count ← ctx.number .scoredSduCount
  let seed ← ctx.number .signalSeed
  let policyName ← ctx.text .reconnectPolicy
  let mode ← named [.mono, .modeA, .modeB] Mode.name modeName
  let profile ← named [.p48_3_1, .p48_4_1] Profile.name profileName
  let scoredSduCount ← inRange count maxScoredSdus.toNat
  let signalSeed ← inRange seed uint32Max.toNat
  let reconnectPolicy ← named [.none, .once] ReconnectPolicy.name policyName
  return { candidate with mode, profile, scoredSduCount, signalSeed, reconnectPolicy }

/-- A candidate with its command and identifiers, and zero elsewhere. -/
def CommandIn.candidate (command : SourceCommand) (commandId runId : Text) : CommandIn :=
  { command, commandId, runId, peerAddress := fun _ => 0, peerAddressType := .pub, mode := .mono
    profile := .p48_3_1, scoredSduCount := 0, signalSeed := 0, reconnectPolicy := .none }

/-- The checks of `hil_source_parse` after the scan. -/
def select (ctx : Ctx) : Except ParseError CommandIn := do
  let command ← commandFromString (← ctx.text .command)
  checkKeySet ctx command
  checkProtocol ctx
  let commandId ← checkId ctx .commandId maxCommandIdLen
  let runId ← checkId ctx .runId maxRunIdLen
  let candidate := CommandIn.candidate command commandId runId
  match command with
  | .unpair => checkPeer ctx candidate
  | .configure => checkConfig ctx (← checkPeer ctx candidate)
  | _ => return candidate

/-- `hil_source_parse`. -/
def parse (buf : Text) : Except ParseError CommandIn :=
  if buf.length > maxCommandLineBytes then .error .tooLong
  else
    match skipWs buf with
    | '\x7b' :: s =>
      match scan s.length Ctx.empty s with
      | .error e => .error e
      | .ok (ctx, rest) => if (skipWs rest).isEmpty then select ctx else .error .syntaxError
    | _ => .error .syntaxError

end Hil

end LeAudioReceiver
