import LeAudioReceiver.Hil.Protocol

/-!
# The command parser with its reads

The functions of `src/hil/source/core/hil_source_protocol.c` once more, with what the model of the
parser leaves out: every function moves a position in a buffer, reads it at that position or not at
all, loops and calls itself.

A run of the parser ends with a result, or with a fault that C would not see: a read at or beyond
the length of the buffer, a loop that goes on after every byte, a call for which the stack has no
room.  The room is counted in calls of `hil_validate_value`.
-/

namespace LeAudioReceiver

namespace Hil

open Json (Text)

/-- What a run of the parser must never do. -/
inductive ParseFault where
  /-- A read at or beyond the length of the buffer. -/
  | outOfBounds
  /-- A loop that has had a turn for every byte and one more. -/
  | endless
  /-- A call of `hil_validate_value` deeper than the stack has room for. -/
  | stackOverflow
  deriving DecidableEq, Repr

/-- What ends a function of the parser before its end. -/
inductive Stop where
  | fail (e : ParseError)
  | fault (f : ParseFault)
  deriving DecidableEq, Repr

namespace Cursor

/-- `hil_fail` and the return of `-1`. -/
def fail {α : Type} (e : ParseError) : Except Stop α := .error (.fail e)

variable (buf : Text)

/-- `ctx->buf[pos]`. -/
def byteAt (pos : ℕ) : Except Stop Char :=
  match buf[pos]? with
  | none => .error (.fault .outOfBounds)
  | some c => .ok c

/-- The bytes that `memcmp` reads. -/
def bytesAt (pos n : ℕ) : Except Stop Text :=
  if pos + n ≤ buf.length then .ok ((buf.drop pos).take n) else .error (.fault .outOfBounds)

/-! ### The lexer -/

/-- `while (ctx->pos < ctx->len && p(ctx->buf[ctx->pos]))`. -/
def skipWhile (p : Char → Bool) : ℕ → ℕ → Except Stop ℕ
  | 0, _ => .error (.fault .endless)
  | fuel + 1, pos =>
    if pos < buf.length then do
      if p (← byteAt buf pos) then skipWhile p fuel (pos + 1) else .ok pos
    else .ok pos

/-- `hil_skip_ws`. -/
def skipWs (pos : ℕ) : Except Stop ℕ := skipWhile buf Json.isWs (buf.length + 1) pos

/-- The digits of a number. -/
def skipDigits (pos : ℕ) : Except Stop ℕ := skipWhile buf Char.isDigit (buf.length + 1) pos

/-- The loop of `hil_lex_string_bounded`. -/
def lexChars (cap : ℕ) : ℕ → ℕ → Text → Bool → Except Stop ((Text × Bool) × ℕ)
  | 0, _, _, _ => .error (.fault .endless)
  | fuel + 1, pos, out, tooLong =>
    if pos < buf.length then do
      let c ← byteAt buf pos
      if c.toNat < 0x20 then fail .syntaxError
      else if c = '\"' then .ok ((out, tooLong), pos + 1)
      else if c = '\\' then
        if buf.length ≤ pos + 1 then fail .syntaxError
        else do
          match lexEscape (← byteAt buf (pos + 1)) with
          | none => fail .syntaxError
          | some c =>
            if out.length + 1 ≥ cap then lexChars cap fuel (pos + 2) out true
            else lexChars cap fuel (pos + 2) (out ++ [c]) tooLong
      else if out.length + 1 ≥ cap then lexChars cap fuel (pos + 1) out true
      else lexChars cap fuel (pos + 1) (out ++ [c]) tooLong
    else fail .syntaxError

/-- `hil_lex_string_bounded`: the text, whether it was too long, and the position. -/
def lexStringBounded (cap pos : ℕ) : Except Stop ((Text × Bool) × ℕ) :=
  if buf.length ≤ pos then fail .syntaxError
  else do
    if (← byteAt buf pos) ≠ '\"' then fail .syntaxError
    else lexChars buf cap (buf.length + 1) (pos + 1) [] false

/-- The loop of `hil_lex_string_skip`. -/
def skipChars : ℕ → ℕ → Except Stop ℕ
  | 0, _ => .error (.fault .endless)
  | fuel + 1, pos =>
    if pos < buf.length then do
      let c ← byteAt buf pos
      if c.toNat < 0x20 then fail .syntaxError
      else if c = '\"' then .ok (pos + 1)
      else if c = '\\' then
        if buf.length ≤ pos + 1 then fail .syntaxError
        else do
          match lexEscape (← byteAt buf (pos + 1)) with
          | none => fail .syntaxError
          | some _ => skipChars fuel (pos + 2)
      else skipChars fuel (pos + 1)
    else fail .syntaxError

/-- `hil_lex_string_skip`. -/
def lexStringSkip (pos : ℕ) : Except Stop ℕ :=
  if buf.length ≤ pos then fail .syntaxError
  else do
    if (← byteAt buf pos) ≠ '\"' then fail .syntaxError
    else skipChars buf (buf.length + 1) (pos + 1)

/-- One digit at least, then all that follow. -/
def lexDigits (pos : ℕ) : Except Stop ℕ :=
  if buf.length ≤ pos then fail .syntaxError
  else do
    if !(← byteAt buf pos).isDigit then fail .syntaxError
    else skipDigits buf pos

/-- A character that may be there. -/
def lexOptional (p : Char → Bool) (pos : ℕ) : Except Stop ℕ :=
  if pos < buf.length then do
    if p (← byteAt buf pos) then .ok (pos + 1) else .ok pos
  else .ok pos

/-- The integer of a number. -/
def lexInteger (pos : ℕ) : Except Stop ℕ :=
  if buf.length ≤ pos then fail .syntaxError
  else do
    let c ← byteAt buf pos
    if c = '0' then .ok (pos + 1)
    else if '1' ≤ c ∧ c ≤ '9' then skipDigits buf pos
    else fail .syntaxError

/-- A fraction that may be there. -/
def lexFraction (pos : ℕ) : Except Stop ℕ :=
  if pos < buf.length then do
    if (← byteAt buf pos) = '.' then lexDigits buf (pos + 1) else .ok pos
  else .ok pos

/-- An exponent that may be there. -/
def lexExponent (pos : ℕ) : Except Stop ℕ :=
  if pos < buf.length then do
    let c ← byteAt buf pos
    if c = 'e' ∨ c = 'E' then do
      let pos ← lexOptional buf (fun c => c = '+' || c = '-') (pos + 1)
      lexDigits buf pos
    else .ok pos
  else .ok pos

/-- `hil_lex_number_skip`. -/
def lexNumberSkip (pos : ℕ) : Except Stop ℕ := do
  let pos ← lexOptional buf (fun c => c = '-') pos
  let pos ← lexInteger buf pos
  let pos ← lexFraction buf pos
  lexExponent buf pos

/-- `hil_validate_literal`. -/
def validateLiteral (literal : Text) (pos : ℕ) : Except Stop ℕ :=
  if buf.length < pos + literal.length then fail .syntaxError
  else do
    if (← bytesAt buf pos literal.length) ≠ literal then fail .syntaxError
    else .ok (pos + literal.length)

/-! ### Nested values -/

section

-- `hil_validate_value` at the depth of the members or the items
variable (value : ℕ → Except Stop ℕ)

/-- The loop of `hil_validate_object`. -/
def validateMembers : ℕ → ℕ → Except Stop ℕ
  | 0, _ => .error (.fault .endless)
  | fuel + 1, pos =>
    if buf.length ≤ pos then fail .syntaxError
    else do
      let pos ← lexStringSkip buf pos
      let pos ← skipWs buf pos
      if buf.length ≤ pos then fail .syntaxError
      else do
        if (← byteAt buf pos) ≠ ':' then fail .syntaxError
        else do
          let pos ← skipWs buf (pos + 1)
          let pos ← value pos
          let pos ← skipWs buf pos
          if buf.length ≤ pos then fail .syntaxError
          else do
            let c ← byteAt buf pos
            if c = ',' then do
              let pos ← skipWs buf (pos + 1)
              if buf.length ≤ pos then fail .syntaxError
              else do
                if (← byteAt buf pos) = '\x7d' then fail .syntaxError
                else validateMembers fuel pos
            else if c = '\x7d' then .ok (pos + 1)
            else fail .syntaxError

/-- `hil_validate_object`. -/
def validateObject (pos : ℕ) : Except Stop ℕ := do
  let pos ← skipWs buf (pos + 1)
  if buf.length ≤ pos then fail .syntaxError
  else do
    if (← byteAt buf pos) = '\x7d' then .ok (pos + 1)
    else validateMembers buf value (buf.length + 1) pos

/-- The loop of `hil_validate_array`. -/
def validateItems : ℕ → ℕ → Except Stop ℕ
  | 0, _ => .error (.fault .endless)
  | fuel + 1, pos => do
    let pos ← value pos
    let pos ← skipWs buf pos
    if buf.length ≤ pos then fail .syntaxError
    else do
      let c ← byteAt buf pos
      if c = ',' then do
        let pos ← skipWs buf (pos + 1)
        if buf.length ≤ pos then fail .syntaxError
        else do
          if (← byteAt buf pos) = ']' then fail .syntaxError
          else validateItems fuel pos
      else if c = ']' then .ok (pos + 1)
      else fail .syntaxError

/-- `hil_validate_array`. -/
def validateArray (pos : ℕ) : Except Stop ℕ := do
  let pos ← skipWs buf (pos + 1)
  if buf.length ≤ pos then fail .syntaxError
  else do
    if (← byteAt buf pos) = ']' then .ok (pos + 1)
    else validateItems buf value (buf.length + 1) pos

end

/-- `hil_validate_value`, on a stack with room for `room` calls of it. -/
def validateValue : ℕ → ℕ → ℕ → Except Stop ℕ
  | 0, _, _ => .error (.fault .stackOverflow)
  | room + 1, depth, pos =>
    if buf.length ≤ pos then fail .syntaxError
    else if depth > jsonMaxDepth then fail .syntaxError
    else do
      let c ← byteAt buf pos
      if c = '\"' then lexStringSkip buf pos
      else if c = '\x7b' then validateObject buf (validateValue room (depth + 1)) pos
      else if c = '[' then validateArray buf (validateValue room (depth + 1)) pos
      else if c = 't' then validateLiteral buf "true".toList pos
      else if c = 'f' then validateLiteral buf "false".toList pos
      else if c = 'n' then validateLiteral buf "null".toList pos
      else if c = '-' ∨ c.isDigit then lexNumberSkip buf pos
      else fail .syntaxError

/-! ### Values of known keys -/

/-- The accumulation of an unsigned integer, in 64 bits. -/
def lexUint : ℕ → ℕ → ℕ → Except Stop (ℕ × ℕ)
  | 0, _, _ => .error (.fault .endless)
  | fuel + 1, pos, acc =>
    if pos < buf.length then do
      let c ← byteAt buf pos
      if c.isDigit then
        let digit := c.toNat - '0'.toNat
        if acc > (2 ^ 64 - 1 - digit) / 10 then fail .range
        else lexUint fuel (pos + 1) (acc * 10 + digit)
      else .ok (acc, pos)
    else .ok (acc, pos)

/-- A zero before another digit. -/
def leadingZero (pos : ℕ) : Except Stop Bool := do
  if (← byteAt buf pos) = '0' then
    if pos + 1 < buf.length then do .ok (← byteAt buf (pos + 1)).isDigit else .ok false
  else .ok false

/-- An unsigned integer and what may follow it. -/
def parseUint (pos : ℕ) : Except Stop (HilValue × ℕ) := do
  if ← leadingZero buf pos then fail .syntaxError
  else do
    let (n, pos) ← lexUint buf (buf.length + 1) pos 0
    if pos < buf.length then do
      let after ← byteAt buf pos
      if after ≠ ',' ∧ after ≠ '\x7d' ∧ !Json.isWs after then fail .syntaxError
      else .ok (.uint n, pos)
    else .ok (.uint n, pos)

/-- `hil_parse_value`. -/
def parseValue (room pos : ℕ) : Except Stop (HilValue × ℕ) :=
  if buf.length ≤ pos then fail .syntaxError
  else do
    let c ← byteAt buf pos
    if c = '\"' then do
      let ((out, overlong), pos) ← lexStringBounded buf stringBuffer pos
      if overlong then fail .range else .ok (.string out, pos)
    else if c = '\x7b' then do .ok (.object, ← validateValue buf room 0 pos)
    else if c = '[' then do .ok (.array, ← validateValue buf room 0 pos)
    else if c = 't' then do .ok (.bool, ← validateLiteral buf "true".toList pos)
    else if c = 'f' then do .ok (.bool, ← validateLiteral buf "false".toList pos)
    else if c = 'n' then do .ok (.null, ← validateLiteral buf "null".toList pos)
    else if c.isDigit then parseUint buf pos
    else fail .syntaxError

/-! ### The scan of the object -/

/-- The value after a key. -/
def scanValue (room : ℕ) (ctx : Ctx) (key : Option Key) (pos : ℕ) : Except Stop (Ctx × ℕ) :=
  match key with
  | none => do .ok ({ ctx with unknownKeySeen := true }, ← validateValue buf room 0 pos)
  | some k =>
    if (ctx.pending k).isSome then fail .duplicateKey
    else do
      let (v, pos) ← parseValue buf room pos
      .ok (ctx.put k v, pos)

/-- A key, its colon and its value. -/
def scanMember (room : ℕ) (ctx : Ctx) (pos : ℕ) : Except Stop (Ctx × ℕ) := do
  let ((name, overlong), pos) ← lexStringBounded buf keyBuffer pos
  let key := if overlong then none else Key.ofName name
  let pos ← skipWs buf pos
  if buf.length ≤ pos then fail .syntaxError
  else do
    if (← byteAt buf pos) ≠ ':' then fail .syntaxError
    else do
      let pos ← skipWs buf (pos + 1)
      scanValue buf room ctx key pos

/-- The scan loop of `hil_source_parse`. -/
def scan (room : ℕ) : ℕ → Ctx → ℕ → Except Stop (Ctx × ℕ)
  | 0, _, _ => .error (.fault .endless)
  | fuel + 1, ctx, pos => do
    let pos ← skipWs buf pos
    if buf.length ≤ pos then fail .syntaxError
    else do
      if (← byteAt buf pos) = '\x7d' then .ok (ctx, pos + 1)
      else do
        let (ctx, pos) ← scanMember buf room ctx pos
        let pos ← skipWs buf pos
        if buf.length ≤ pos then fail .syntaxError
        else do
          let c ← byteAt buf pos
          if c = ',' then do
            let pos ← skipWs buf (pos + 1)
            if buf.length ≤ pos then fail .syntaxError
            else do
              if (← byteAt buf pos) = '\x7d' then fail .syntaxError
              else scan room fuel ctx pos
          else if c = '\x7d' then .ok (ctx, pos + 1)
          else fail .syntaxError

/-- `hil_source_parse` up to its last assignment. -/
def parse (room : ℕ) : Except Stop CommandIn :=
  if buf.length > maxCommandLineBytes then fail .tooLong
  else do
    let pos ← skipWs buf 0
    if buf.length ≤ pos then fail .syntaxError
    else do
      if (← byteAt buf pos) ≠ '\x7b' then fail .syntaxError
      else do
        let (ctx, pos) ← scan buf room (buf.length + 1) Ctx.empty (pos + 1)
        let pos ← skipWs buf pos
        if pos ≠ buf.length then fail .syntaxError
        else (select ctx).mapError .fail

end Cursor

/-- `hil_source_parse`: its result, `none` for `HIL_SOURCE_PARSE_OK`, and what `out` holds then. -/
def sourceParse (room : ℕ) (buf : Text) (out : CommandIn) :
    Except ParseFault (Option ParseError × CommandIn) :=
  match Cursor.parse buf room with
  | .ok candidate => .ok (none, candidate)
  | .error (.fail e) => .ok (some e, out)
  | .error (.fault f) => .error f

end Hil

end LeAudioReceiver
