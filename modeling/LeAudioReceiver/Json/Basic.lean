import Mathlib.Data.Int.Notation
import Mathlib.Tactic.Common

/-!
# JSON texts

Values, their compact texts, and the reader of texts, after RFC 8259.

* `Json.dumps` writes a value without blanks and in ASCII, with an escape for every other character.
* `Json.loads` reads a text.  A hook makes the value of an object from its members in the order of
  the text, repeated keys included, and may refuse them.

The character of a lone surrogate does not exist here: a text with its escape has no value.
-/

namespace LeAudioReceiver

namespace Json

/-- A text, by its characters. -/
abbrev Text := List Char

/-- A value.  An object is its members in their order. -/
inductive Value where
  | null
  | bool (b : Bool)
  | int (n : ℤ)
  /-- A number with a fraction or an exponent, as it is written. -/
  | real (literal : Text)
  | str (s : Text)
  | arr (items : List Value)
  | obj (members : List (Text × Value))

/-! ### Writing -/

/-- The four digits of an escape. -/
def hex4 (n : ℕ) : Text :=
  [(n / 4096 % 16).digitChar, (n / 256 % 16).digitChar, (n / 16 % 16).digitChar,
    (n % 16).digitChar]

/-- The escape of a code unit. -/
def escapeUnit (n : ℕ) : Text := '\\' :: 'u' :: hex4 n

/-- The letter of a short escape. -/
def shortEscape : Char → Option Char
  | '\"' => some '\"'
  | '\\' => some '\\'
  | '\n' => some 'n'
  | '\r' => some 'r'
  | '\t' => some 't'
  | '\x08' => some 'b'
  | '\x0c' => some 'f'
  | _ => none

/-- A character in a string. -/
def escape (c : Char) : Text :=
  match shortEscape c with
  | some e => ['\\', e]
  | none =>
    if 0x20 ≤ c.toNat ∧ c.toNat ≤ 0x7e then [c]
    else if c.toNat < 0x10000 then escapeUnit c.toNat
    else
      escapeUnit (0xd800 + (c.toNat - 0x10000) / 0x400) ++
        escapeUnit (0xdc00 + (c.toNat - 0x10000) % 0x400)

/-- A string in its quotes. -/
def quote (s : Text) : Text := '\"' :: (s.flatMap escape ++ ['\"'])

/-- An integer in decimal. -/
def decimal : ℤ → Text
  | .ofNat n => Nat.toDigits 10 n
  | .negSucc n => '-' :: Nat.toDigits 10 (n + 1)

theorem decimal_natCast (n : ℕ) : decimal n = Nat.toDigits 10 n := rfl

mutual

/-- The compact text of a value. -/
def dumps : Value → Text
  | .null => "null".toList
  | .bool true => "true".toList
  | .bool false => "false".toList
  | .int n => decimal n
  | .real literal => literal
  | .str s => quote s
  | .arr items => '[' :: dumpItems items
  | .obj members => '{' :: dumpMembers members

/-- The items of an array, and its end. -/
def dumpItems : List Value → Text
  | [] => [']']
  | [v] => dumps v ++ [']']
  | v :: items => dumps v ++ ',' :: dumpItems items

/-- The members of an object, and its end. -/
def dumpMembers : List (Text × Value) → Text
  | [] => ['}']
  | [(k, v)] => quote k ++ ':' :: (dumps v ++ ['}'])
  | (k, v) :: members => quote k ++ ':' :: (dumps v ++ ',' :: dumpMembers members)

end

theorem dumps_str (s : Text) : dumps (.str s) = quote s := by
  rw [dumps]

theorem dumps_natCast (n : ℕ) : dumps (.int n) = Nat.toDigits 10 n := by
  rw [dumps, decimal_natCast]

theorem dumps_obj (l : List (Text × Value)) : dumps (.obj l) = '\x7b' :: dumpMembers l := by
  rw [dumps]

theorem dumpMembers_singleton (k : Text) (v : Value) :
    dumpMembers [(k, v)] = quote k ++ ':' :: (dumps v ++ ['\x7d']) := by
  rw [dumpMembers]

theorem dumpMembers_cons (k : Text) (v : Value) (m : Text × Value) (l : List (Text × Value)) :
    dumpMembers ((k, v) :: m :: l) =
      quote k ++ ':' :: (dumps v ++ ',' :: dumpMembers (m :: l)) := by
  rw [dumpMembers]
  rintro ⟨⟩

/-! ### Reading -/

/-- Why a text is refused. -/
inductive Fault (ε : Type) where
  | decode
  /-- The hook refused an object. -/
  | hook (e : ε)
  deriving DecidableEq, Repr

/-- White space. -/
def isWs (c : Char) : Bool := c = ' ' || c = '\t' || c = '\n' || c = '\r'

/-- The text after the white space it begins with. -/
def skipWs (s : Text) : Text := s.dropWhile isWs

/-- The value of a hexadecimal digit. -/
def hexDigit (c : Char) : Option ℕ :=
  if '0' ≤ c ∧ c ≤ '9' then some (c.toNat - '0'.toNat)
  else if 'a' ≤ c ∧ c ≤ 'f' then some (c.toNat - 'a'.toNat + 10)
  else if 'A' ≤ c ∧ c ≤ 'F' then some (c.toNat - 'A'.toNat + 10)
  else none

/-- The code unit of four digits. -/
def codeUnit : Text → Option (ℕ × Text)
  | a :: b :: c :: d :: s =>
    match hexDigit a, hexDigit b, hexDigit c, hexDigit d with
    | some a, some b, some c, some d => some (((a * 16 + b) * 16 + c) * 16 + d, s)
    | _, _, _, _ => none
  | _ => none

/-- The character of one code unit or of a surrogate pair, after the first `\u`. -/
def unicode (s : Text) : Option (Char × Text) :=
  match codeUnit s with
  | none => none
  | some (hi, s) =>
    if 0xd800 ≤ hi ∧ hi < 0xdc00 then
      match s with
      | '\\' :: 'u' :: s =>
        match codeUnit s with
        | none => none
        | some (lo, s) =>
          if 0xdc00 ≤ lo ∧ lo < 0xe000 then
            some (.ofNat (0x10000 + (hi - 0xd800) * 0x400 + (lo - 0xdc00)), s)
          else none
      | _ => none
    else if 0xdc00 ≤ hi ∧ hi < 0xe000 then none
    else some (.ofNat hi, s)

/-- The character of a short escape. -/
def unescape : Char → Option Char
  | '\"' => some '\"'
  | '\\' => some '\\'
  | '/' => some '/'
  | 'b' => some '\x08'
  | 'f' => some '\x0c'
  | 'n' => some '\n'
  | 'r' => some '\r'
  | 't' => some '\t'
  | _ => none

/-- The next character of a string, `none` for its closing quote. -/
def character : Text → Option (Option Char × Text)
  | [] => none
  | c :: s =>
    if c = '\"' then some (none, s)
    else if c = '\\' then
      match s with
      | [] => none
      | e :: s =>
        if e = 'u' then (unicode s).map fun p => (some p.1, p.2)
        else (unescape e).map fun c => (some c, s)
    else if c.toNat < 0x20 then none
    else some (some c, s)

/-- A string after its opening quote, in at most `fuel` characters. -/
def string : ℕ → Text → Option (Text × Text)
  | 0, _ => none
  | fuel + 1, s =>
    match character s with
    | none => none
    | some (none, s) => some ([], s)
    | some (some c, s) => (string fuel s).map fun p => (c :: p.1, p.2)

/-- The integer part of a number: no zero before another digit. -/
def intPart : Text → Option (Text × Text)
  | [] => none
  | c :: s =>
    if c = '0' then some (['0'], s)
    else if c.isDigit then some (c :: s.takeWhile Char.isDigit, s.dropWhile Char.isDigit)
    else none

/-- The fraction of a number, or nothing. -/
def fracPart : Text → Text × Text
  | '.' :: s =>
    if (s.takeWhile Char.isDigit).isEmpty then ([], '.' :: s)
    else ('.' :: s.takeWhile Char.isDigit, s.dropWhile Char.isDigit)
  | s => ([], s)

/-- A sign, or nothing. -/
def signPart : Text → Text × Text
  | '+' :: s => (['+'], s)
  | '-' :: s => (['-'], s)
  | s => ([], s)

/-- The exponent of a number, or nothing. -/
def expPart : Text → Text × Text
  | [] => ([], [])
  | c :: s =>
    if c = 'e' ∨ c = 'E' then
      let sign := signPart s
      if (sign.2.takeWhile Char.isDigit).isEmpty then ([], c :: s)
      else (c :: (sign.1 ++ sign.2.takeWhile Char.isDigit), sign.2.dropWhile Char.isDigit)
    else ([], c :: s)

/-- A number after its sign. -/
def magnitude (negative : Bool) (s : Text) : Option (Value × Text) :=
  match intPart s with
  | none => none
  | some (digits, s) =>
    let frac := fracPart s
    let exp := expPart frac.2
    let value :=
      if frac.1.isEmpty && exp.1.isEmpty then
        let n := Nat.ofDigitChars 10 digits 0
        Value.int (if negative then -n else n)
      else .real ((if negative then ['-'] else []) ++ digits ++ frac.1 ++ exp.1)
    some (value, exp.2)

/-- A number. -/
def number : Text → Option (Value × Text)
  | '-' :: s => magnitude true s
  | s => magnitude false s

section Reader

variable {ε : Type} (hook : List (Text × Value) → Except ε Value)

/-- The object of its members. -/
def object (members : List (Text × Value)) : Except (Fault ε) Value :=
  match hook members with
  | .error e => .error (.hook e)
  | .ok v => .ok v

mutual

/-- A value at the start of a text, and what follows it. -/
def value : ℕ → Text → Except (Fault ε) (Value × Text)
  | 0, _ => .error .decode
  | _ + 1, [] => .error .decode
  | fuel + 1, c :: s =>
    if c = '\"' then
      match string (s.length + 1) s with
      | none => .error .decode
      | some (str, s) => .ok (.str str, s)
    else if c = '{' then
      match skipWs s with
      | '}' :: s => (object hook []).map (·, s)
      | s =>
        match members fuel s with
        | .error e => .error e
        | .ok (ms, s) => (object hook ms).map (·, s)
    else if c = '[' then
      match skipWs s with
      | ']' :: s => .ok (.arr [], s)
      | s => (items fuel s).map fun p => (.arr p.1, p.2)
    else if "null".toList.isPrefixOf (c :: s) then .ok (.null, s.drop 3)
    else if "true".toList.isPrefixOf (c :: s) then .ok (.bool true, s.drop 3)
    else if "false".toList.isPrefixOf (c :: s) then .ok (.bool false, s.drop 4)
    else
      match number (c :: s) with
      | none => .error .decode
      | some p => .ok p

/-- The members of an object from the first key to the end, one at least. -/
def members : ℕ → Text → Except (Fault ε) (List (Text × Value) × Text)
  | 0, _ => .error .decode
  | fuel + 1, s =>
    match s with
    | '\"' :: s =>
      match string (s.length + 1) s with
      | none => .error .decode
      | some (k, s) =>
        match skipWs s with
        | ':' :: s =>
          match value fuel (skipWs s) with
          | .error e => .error e
          | .ok (v, s) =>
            match skipWs s with
            | '}' :: s => .ok ([(k, v)], s)
            | ',' :: s => (members fuel (skipWs s)).map fun p => ((k, v) :: p.1, p.2)
            | _ => .error .decode
        | _ => .error .decode
    | _ => .error .decode

/-- The items of an array from the first to the end, one at least. -/
def items : ℕ → Text → Except (Fault ε) (List Value × Text)
  | 0, _ => .error .decode
  | fuel + 1, s =>
    match value fuel s with
    | .error e => .error e
    | .ok (v, s) =>
      match skipWs s with
      | ']' :: s => .ok ([v], s)
      | ',' :: s => (items fuel (skipWs s)).map fun p => (v :: p.1, p.2)
      | _ => .error .decode

end

/-- The value of a text.  Of two nested calls of the reader at least one takes a character off, so
twice the length is fuel enough. -/
def loads (s : Text) : Except (Fault ε) Value :=
  match value hook (2 * s.length + 1) (skipWs s) with
  | .error e => .error e
  | .ok (v, s) => if (skipWs s).isEmpty then .ok v else .error .decode

end Reader

end Json

end LeAudioReceiver
