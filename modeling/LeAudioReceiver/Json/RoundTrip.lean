import LeAudioReceiver.Json.Basic
import Mathlib.Data.List.TakeDrop

/-!
# What is written is read back

**Main result**: `Json.loads_dumps`, the reader gives back the value that was written, if the hook
keeps each of its objects.  Strings are any: the escapes are undone one by one
(`Json.character_escape`).
-/

namespace LeAudioReceiver

namespace Json

/-! ### Strings -/

theorem hexDigit_digitChar {n : ℕ} (h : n < 16) : hexDigit n.digitChar = some n := by
  have hall : ∀ d : Fin 16, hexDigit d.val.digitChar = some d.val := by decide
  exact hall ⟨n, h⟩

theorem codeUnit_hex4 {n : ℕ} (h : n < 0x10000) (rest : Text) :
    codeUnit (hex4 n ++ rest) = some (n, rest) := by
  have h₁ := hexDigit_digitChar (n := n / 4096 % 16) (by omega)
  have h₂ := hexDigit_digitChar (n := n / 256 % 16) (by omega)
  have h₃ := hexDigit_digitChar (n := n / 16 % 16) (by omega)
  have h₄ := hexDigit_digitChar (n := n % 16) (by omega)
  have hn : ((n / 4096 % 16 * 16 + n / 256 % 16) * 16 + n / 16 % 16) * 16 + n % 16 = n := by omega
  simp only [hex4, List.cons_append, List.nil_append, codeUnit, h₁, h₂, h₃, h₄, hn]

theorem toNat_not_surrogate (c : Char) : c.toNat < 0xd800 ∨ 0xdfff < c.toNat ∧ c.toNat < 0x110000 :=
  c.valid

theorem unicode_hex4 {c : Char} (h : c.toNat < 0x10000) (rest : Text) :
    unicode (hex4 c.toNat ++ rest) = some (c, rest) := by
  have hc := toNat_not_surrogate c
  have h₁ : ¬(0xd800 ≤ c.toNat ∧ c.toNat < 0xdc00) := by omega
  have h₂ : ¬(0xdc00 ≤ c.toNat ∧ c.toNat < 0xe000) := by omega
  simp only [unicode, codeUnit_hex4 h, if_neg h₁, if_neg h₂, Char.ofNat_toNat]

theorem unicode_pair (hi lo : ℕ) (hhi : 0xd800 ≤ hi ∧ hi < 0xdc00)
    (hlo : 0xdc00 ≤ lo ∧ lo < 0xe000) (rest : Text) :
    unicode (hex4 hi ++ '\\' :: 'u' :: (hex4 lo ++ rest)) =
      some (.ofNat (0x10000 + (hi - 0xd800) * 0x400 + (lo - 0xdc00)), rest) := by
  have h₁ := codeUnit_hex4 (n := hi) (by omega) ('\\' :: 'u' :: (hex4 lo ++ rest))
  have h₂ := codeUnit_hex4 (n := lo) (by omega) rest
  simp only [unicode, h₁, if_pos hhi, h₂, if_pos hlo]

theorem ofNat_pair {c : Char} (h : ¬c.toNat < 0x10000) :
    Char.ofNat (0x10000 + (0xd800 + (c.toNat - 0x10000) / 0x400 - 0xd800) * 0x400 +
      (0xdc00 + (c.toNat - 0x10000) % 0x400 - 0xdc00)) = c := by
  have hsum : ∀ n, ¬n < 0x10000 → 0x10000 + (0xd800 + (n - 0x10000) / 0x400 - 0xd800) * 0x400 +
      (0xdc00 + (n - 0x10000) % 0x400 - 0xdc00) = n := by
    intro n hn
    omega
  rw [hsum _ h, Char.ofNat_toNat]

theorem shortEscape_some {c e : Char} (h : shortEscape c = some e) :
    e ≠ 'u' ∧ unescape e = some c := by
  unfold shortEscape at h
  split at h <;> cases h <;> exact ⟨by decide, rfl⟩

theorem shortEscape_none {c : Char} (h : shortEscape c = none) : c ≠ '\"' ∧ c ≠ '\\' := by
  constructor <;> rintro rfl <;> cases h

theorem character_escape (c : Char) (rest : Text) :
    character (escape c ++ rest) = some (some c, rest) := by
  unfold escape
  cases hc : shortEscape c with
  | some e =>
    obtain ⟨hu, he⟩ := shortEscape_some hc
    simp [character, hu, he]
  | none =>
    obtain ⟨hq, hb⟩ := shortEscape_none hc
    dsimp only
    split_ifs with hplain hunit
    · have hlow : ¬c.toNat < 0x20 := by omega
      simp [character, hq, hb, hlow]
    · simp [character, escapeUnit, unicode_hex4 hunit]
    · have hc := toNat_not_surrogate c
      have hpair := unicode_pair (0xd800 + (c.toNat - 0x10000) / 0x400)
        (0xdc00 + (c.toNat - 0x10000) % 0x400) (by omega) (by omega) rest
      rw [ofNat_pair hunit] at hpair
      simp [character, escapeUnit, hpair]

theorem string_quote (s rest : Text) {fuel : ℕ} (h : s.length < fuel) :
    string fuel (s.flatMap escape ++ '\"' :: rest) = some (s, rest) := by
  induction s generalizing fuel with
  | nil =>
    obtain ⟨fuel, rfl⟩ : ∃ k, fuel = k + 1 := ⟨fuel - 1, by simp at h; omega⟩
    simp [string, character]
  | cons c s ih =>
    obtain ⟨fuel, rfl⟩ : ∃ k, fuel = k + 1 := ⟨fuel - 1, by simp at h; omega⟩
    have hs := @ih fuel (by simpa using h)
    simp only [List.flatMap_cons, List.append_assoc, string, character_escape, hs, Option.map_some]

theorem escape_ne_nil (c : Char) : escape c ≠ [] := by
  unfold escape
  split
  · simp
  · split_ifs <;> simp [escapeUnit]

theorem length_le_flatMap_escape (s : Text) : s.length ≤ (s.flatMap escape).length := by
  induction s with
  | nil => simp
  | cons c s ih =>
    have hc := List.length_pos_iff.2 (escape_ne_nil c)
    simp only [List.length_cons, List.flatMap_cons, List.length_append]
    omega

/-- A character of a text that is written. -/
def printable (c : Char) : Bool := decide (0x20 ≤ c.toNat ∧ c.toNat ≤ 0x7e)

/-- A character that a string shows as it is. -/
def plain (c : Char) : Bool := printable c && c ≠ '\"' && c ≠ '\\'

theorem escape_plain {c : Char} (h : plain c = true) : escape c = [c] := by
  simp only [plain, printable, Bool.and_eq_true, decide_eq_true_eq] at h
  obtain ⟨⟨⟨h₁, h₂⟩, hq⟩, hb⟩ := h
  have hshort : shortEscape c = none := by
    unfold shortEscape
    split
    all_goals first | rfl | exact absurd h₁ (by decide) | exact absurd rfl hq | exact absurd rfl hb
  rw [escape, hshort, if_pos ⟨h₁, h₂⟩]

theorem flatMap_escape_plain {s : Text} (h : ∀ c ∈ s, plain c = true) :
    s.flatMap escape = s := by
  induction s with
  | nil => rfl
  | cons c s ih =>
    rw [List.flatMap_cons, escape_plain (h c List.mem_cons_self),
      ih fun d hd => h d (List.mem_cons_of_mem c hd)]
    rfl

theorem quote_plain {s : Text} (h : s.all plain = true) : quote s = '\"' :: (s ++ ['\"']) := by
  rw [quote, flatMap_escape_plain (List.all_eq_true.1 h)]

/-! ### Numbers -/

/-- What may follow a value that is written. -/
def ends : Text → Bool
  | [] => true
  | c :: _ => c = ',' || c = ']' || c = '}'

theorem ends_cases {s : Text} (h : ends s = true) :
    s = [] ∨ ∃ c t, s = c :: t ∧ (c = ',' ∨ c = ']' ∨ c = '}') := by
  cases s with
  | nil => exact .inl rfl
  | cons c t => exact .inr ⟨c, t, rfl, by simpa [ends, or_assoc] using h⟩

theorem takeWhile_digits {ds rest : Text} (hds : ∀ c ∈ ds, c.isDigit = true)
    (hrest : ends rest = true) :
    (ds ++ rest).takeWhile Char.isDigit = ds ∧ (ds ++ rest).dropWhile Char.isDigit = rest := by
  have hnil : rest.takeWhile Char.isDigit = [] ∧ rest.dropWhile Char.isDigit = rest := by
    rcases ends_cases hrest with rfl | ⟨c, t, rfl, rfl | rfl | rfl⟩ <;> simp
  rw [List.takeWhile_append_of_pos hds, List.dropWhile_append_of_pos hds, hnil.1, hnil.2]
  exact ⟨List.append_nil ds, rfl⟩

theorem toDigits_cases (n : ℕ) : Nat.toDigits 10 n = ['0'] ∨
    ∃ c ds, Nat.toDigits 10 n = c :: ds ∧ c ≠ '0' := by
  induction n using Nat.strongRecOn with
  | ind n ih =>
    by_cases hn : n < 10
    · rw [Nat.toDigits_of_lt_base hn]
      by_cases h0 : n = 0
      · exact .inl (by rw [h0]; rfl)
      · exact .inr ⟨_, [], rfl, by simpa using h0⟩
    · refine .inr ?_
      rw [Nat.toDigits_of_base_le (by decide) (Nat.not_lt.1 hn)]
      rcases ih (n / 10) (by omega) with h | ⟨c, ds, h, hc⟩
      · -- a quotient of zero is the one of a single digit
        have hq : Nat.ofDigitChars 10 (Nat.toDigits 10 (n / 10)) 0 = 0 := by rw [h]; rfl
        rw [Nat.ofDigitChars_ten_toDigits] at hq
        omega
      · exact ⟨c, ds ++ [(n % 10).digitChar], by rw [h]; rfl, hc⟩

theorem isDigit_toDigits {n : ℕ} {c : Char} (h : c ∈ Nat.toDigits 10 n) : c.isDigit = true :=
  Nat.isDigit_of_mem_toDigits (by decide) (by decide) h

theorem intPart_toDigits (n : ℕ) {rest : Text} (hrest : ends rest = true) :
    intPart (Nat.toDigits 10 n ++ rest) = some (Nat.toDigits 10 n, rest) := by
  have hdigit : ∀ c ∈ Nat.toDigits 10 n, c.isDigit = true := fun c => isDigit_toDigits
  rcases toDigits_cases n with h | ⟨c, ds, h, hc⟩
  · rw [h]
    rfl
  · rw [h] at hdigit ⊢
    obtain ⟨htake, hdrop⟩ :=
      takeWhile_digits (fun d hd => hdigit d (List.mem_cons_of_mem c hd)) hrest
    simp only [List.cons_append, intPart, if_neg hc, hdigit c List.mem_cons_self, if_true, htake,
      hdrop]

theorem magnitude_toDigits (negative : Bool) (n : ℕ) {rest : Text} (hrest : ends rest = true) :
    magnitude negative (Nat.toDigits 10 n ++ rest) =
      some (.int (if negative then -n else n), rest) := by
  have hfrac : fracPart rest = ([], rest) := by
    rcases ends_cases hrest with rfl | ⟨c, t, rfl, rfl | rfl | rfl⟩ <;> rfl
  have hexp : expPart rest = ([], rest) := by
    rcases ends_cases hrest with rfl | ⟨c, t, rfl, rfl | rfl | rfl⟩ <;> rfl
  simp [magnitude, intPart_toDigits n hrest, hfrac, hexp]

theorem number_decimal (n : ℤ) {rest : Text} (hrest : ends rest = true) :
    number (decimal n ++ rest) = some (.int n, rest) := by
  cases n with
  | ofNat n =>
    obtain ⟨c, ds, hds⟩ := List.exists_cons_of_ne_nil (Nat.toDigits_ne_nil (n := n) (b := 10))
    have hc : c ≠ '-' := by
      rintro rfl
      exact absurd (isDigit_toDigits (hds ▸ List.mem_cons_self)) (by decide)
    have hmag := magnitude_toDigits false n hrest
    rw [hds] at hmag
    simp only [decimal, hds, List.cons_append] at hmag ⊢
    unfold number
    split
    · rename_i h
      cases h
      exact absurd rfl hc
    · exact hmag
  | negSucc n => exact magnitude_toDigits true (n + 1) hrest

/-! ### Values -/

section

variable {ε : Type} (hook : List (Text × Value) → Except ε Value)

mutual

/-- A value with no number beyond the integers, whose objects are kept by the hook. -/
def Kept : Value → Prop
  | .real _ => False
  | .arr items => KeptItems items
  | .obj members => hook members = .ok (.obj members) ∧ KeptMembers members
  | _ => True

/-- The items of an array are kept. -/
def KeptItems : List Value → Prop
  | [] => True
  | v :: items => Kept v ∧ KeptItems items

/-- The values of the members are kept. -/
def KeptMembers : List (Text × Value) → Prop
  | [] => True
  | (_, v) :: members => Kept v ∧ KeptMembers members

end

end

theorem skipWs_of_not {c : Char} (h : isWs c = false) (s : Text) : skipWs (c :: s) = c :: s := by
  simp [skipWs, h]

/-- What a value that is not a number beyond the integers begins with. -/
theorem dumps_head {ε : Type} {hook : List (Text × Value) → Except ε Value} {v : Value}
    (hv : Kept hook v) :
    ∃ c s, dumps v = c :: s ∧ isWs c = false ∧ c ≠ ']' ∧ c ≠ '\x7d' := by
  have hdigits : ∀ n, ∃ c s, Nat.toDigits 10 n = c :: s ∧ isWs c = false ∧ c ≠ ']' ∧
      c ≠ '\x7d' := by
    intro n
    obtain ⟨c, s, hs⟩ := List.exists_cons_of_ne_nil (Nat.toDigits_ne_nil (n := n) (b := 10))
    have hc : c.isDigit = true := isDigit_toDigits (hs ▸ List.mem_cons_self)
    refine ⟨c, s, hs, ?_, ?_, ?_⟩
    · by_contra hws
      simp only [isWs, Bool.not_eq_false, Bool.or_eq_true, decide_eq_true_eq] at hws
      rcases hws with ((rfl | rfl) | rfl) | rfl <;> exact absurd hc (by decide)
    · rintro rfl
      exact absurd hc (by decide)
    · rintro rfl
      exact absurd hc (by decide)
  cases v with
  | null => exact ⟨_, _, rfl, by decide, by decide, by decide⟩
  | bool b => cases b <;> exact ⟨_, _, rfl, by decide, by decide, by decide⟩
  | int n =>
    cases n with
    | ofNat n => exact hdigits n
    | negSucc n => exact ⟨_, _, rfl, by decide, by decide, by decide⟩
  | real literal => exact hv.elim
  | str s => exact ⟨_, _, rfl, by decide, by decide, by decide⟩
  | arr items => exact ⟨_, _, rfl, by decide, by decide, by decide⟩
  | obj members => exact ⟨_, _, rfl, by decide, by decide, by decide⟩

/-- A digit or the minus sign begins no other value than a number. -/
theorem value_int {ε : Type} (hook : List (Text × Value) → Except ε Value) (n : ℤ) {rest : Text}
    (hrest : ends rest = true) (fuel : ℕ) :
    value hook (fuel + 1) (decimal n ++ rest) = .ok (.int n, rest) := by
  have hnumber := number_decimal n hrest
  obtain ⟨c, s, hs, hc⟩ : ∃ c s, decimal n = c :: s ∧ (c = '-' ∨ c.isDigit = true) := by
    cases n with
    | ofNat n =>
      obtain ⟨c, s, hs⟩ := List.exists_cons_of_ne_nil (Nat.toDigits_ne_nil (n := n) (b := 10))
      exact ⟨c, s, hs, .inr (isDigit_toDigits (hs ▸ List.mem_cons_self))⟩
    | negSucc n => exact ⟨_, _, rfl, .inl rfl⟩
  have hne : ∀ d : Char, d ≠ '-' → d.isDigit = false → c ≠ d := by
    rintro d hminus hdigit rfl
    rcases hc with h | h
    · exact hminus h
    · rw [h] at hdigit
      cases hdigit
  have hq := hne '\"' (by decide) (by decide)
  have ho := hne '\x7b' (by decide) (by decide)
  have ha := hne '[' (by decide) (by decide)
  have hn := hne 'n' (by decide) (by decide)
  have ht := hne 't' (by decide) (by decide)
  have hf := hne 'f' (by decide) (by decide)
  rw [hs] at hnumber ⊢
  rw [List.cons_append] at hnumber ⊢
  simp [value, hq, ho, ha, hn.symm, ht.symm, hf.symm, hnumber]

section

variable {ε : Type} {hook : List (Text × Value) → Except ε Value}

theorem string_rest (s rest : Text) :
    string ((s.flatMap escape ++ '\"' :: rest).length + 1) (s.flatMap escape ++ '\"' :: rest) =
      some (s, rest) := by
  refine string_quote s rest ?_
  have hlen := length_le_flatMap_escape s
  simp only [List.length_append, List.length_cons]
  omega

theorem value_str (s : Text) (fuel : ℕ) (rest : Text) :
    value hook (fuel + 1) (quote s ++ rest) = .ok (.str s, rest) := by
  have hs := string_rest s rest
  simp only [quote, List.cons_append, List.append_assoc, List.nil_append, value, if_true, hs]

theorem dumpItems_head {v : Value} {l : List Value} (hv : KeptItems hook (v :: l)) :
    ∃ c s, dumpItems (v :: l) = c :: s ∧ isWs c = false ∧ c ≠ ']' ∧ c ≠ '\x7d' := by
  obtain ⟨c, s, hs, hc⟩ := dumps_head hv.1
  cases l with
  | nil => exact ⟨c, _, by rw [dumpItems, hs, List.cons_append], hc⟩
  | cons w l => exact ⟨c, _, by rw [dumpItems, hs, List.cons_append]; simp, hc⟩

theorem dumpMembers_head (k : Text) (v : Value) (l : List (Text × Value)) :
    ∃ s, dumpMembers ((k, v) :: l) = '\"' :: s := by
  cases l with
  | nil => exact ⟨_, rfl⟩
  | cons m l => exact ⟨_, rfl⟩

mutual

/-- A written value is read back, and the reader stops at its end. -/
theorem value_dumps : ∀ (v : Value) (fuel : ℕ) (rest : Text), Kept hook v → ends rest = true →
    (dumps v).length ≤ fuel → value hook fuel (dumps v ++ rest) = .ok (v, rest)
  | .null, fuel, rest, _, _, hfuel => by
    obtain ⟨fuel, rfl⟩ := Nat.exists_eq_add_of_le' (Nat.le_trans (by decide : 1 ≤ 4) hfuel)
    rfl
  | .bool b, fuel, rest, _, _, hfuel => by
    cases b with
    | true =>
      obtain ⟨fuel, rfl⟩ := Nat.exists_eq_add_of_le' (Nat.le_trans (by decide : 1 ≤ 4) hfuel)
      rfl
    | false =>
      obtain ⟨fuel, rfl⟩ := Nat.exists_eq_add_of_le' (Nat.le_trans (by decide : 1 ≤ 5) hfuel)
      rfl
  | .int n, fuel, rest, hv, hrest, hfuel => by
    obtain ⟨c, s, hs, -⟩ := dumps_head hv
    rw [hs, List.length_cons] at hfuel
    obtain ⟨fuel, rfl⟩ := Nat.exists_eq_add_of_le' (Nat.le_trans (Nat.le_add_left 1 _) hfuel)
    exact value_int hook n hrest fuel
  | .real literal, _, _, hv, _, _ => hv.elim
  | .str s, fuel, rest, _, _, hfuel => by
    obtain ⟨fuel, rfl⟩ := Nat.exists_eq_add_of_le' (Nat.le_trans (Nat.le_add_left 1 _) hfuel)
    exact value_str s fuel rest
  | .arr [], fuel, rest, _, _, hfuel => by
    obtain ⟨fuel, rfl⟩ := Nat.exists_eq_add_of_le' (Nat.le_trans (by decide : 1 ≤ 2) hfuel)
    rfl
  | .arr (v :: l), fuel, rest, hv, _, hfuel => by
    obtain ⟨fuel, rfl⟩ := Nat.exists_eq_add_of_le' (Nat.le_trans (Nat.le_add_left 1 _) hfuel)
    have hitems := items_dumps v l fuel rest hv (Nat.le_of_succ_le_succ hfuel)
    obtain ⟨c, s, hs, hws, hend, -⟩ := dumpItems_head hv
    simp only [hs, List.cons_append] at hitems
    simp [dumps, value, hs, skipWs_of_not hws, hend, hitems, Except.map]
  | .obj [], fuel, rest, hv, _, hfuel => by
    obtain ⟨fuel, rfl⟩ := Nat.exists_eq_add_of_le' (Nat.le_trans (by decide : 1 ≤ 2) hfuel)
    simp [dumps, dumpMembers, value, skipWs_of_not, isWs, object, hv.1, Except.map]
  | .obj ((k, v) :: l), fuel, rest, hv, _, hfuel => by
    obtain ⟨fuel, rfl⟩ := Nat.exists_eq_add_of_le' (Nat.le_trans (Nat.le_add_left 1 _) hfuel)
    have hmembers := members_dumps k v l fuel rest hv.2 (Nat.le_of_succ_le_succ hfuel)
    obtain ⟨s, hs⟩ := dumpMembers_head k v l
    simp only [hs, List.cons_append] at hmembers
    simp [dumps, value, hs, skipWs_of_not, isWs, hmembers, object, hv.1, Except.map]
termination_by v => sizeOf v

theorem items_dumps : ∀ (v : Value) (l : List Value) (fuel : ℕ) (rest : Text),
    KeptItems hook (v :: l) → (dumpItems (v :: l)).length ≤ fuel →
    items hook fuel (dumpItems (v :: l) ++ rest) = .ok (v :: l, rest)
  | v, [], fuel, rest, hv, hfuel => by
    simp only [dumpItems, List.length_append, List.length_singleton] at hfuel
    obtain ⟨fuel, rfl⟩ := Nat.exists_eq_add_of_le' (Nat.le_trans (Nat.le_add_left 1 _) hfuel)
    have hvalue := value_dumps v fuel (']' :: rest) hv.1 rfl (Nat.le_of_succ_le_succ hfuel)
    simp [dumpItems, items, hvalue, skipWs_of_not, isWs]
  | v, w :: l, fuel, rest, hv, hfuel => by
    simp only [dumpItems, List.length_append, List.length_cons] at hfuel
    obtain ⟨fuel, rfl⟩ := Nat.exists_eq_add_of_le' (Nat.le_trans (Nat.le_add_left 1 _) hfuel)
    have hvalue := value_dumps v fuel (',' :: (dumpItems (w :: l) ++ rest)) hv.1
      rfl (by omega)
    have hitems := items_dumps w l fuel rest hv.2 (by omega)
    obtain ⟨c, s, hs, hws, -⟩ := dumpItems_head hv.2
    simp only [hs, List.cons_append] at hvalue hitems
    simp [dumpItems, items, hs, hvalue, skipWs_of_not, isWs, skipWs_of_not hws, hitems, Except.map]
termination_by v l => sizeOf (v :: l)

theorem members_dumps : ∀ (k : Text) (v : Value) (l : List (Text × Value)) (fuel : ℕ)
    (rest : Text),
    KeptMembers hook ((k, v) :: l) → (dumpMembers ((k, v) :: l)).length ≤ fuel →
    members hook fuel (dumpMembers ((k, v) :: l) ++ rest) = .ok ((k, v) :: l, rest)
  | k, v, [], fuel, rest, hv, hfuel => by
    simp only [dumpMembers, quote, List.length_append, List.length_cons] at hfuel
    obtain ⟨fuel, rfl⟩ := Nat.exists_eq_add_of_le' (Nat.le_trans (Nat.le_add_left 1 _) hfuel)
    have hvalue := value_dumps v fuel ('\x7d' :: rest) hv.1 rfl (by omega)
    obtain ⟨c, s, hs, hws, -⟩ := dumps_head hv.1
    have hkey := string_rest k (':' :: (dumps v ++ '\x7d' :: rest))
    simp only [hs, List.cons_append] at hvalue hkey
    simp only [dumpMembers, quote, hs, List.cons_append, List.append_assoc, List.nil_append,
      members, hkey]
    simp [hvalue, skipWs_of_not, isWs, skipWs_of_not hws]
  | k, v, (j, w) :: l, fuel, rest, hv, hfuel => by
    simp only [dumpMembers, quote, List.length_append, List.length_cons] at hfuel
    obtain ⟨fuel, rfl⟩ := Nat.exists_eq_add_of_le' (Nat.le_trans (Nat.le_add_left 1 _) hfuel)
    have hvalue := value_dumps v fuel (',' :: (dumpMembers ((j, w) :: l) ++ rest)) hv.1 rfl
      (by omega)
    have hmembers := members_dumps j w l fuel rest hv.2 (by omega)
    obtain ⟨c, s, hs, hws, -⟩ := dumps_head hv.1
    obtain ⟨t, ht⟩ := dumpMembers_head j w l
    have hkey := string_rest k (':' :: (dumps v ++ ',' :: (dumpMembers ((j, w) :: l) ++ rest)))
    simp only [hs, ht, List.cons_append] at hvalue hmembers hkey
    simp only [dumpMembers, quote, hs, ht, List.cons_append, List.append_assoc, List.nil_append,
      members, hkey]
    simp [hvalue, skipWs_of_not, isWs, skipWs_of_not hws, hmembers, Except.map]
termination_by k v l => sizeOf ((k, v) :: l)

end

/-- **The reader gives back what was written.** -/
theorem loads_dumps {v : Value} (hv : Kept hook v) : loads hook (dumps v) = .ok v := by
  obtain ⟨c, s, hs, hws, -⟩ := dumps_head hv
  have hskip : skipWs (dumps v) = dumps v ++ [] := by
    rw [hs, skipWs_of_not hws, List.append_nil]
  have hvalue := value_dumps v _ [] hv rfl (Nat.le_add_right_of_le (k := 1)
    (Nat.le_mul_of_pos_left (dumps v).length (by decide : 0 < 2)))
  rw [loads, hskip, hvalue]
  rfl

end

/-! ### Characters -/

theorem printable_digitChar (n : ℕ) (h : n < 16) : printable n.digitChar = true := by
  have hall : ∀ d : Fin 16, printable d.val.digitChar = true := by decide
  exact hall ⟨n, h⟩

theorem printable_escapeUnit (n : ℕ) : ∀ c ∈ escapeUnit n, printable c = true := by
  intro c hc
  simp only [escapeUnit, hex4, List.mem_cons, List.not_mem_nil, or_false] at hc
  rcases hc with rfl | rfl | rfl | rfl | rfl | rfl
  · decide
  · decide
  all_goals exact printable_digitChar _ (Nat.mod_lt _ (by decide))

theorem printable_escape (c : Char) : ∀ d ∈ escape c, printable d = true := by
  intro d hd
  unfold escape at hd
  cases hc : shortEscape c with
  | some e =>
    simp only [hc, List.mem_cons, List.not_mem_nil, or_false] at hd
    unfold shortEscape at hc
    split at hc <;> cases hc <;> rcases hd with rfl | rfl <;> decide
  | none =>
    simp only [hc] at hd
    split_ifs at hd with hplain hunit
    · rw [List.mem_singleton] at hd
      exact hd ▸ decide_eq_true hplain
    · exact printable_escapeUnit _ d hd
    · rcases List.mem_append.1 hd with hd | hd
      · exact printable_escapeUnit _ d hd
      · exact printable_escapeUnit _ d hd

theorem printable_quote (s : Text) : ∀ c ∈ quote s, printable c = true := by
  intro c hc
  simp only [quote, List.mem_cons, List.mem_append, List.mem_flatMap, List.not_mem_nil,
    or_false] at hc
  rcases hc with rfl | ⟨d, -, hd⟩ | rfl
  · decide
  · exact printable_escape d c hd
  · decide

theorem printable_toDigits (n : ℕ) : ∀ c ∈ Nat.toDigits 10 n, printable c = true := by
  intro c hc
  have hdigit := Char.isDigit_iff_toNat.1 (isDigit_toDigits hc)
  have h0 : '0'.toNat = 48 := rfl
  have h9 : '9'.toNat = 57 := rfl
  exact decide_eq_true (by omega)

theorem printable_decimal (n : ℤ) : ∀ c ∈ decimal n, printable c = true := by
  intro c hc
  cases n with
  | ofNat n => exact printable_toDigits n c hc
  | negSucc n =>
    rcases List.mem_cons.1 hc with rfl | hc
    · decide
    · exact printable_toDigits (n + 1) c hc

section

variable {ε : Type} {hook : List (Text × Value) → Except ε Value}

mutual

theorem printable_dumps : ∀ (v : Value), Kept hook v → ∀ c ∈ dumps v, printable c = true
  | .null, _, c, hc => List.all_eq_true.1 (by decide : (dumps .null).all printable = true) c hc
  | .bool true, _, c, hc =>
    List.all_eq_true.1 (by decide : (dumps (.bool true)).all printable = true) c hc
  | .bool false, _, c, hc =>
    List.all_eq_true.1 (by decide : (dumps (.bool false)).all printable = true) c hc
  | .int n, _, c, hc => printable_decimal n c hc
  | .real _, hv, _, _ => hv.elim
  | .str s, _, c, hc => printable_quote s c hc
  | .arr items, hv, c, hc => by
    rcases List.mem_cons.1 hc with rfl | hc
    · decide
    · exact printable_dumpItems items hv c hc
  | .obj members, hv, c, hc => by
    rcases List.mem_cons.1 hc with rfl | hc
    · decide
    · exact printable_dumpMembers members hv.2 c hc
termination_by v => sizeOf v

theorem printable_dumpItems : ∀ (l : List Value), KeptItems hook l →
    ∀ c ∈ dumpItems l, printable c = true
  | [], _, c, hc => by
    rw [List.mem_singleton.1 hc]
    decide
  | [v], hv, c, hc => by
    rcases List.mem_append.1 hc with hc | hc
    · exact printable_dumps v hv.1 c hc
    · rw [List.mem_singleton.1 hc]
      decide
  | v :: w :: l, hv, c, hc => by
    rcases List.mem_append.1 hc with hc | hc
    · exact printable_dumps v hv.1 c hc
    · rcases List.mem_cons.1 hc with rfl | hc
      · decide
      · exact printable_dumpItems (w :: l) hv.2 c hc
termination_by l => sizeOf l

theorem printable_dumpMembers : ∀ (l : List (Text × Value)), KeptMembers hook l →
    ∀ c ∈ dumpMembers l, printable c = true
  | [], _, c, hc => by
    rw [List.mem_singleton.1 hc]
    decide
  | [(k, v)], hv, c, hc => by
    rcases List.mem_append.1 hc with hc | hc
    · exact printable_quote k c hc
    · rcases List.mem_cons.1 hc with rfl | hc
      · decide
      · rcases List.mem_append.1 hc with hc | hc
        · exact printable_dumps v hv.1 c hc
        · rw [List.mem_singleton.1 hc]
          decide
  | (k, v) :: m :: l, hv, c, hc => by
    rcases List.mem_append.1 hc with hc | hc
    · exact printable_quote k c hc
    · rcases List.mem_cons.1 hc with rfl | hc
      · decide
      · rcases List.mem_append.1 hc with hc | hc
        · exact printable_dumps v hv.1 c hc
        · rcases List.mem_cons.1 hc with rfl | hc
          · decide
          · exact printable_dumpMembers (m :: l) hv.2 c hc
termination_by l => sizeOf l

end

end

theorem getLast?_dumpMembers : ∀ l : List (Text × Value),
    (dumpMembers l).getLast? = some '\x7d'
  | [] => rfl
  | [(k, v)] => by simp [dumpMembers, List.getLast?_cons]
  | (k, v) :: m :: l => by
    obtain ⟨s, hs⟩ := dumpMembers_head m.1 m.2 l
    have ih := getLast?_dumpMembers (m :: l)
    rw [hs] at ih
    simp [dumpMembers, hs, List.getLast?_append, List.getLast?_cons, ← ih]

end Json

end LeAudioReceiver
