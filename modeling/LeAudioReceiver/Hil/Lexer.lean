import LeAudioReceiver.Hil.Grammar

/-!
# What the lexer takes

The lexer of the HIL source against the tokens of the grammar.

* `lexStringBounded_iff` : a string is taken if and only if the grammar has it; the buffer holds
  what fits of its text.
* `lexUint_iff` : the digits up to the first character that is none.
* `parseValue_string_iff`, `parseValue_uint_iff` : **a value of a known key is taken as a string or
  an integer if and only if the grammar has it and it fits.**
-/

namespace LeAudioReceiver

namespace Hil

open Json (Text)

/-! ### Strings -/

theorem lexEscape_iff {e c : Char} : lexEscape e = some c ↔ (e, c) ∈ simpleEscapes := by
  constructor
  · intro h
    unfold lexEscape at h
    split at h
    all_goals cases h
    all_goals simp [simpleEscapes]
  · intro h
    simp only [simpleEscapes, List.mem_cons, Prod.mk.injEq, List.not_mem_nil, or_false] at h
    rcases h with ⟨rfl, rfl⟩ | ⟨rfl, rfl⟩ | ⟨rfl, rfl⟩ | ⟨rfl, rfl⟩ | ⟨rfl, rfl⟩ | ⟨rfl, rfl⟩ |
      ⟨rfl, rfl⟩ | ⟨rfl, rfl⟩
    all_goals rfl

/-- What the buffer holds after one more character, and whether it was too long. -/
def Lexed.push (cap : ℕ) (out : Text) (tooLong : Bool) (c : Char) : Text × Bool :=
  if out.length + 1 ≥ cap then (out, true) else (out ++ [c], tooLong)

/-- A character more: the buffer still fits, and what it holds in the end is not changed. -/
theorem Lexed.push_spec {cap : ℕ} {out : Text} (hout : out.length ≤ cap - 1) (tooLong : Bool)
    (c : Char) (s : Text) :
    (push cap out tooLong c).1.length ≤ cap - 1 ∧
      ((push cap out tooLong c).1 ++ s).take (cap - 1) = (out ++ c :: s).take (cap - 1) ∧
      ((push cap out tooLong c).2 ||
          decide (cap - 1 < (push cap out tooLong c).1.length + s.length)) =
        (tooLong || decide (cap - 1 < out.length + (c :: s).length)) := by
  unfold push
  split_ifs with hfull
  · have hlen : out.length = cap - 1 := by omega
    have hover : cap - 1 < out.length + (c :: s).length := by
      rw [List.length_cons]
      omega
    refine ⟨hout, ?_, ?_⟩
    · rw [← hlen, List.take_left, List.take_left]
    · simp only [hover, decide_true, Bool.or_true, Bool.true_or]
  · have hlen : (out ++ [c]).length = out.length + 1 := by simp
    refine ⟨by rw [hlen]; omega, by rw [List.append_assoc]; rfl, ?_⟩
    dsimp only
    rw [hlen, List.length_cons, Nat.add_assoc, Nat.add_comm 1]

theorem lexChars_plain_cons {cap : ℕ} {c : Char} (hlow : 0x20 ≤ c.toNat) (hquote : c ≠ '\"')
    (hslash : c ≠ '\\') (t out : Text) (tooLong : Bool) :
    lexChars cap (c :: t) out tooLong =
      lexChars cap t (Lexed.push cap out tooLong c).1 (Lexed.push cap out tooLong c).2 := by
  rw [lexChars.eq_def]
  dsimp only
  rw [if_neg (Nat.not_lt.2 hlow), if_neg hquote, if_neg hslash, Lexed.push]
  split_ifs <;> rfl

theorem lexChars_escape_cons {cap : ℕ} {e c : Char} (he : lexEscape e = some c) (t out : Text)
    (tooLong : Bool) :
    lexChars cap ('\\' :: e :: t) out tooLong =
      lexChars cap t (Lexed.push cap out tooLong c).1 (Lexed.push cap out tooLong c).2 := by
  rw [lexChars.eq_def]
  dsimp only
  rw [if_neg (by decide), if_neg (by decide), if_pos rfl, he, Lexed.push]
  dsimp only
  split_ifs <;> rfl

theorem lexChars_body {cap : ℕ} {raw s : Text} (h : StringBody raw s) (rest out : Text)
    (tooLong : Bool) (hout : out.length ≤ cap - 1) :
    lexChars cap (raw ++ '\"' :: rest) out tooLong =
      .ok ⟨(out ++ s).take (cap - 1), tooLong || decide (cap - 1 < out.length + s.length),
        rest⟩ := by
  induction h generalizing out tooLong with
  | nil =>
    rw [List.nil_append, lexChars.eq_def]
    dsimp only
    rw [if_neg (by decide), if_pos rfl, List.append_nil, List.take_of_length_le hout]
    simp only [List.length_nil, Nat.add_zero, Nat.not_lt.2 hout, decide_false, Bool.or_false]
  | @plain c raw s hlow hquote hslash _ ih =>
    obtain ⟨hlen, htake, hlong⟩ := Lexed.push_spec hout tooLong c s
    rw [List.cons_append, lexChars_plain_cons hlow hquote hslash, ih _ _ hlen, htake, hlong]
  | @escape e c raw s he _ ih =>
    obtain ⟨hlen, htake, hlong⟩ := Lexed.push_spec hout tooLong c s
    rw [List.cons_append, List.cons_append, lexChars_escape_cons (lexEscape_iff.2 he),
      ih _ _ hlen, htake, hlong]

theorem lexChars_sound {cap : ℕ} {t out : Text} {tooLong : Bool} {lexed : Lexed}
    (h : lexChars cap t out tooLong = .ok lexed) :
    ∃ raw s, StringBody raw s ∧ t = raw ++ '\"' :: lexed.rest := by
  fun_induction lexChars cap t out tooLong with
  | case1 | case2 | case4 | case5 => cases h
  | case3 t out tooLong hlow =>
    cases h
    exact ⟨[], [], .nil, rfl⟩
  | case6 out tooLong e t c he hfull hlow hquote ih
  | case7 out tooLong e t c he hfull hlow hquote ih =>
    obtain ⟨raw, s, hbody, rfl⟩ := ih h
    exact ⟨_, _, .escape (lexEscape_iff.1 he) hbody, rfl⟩
  | case8 c t out tooLong hlow hquote hslash hfull ih
  | case9 c t out tooLong hlow hquote hslash hfull ih =>
    obtain ⟨raw, s, hbody, rfl⟩ := ih h
    exact ⟨_, _, .plain (Nat.not_lt.1 hlow) hquote hslash hbody, rfl⟩

/-- A string is taken if and only if the grammar has it; the buffer holds what fits of its text. -/
theorem lexStringBounded_iff {cap : ℕ} {t : Text} {lexed : Lexed} :
    lexStringBounded cap t = .ok lexed ↔
      ∃ key s, IsString key s ∧ t = key ++ lexed.rest ∧ lexed.out = s.take (cap - 1) ∧
        lexed.tooLong = decide (cap - 1 < s.length) := by
  constructor
  · intro h
    unfold lexStringBounded at h
    split at h
    · rename_i t
      obtain ⟨raw, s, hbody, rfl⟩ := lexChars_sound h
      have hlex := @lexChars_body cap raw s hbody lexed.rest [] false (Nat.zero_le _)
      rw [h] at hlex
      have heq := Except.ok.inj hlex
      refine ⟨_, s, ⟨raw, hbody, rfl⟩, by simp, ?_, ?_⟩
      · rw [heq]
        rfl
      · rw [heq]
        simp
    · cases h
  · rintro ⟨_, s, ⟨raw, hbody, rfl⟩, rfl, hout, hlong⟩
    have hlex := @lexChars_body cap raw s hbody lexed.rest [] false (Nat.zero_le _)
    obtain ⟨out, tooLong, rest⟩ := lexed
    dsimp only at hout hlong hlex ⊢
    subst hout hlong
    simpa [lexStringBounded] using hlex

/-! ### Integers -/

/-- The input does not go on with a digit. -/
def noDigit : Text → Bool
  | [] => true
  | c :: _ => !c.isDigit

theorem noDigit_of_afterUint {rest : Text} (h : afterUint rest = true) : noDigit rest = true := by
  cases rest with
  | nil => rfl
  | cons c rest =>
    simp only [afterUint, Json.isWs, Bool.or_eq_true, decide_eq_true_eq] at h
    rcases h with (rfl | rfl) | (((rfl | rfl) | rfl) | rfl)
    all_goals rfl

theorem le_ofDigitChars (ds : Text) (n : ℕ) : n ≤ Nat.ofDigitChars 10 ds n := by
  induction ds generalizing n with
  | nil => simp
  | cons c ds ih =>
    have hnext := ih (10 * n + (c.toNat - '0'.toNat))
    rw [Nat.ofDigitChars_cons]
    omega

theorem lexUint_room {c : Char} (hc : c.isDigit = true) (acc : ℕ) :
    ¬acc > (2 ^ 64 - 1 - (c.toNat - '0'.toNat)) / 10 ↔
      acc * 10 + (c.toNat - '0'.toNat) < 2 ^ 64 := by
  have hdigit := Char.isDigit_iff_toNat.1 hc
  have hzero : '0'.toNat = 48 := rfl
  have hnine : '9'.toNat = 57 := rfl
  omega

/-- The digits up to the first character that is none, and their value. -/
theorem lexUint_iff {s rest : Text} {acc n : ℕ} (hacc : acc < 2 ^ 64) :
    lexUint s acc = .ok (n, rest) ↔
      ∃ ds, (∀ c ∈ ds, c.isDigit = true) ∧ s = ds ++ rest ∧ noDigit rest = true ∧
        n = Nat.ofDigitChars 10 ds acc ∧ n < 2 ^ 64 := by
  induction s generalizing acc with
  | nil =>
    constructor
    · intro h
      cases h
      exact ⟨[], fun _ h => absurd h List.not_mem_nil, rfl, rfl, rfl, hacc⟩
    · rintro ⟨ds, -, hs, -, rfl, -⟩
      obtain ⟨rfl, rfl⟩ := List.append_eq_nil_iff.1 hs.symm
      rfl
  | cons c s ih =>
    constructor
    · intro h
      rw [lexUint] at h
      dsimp only at h
      split_ifs at h with hc hover
      · have hnext := (lexUint_room hc acc).1 hover
        obtain ⟨ds, hds, rfl, hrest, hn, hlt⟩ := (ih hnext).1 h
        refine ⟨c :: ds, List.forall_mem_cons.2 ⟨hc, hds⟩, rfl, hrest, ?_, hlt⟩
        rw [hn, Nat.ofDigitChars_cons, Nat.mul_comm]
      · cases h
        exact ⟨[], fun _ h => absurd h List.not_mem_nil, rfl, by simpa [noDigit] using hc, rfl,
          hacc⟩
    · rintro ⟨ds, hds, hs, hrest, hn, hlt⟩
      cases ds with
      | nil =>
        rw [List.nil_append] at hs
        subst hs hn
        have hc : c.isDigit = false := by simpa [noDigit] using hrest
        rw [lexUint, hc]
        rfl
      | cons d ds =>
        obtain ⟨rfl, rfl⟩ := List.cons.inj hs
        obtain ⟨hc, hds⟩ := List.forall_mem_cons.1 hds
        rw [Nat.ofDigitChars_cons, Nat.mul_comm] at hn
        -- the value only grows with further digits
        have hle := le_ofDigitChars ds (acc * 10 + (c.toNat - '0'.toNat))
        have hnext : acc * 10 + (c.toNat - '0'.toNat) < 2 ^ 64 :=
          Nat.lt_of_le_of_lt (hn ▸ hle) hlt
        have hfit := (lexUint_room hc acc).2 hnext
        rw [lexUint, if_pos hc]
        dsimp only
        rw [if_neg hfit]
        exact (ih hnext).2 ⟨ds, hds, rfl, hrest, hn, hlt⟩

theorem digitChar_digit {c : Char} (hc : c.isDigit = true) :
    (c.toNat - '0'.toNat).digitChar = c := by
  have hdigit := Char.isDigit_iff_toNat.1 hc
  have hzero : '0'.toNat = 48 := rfl
  have hnine : '9'.toNat = 57 := rfl
  rw [← Char.toNat_inj, Nat.toNat_digitChar_of_lt_ten (by omega)]
  omega

theorem leadingZero_singleton (c : Char) : leadingZero [c] = false := by
  simp [leadingZero]

theorem leadingZero_cons_cons (c d : Char) (s : Text) :
    leadingZero (c :: d :: s) = (decide (c = '0') && d.isDigit) := by
  by_cases hc : c = '0'
  · rw [hc]
    rfl
  · rw [decide_eq_false hc, Bool.false_and]
    unfold leadingZero
    split
    · rename_i heq
      exact absurd (List.cons.inj heq).1 hc
    · rfl

/-- Digits without a leading zero are the decimal of their value. -/
theorem toDigits_ofDigitChars {ds : Text} (hds : ∀ c ∈ ds, c.isDigit = true) (hne : ds ≠ [])
    (hzero : leadingZero ds = false) : Nat.toDigits 10 (Nat.ofDigitChars 10 ds 0) = ds := by
  induction ds using List.reverseRecOn with
  | nil => exact absurd rfl hne
  | append_singleton ds d ih =>
    have hd := hds d (List.mem_append_right ds List.mem_cons_self)
    have hbase : d.toNat - '0'.toNat < 10 := by
      have hdigit := Char.isDigit_iff_toNat.1 hd
      have hzero : '0'.toNat = 48 := rfl
      have hnine : '9'.toNat = 57 := rfl
      omega
    rw [Nat.ofDigitChars_append, Nat.ofDigitChars_cons, Nat.ofDigitChars_nil]
    by_cases hnil : ds = []
    · rw [hnil, Nat.ofDigitChars_nil, Nat.mul_zero, Nat.zero_add, Nat.toDigits_of_lt_base hbase,
        digitChar_digit hd]
      rfl
    · have hinit : leadingZero ds = false := by
        match ds with
        | [] => rfl
        | [c] => exact leadingZero_singleton c
        | c :: e :: ds =>
          have hhead := (leadingZero_cons_cons c e (ds ++ [d])).symm.trans hzero
          exact (leadingZero_cons_cons c e ds).trans hhead
      have hds' := ih (fun c hc => hds c (List.mem_append_left _ hc)) hnil hinit
      -- a value of zero would have the decimal `0`, and a digit stands behind it
      have hpos : Nat.ofDigitChars 10 ds 0 ≠ 0 := by
        intro h
        rw [h, Nat.toDigits_zero] at hds'
        rw [← hds'] at hzero
        simp [leadingZero, hd] at hzero
      generalize hv : Nat.ofDigitChars 10 ds 0 = v at *
      rw [Nat.toDigits_of_base_le (by decide) (by omega)]
      have hdiv : (10 * v + (d.toNat - '0'.toNat)) / 10 = v := by omega
      have hmod : (10 * v + (d.toNat - '0'.toNat)) % 10 = d.toNat - '0'.toNat := by omega
      rw [hdiv, hmod, hds', digitChar_digit hd]

/-! ### Values -/

theorem leadingZero_append {ds rest : Text} (hne : ds ≠ []) (hrest : noDigit rest = true) :
    leadingZero (ds ++ rest) = leadingZero ds := by
  match ds, rest with
  | [], _ => exact absurd rfl hne
  | [c], [] => rfl
  | [c], d :: rest =>
    have hd : d.isDigit = false := by simpa [noDigit] using hrest
    rw [leadingZero_singleton]
    exact (leadingZero_cons_cons c d rest).trans (by rw [hd, Bool.and_false])
  | c :: d :: ds, rest =>
    rw [leadingZero_cons_cons]
    exact leadingZero_cons_cons c d (ds ++ rest)

theorem leadingZero_decimal (n : ℕ) : leadingZero (Nat.toDigits 10 n) = false := by
  rcases Json.toDigits_cases n with hn | ⟨c, ds, hn, hc⟩
  · rw [hn]
    rfl
  · rw [hn]
    match ds with
    | [] => exact leadingZero_singleton c
    | d :: ds => rw [leadingZero_cons_cons, decide_eq_false hc, Bool.false_and]

theorem parseValue_quote (s : Text) :
    parseValue ('\"' :: s) = (do
      let lexed ← lexStringBounded stringBuffer ('\"' :: s)
      if lexed.tooLong then .error .range else .ok (.string lexed.out, lexed.rest)) := rfl

theorem parseValue_digit {c : Char} (hc : c.isDigit = true) (s : Text) :
    parseValue (c :: s) = if leadingZero (c :: s) then .error .syntaxError
      else (do
        let (n, s) ← lexUint (c :: s) 0
        if afterUint s then .ok (.uint n, s) else .error .syntaxError) := by
  have hother : ∀ d : Char, d.isDigit = false → c ≠ d := by
    rintro d hd rfl
    rw [hc] at hd
    cases hd
  unfold parseValue
  dsimp only
  rw [if_neg (hother '\"' (by decide)), if_neg (hother '\x7b' (by decide)),
    if_neg (hother '[' (by decide)), if_neg (hother 't' (by decide)),
    if_neg (hother 'f' (by decide)), if_neg (hother 'n' (by decide)), if_pos hc]

/-- A value that no key of a command takes. -/
def HilValue.isOther : HilValue → Bool
  | string _ | uint _ => false
  | object | array | bool | null => true

theorem bind_ok {α β : Type} {x : Except ParseError α} {f : α → Except ParseError β} {b : β}
    (h : x >>= f = .ok b) : ∃ a, x = .ok a ∧ f a = .ok b := by
  cases x with
  | error e => cases h
  | ok a => exact ⟨a, rfl, h⟩

theorem map_eq_ok {α β : Type} {x : Except ParseError α} {f : α → β} {b : β}
    (h : x.map f = .ok b) : ∃ a, x = .ok a ∧ f a = b := by
  cases x with
  | error e => cases h
  | ok a => exact ⟨a, rfl, Except.ok.inj h⟩

/-- Only a quote begins a string and only a digit an integer. -/
theorem parseValue_other {c : Char} {s rest : Text} {v : HilValue} (hquote : c ≠ '\"')
    (hdigit : ¬c.isDigit = true) (h : parseValue (c :: s) = .ok (v, rest)) :
    v.isOther = true := by
  unfold parseValue at h
  dsimp only at h
  rw [if_neg hquote, if_neg hdigit] at h
  split_ifs at h
  all_goals
    obtain ⟨a, -, ha⟩ := map_eq_ok h
    cases ha
    rfl

/-- An integer is taken if and only if it is canonical, fits 64 bits and stands alone. -/
theorem parseValue_uint_iff {t rest : Text} {n : ℕ} :
    parseValue t = .ok (.uint n, rest) ↔
      t = Nat.toDigits 10 n ++ rest ∧ n < 2 ^ 64 ∧ afterUint rest = true := by
  constructor
  · intro h
    cases t with
    | nil => cases h
    | cons c s =>
      by_cases hquote : c = '\"'
      · rw [hquote, parseValue_quote] at h
        obtain ⟨lexed, -, h⟩ := bind_ok h
        split_ifs at h
        cases h
      · by_cases hc : c.isDigit = true
        swap
        · exact absurd (parseValue_other hquote hc h) Bool.false_ne_true
        · rw [parseValue_digit hc] at h
          split_ifs at h with hzero
          obtain ⟨⟨m, s'⟩, hlex, h⟩ := bind_ok h
          dsimp only at h
          split_ifs at h with hafter
          cases h
          obtain ⟨ds, hds, hs, hrest, hn, hlt⟩ := (lexUint_iff (by decide)).1 hlex
          have hne : ds ≠ [] := by
            rintro rfl
            rw [List.nil_append] at hs
            rw [← hs] at hrest
            simp [noDigit, hc] at hrest
          rw [hs, leadingZero_append hne hrest, Bool.not_eq_true] at hzero
          rw [hs, hn, toDigits_ofDigitChars hds hne hzero]
          exact ⟨rfl, hn ▸ hlt, hafter⟩
  · rintro ⟨rfl, hn, hafter⟩
    obtain ⟨c, ds, hds⟩ := List.exists_cons_of_ne_nil (Nat.toDigits_ne_nil (n := n) (b := 10))
    have hdigits : ∀ d ∈ Nat.toDigits 10 n, d.isDigit = true := fun d => Json.isDigit_toDigits
    have hrest := noDigit_of_afterUint hafter
    have hzero : leadingZero (Nat.toDigits 10 n ++ rest) = false := by
      rw [leadingZero_append Nat.toDigits_ne_nil hrest, leadingZero_decimal]
    have hlex : lexUint (Nat.toDigits 10 n ++ rest) 0 = .ok (n, rest) :=
      (lexUint_iff (by decide)).2
        ⟨_, hdigits, rfl, hrest, Nat.ofDigitChars_ten_toDigits.symm, hn⟩
    have hc : c.isDigit = true := hdigits c (hds ▸ List.mem_cons_self)
    rw [hds, List.cons_append] at hlex hzero ⊢
    rw [parseValue_digit hc, hzero, hlex]
    simp [bind, Except.bind, hafter]

/-- A string is taken if and only if the grammar has it and its text fits the buffer. -/
theorem parseValue_string_iff {t rest s : Text} :
    parseValue t = .ok (.string s, rest) ↔
      ∃ key, IsString key s ∧ t = key ++ rest ∧ s.length < stringBuffer := by
  constructor
  · intro h
    cases t with
    | nil => cases h
    | cons c t =>
      by_cases hquote : c = '\"'
      · rw [hquote, parseValue_quote] at h
        obtain ⟨lexed, hlex, h⟩ := bind_ok h
        split_ifs at h with hlong
        cases h
        obtain ⟨key, s, hkey, ht, hout, hfit⟩ := lexStringBounded_iff.1 hlex
        have hlen : s.length ≤ stringBuffer - 1 := by
          rw [hfit, decide_eq_true_eq] at hlong
          exact Nat.not_lt.1 hlong
        rw [hout, List.take_of_length_le hlen, hquote]
        exact ⟨key, hkey, ht, Nat.lt_of_le_pred (by decide) hlen⟩
      · by_cases hc : c.isDigit = true
        swap
        · exact absurd (parseValue_other hquote hc h) Bool.false_ne_true
        · rw [parseValue_digit hc] at h
          split_ifs at h
          obtain ⟨p, -, h⟩ := bind_ok h
          dsimp only at h
          split_ifs at h
          cases h
  · rintro ⟨key, ⟨raw, hbody, rfl⟩, rfl, hlen⟩
    have hlen' : s.length ≤ stringBuffer - 1 := Nat.le_pred_of_lt hlen
    have hlex : lexStringBounded stringBuffer ('\"' :: (raw ++ ['\"']) ++ rest) =
        .ok ⟨s, false, rest⟩ :=
      lexStringBounded_iff.2 ⟨_, s, ⟨raw, hbody, rfl⟩, rfl,
        (List.take_of_length_le hlen').symm, (decide_eq_false (Nat.not_lt.2 hlen')).symm⟩
    rw [List.cons_append] at hlex ⊢
    rw [parseValue_quote, hlex]
    rfl

end Hil

end LeAudioReceiver
