import LeAudioReceiver.Hil.Cursor
import LeAudioReceiver.Hil.Accepts

/-!
# The parser with its reads does what the parser does

Every function of the parser with its reads, at a position of the buffer, against the function of
the same name on what follows the position.

* `Hil.Cursor.validateValue_refines` : the nested validation, on a stack with room for 34 calls.
* `Hil.Cursor.parse_refines` : **the parser reads no byte at or beyond the length, ends, stays
  within that room, and has the result of the model without reads.**
-/

namespace LeAudioReceiver

namespace Hil

open Json (Text)

namespace Cursor

/-! ### Refinement -/

/-- The same error, or results that agree; never a fault. -/
def Refines {β γ : Type} (R : β → γ → Prop) : Except Stop β → Except ParseError γ → Prop
  | .ok b, .ok c => R b c
  | .error (.fail e), .error e' => e = e'
  | _, _ => False

theorem Refines.cases {β γ δ ε : Type} {R : β → γ → Prop} {S : δ → ε → Prop} {x : Except Stop β}
    {y : Except ParseError γ} {f : β → Except Stop δ} {z : Except ParseError ε}
    (h : Refines R x y) (herror : ∀ e, y = .error e → z = .error e)
    (hok : ∀ b c, R b c → y = .ok c → Refines S (f b) z) : Refines S (x >>= f) z := by
  match x, y with
  | .ok b, .ok c => exact hok b c h rfl
  | .error (.fail e), .error e' =>
    rw [herror e' rfl]
    exact h
  | .error (.fault f), .error e' => exact h.elim
  | .error (.fault f), .ok c => exact h.elim
  | .error (.fail e), .ok c => exact h.elim
  | .ok b, .error e => exact h.elim

theorem Refines.bind {β γ δ ε : Type} {R : β → γ → Prop} {S : δ → ε → Prop} {x : Except Stop β}
    {y : Except ParseError γ} {f : β → Except Stop δ} {g : γ → Except ParseError ε}
    (h : Refines R x y) (hfg : ∀ b c, R b c → Refines S (f b) (g c)) :
    Refines S (x >>= f) (y >>= g) := by
  refine h.cases (fun e he => ?_) fun b c hR hc => ?_
  · rw [he]
    rfl
  · rw [hc]
    exact hfg b c hR

theorem Refines.map {β γ δ ε : Type} {R : β → γ → Prop} {S : δ → ε → Prop} {x : Except Stop β}
    {y : Except ParseError γ} {f : β → Except Stop δ} {g : γ → ε} (h : Refines R x y)
    (hfg : ∀ b c, R b c → Refines S (f b) (.ok (g c))) : Refines S (x >>= f) (y.map g) := by
  have hbind := h.bind (g := fun c => .ok (g c)) hfg
  cases y <;> exact hbind

theorem Refines.mono {β γ : Type} {R S : β → γ → Prop} {x : Except Stop β}
    {y : Except ParseError γ} (h : Refines R x y) (hRS : ∀ b c, R b c → S b c) :
    Refines S x y := by
  match x, y with
  | .ok b, .ok c => exact hRS b c h
  | .error (.fail e), .error e' => exact h
  | .error (.fault f), .error e' => exact h.elim
  | .error (.fault f), .ok c => exact h.elim
  | .error (.fail e), .ok c => exact h.elim
  | .ok b, .error e => exact h.elim

theorem Refines.mapRight {β γ ε : Type} {R : β → γ → Prop} {S : β → ε → Prop} {x : Except Stop β}
    {y : Except ParseError γ} {g : γ → ε} (h : Refines R x y) (hRS : ∀ b c, R b c → S b (g c)) :
    Refines S x (y.map g) := by
  have hmono : Refines (fun b c => S b (g c)) x y := h.mono hRS
  match x, y with
  | .ok b, .ok c => exact hmono
  | .error (.fail e), .error e' => exact hmono
  | .error (.fault f), .error e' => exact hmono
  | .error (.fault f), .ok c => exact hmono
  | .error (.fail e), .ok c => exact hmono
  | .ok b, .error e => exact hmono

theorem ok_bind {β γ : Type} (b : β) (f : β → Except Stop γ) : (Except.ok b >>= f) = f b := rfl

variable {buf : Text}

/-- The position is `pos`, not before `k`, and `s` is what follows it. -/
structure At (buf : Text) (k pos : ℕ) (s : Text) : Prop where
  le : k ≤ pos
  bound : pos ≤ buf.length
  drop : buf.drop pos = s

namespace At

variable {k pos : ℕ} {s : Text} {c : Char}

theorem length (h : At buf k pos s) : pos + s.length = buf.length := by
  have hlen := congrArg List.length h.drop
  have hbound := h.bound
  rw [List.length_drop] at hlen
  omega

theorem nil (h : At buf k pos []) : buf.length ≤ pos := by
  rw [← h.length, List.length_nil, Nat.add_zero]

theorem lt (h : At buf k pos (c :: s)) : pos < buf.length := by
  have hlen := h.length
  rw [List.length_cons] at hlen
  omega

theorem byteAt (h : At buf k pos (c :: s)) : byteAt buf pos = .ok c := by
  have hget : buf[pos]? = some c := by
    rw [← List.head?_drop, h.drop]
    rfl
  rw [Cursor.byteAt, hget]

theorem tail (h : At buf k pos (c :: s)) : At buf (pos + 1) (pos + 1) s := by
  refine ⟨Nat.le_refl _, h.lt, ?_⟩
  rw [← List.drop_drop, h.drop]
  rfl

theorem mono {j : ℕ} (h : At buf k pos s) (hj : j ≤ k) : At buf j pos s :=
  ⟨Nat.le_trans hj h.le, h.bound, h.drop⟩

theorem self (h : At buf k pos s) : At buf pos pos s := ⟨Nat.le_refl _, h.bound, h.drop⟩

end At

/-! ### The lexer -/

/-- A loop over bytes ends at the first that is none of them, or at the end. -/
theorem skipWhile_spec (p : Char → Bool) {fuel k pos : ℕ} {s : Text} (h : At buf k pos s)
    (hfuel : s.length < fuel) :
    ∃ pos', skipWhile buf p fuel pos = .ok pos' ∧ At buf pos pos' (s.dropWhile p) := by
  induction fuel generalizing k pos s with
  | zero => exact absurd hfuel (Nat.not_lt_zero _)
  | succ fuel ih =>
    cases s with
    | nil =>
      rw [skipWhile, if_neg (Nat.not_lt.2 h.nil)]
      exact ⟨pos, rfl, h.self⟩
    | cons c s =>
      rw [skipWhile, if_pos h.lt, h.byteAt, ok_bind, List.dropWhile_cons]
      split_ifs with hc
      · obtain ⟨pos', hpos, hat⟩ := ih h.tail (Nat.lt_of_succ_lt_succ hfuel)
        exact ⟨pos', hpos, hat.mono (Nat.le_succ pos)⟩
      · exact ⟨pos, rfl, h.self⟩

theorem At.fuel {k pos : ℕ} {s : Text} (h : At buf k pos s) : s.length < buf.length + 1 := by
  have hlen := h.length
  omega

theorem skipWs_spec {k pos : ℕ} {s : Text} (h : At buf k pos s) :
    ∃ pos', skipWs buf pos = .ok pos' ∧ At buf pos pos' (Json.skipWs s) :=
  skipWhile_spec Json.isWs h h.fuel

theorem skipDigits_first {k pos : ℕ} {c : Char} {s : Text} (h : At buf k pos (c :: s))
    (hc : c.isDigit = true) :
    ∃ pos', skipDigits buf pos = .ok pos' ∧ At buf (pos + 1) pos' (s.dropWhile Char.isDigit) := by
  have hlen := h.length
  rw [List.length_cons] at hlen
  rw [skipDigits, skipWhile, if_pos h.lt, h.byteAt, ok_bind, if_pos hc]
  exact skipWhile_spec Char.isDigit h.tail (by omega)

theorem lexChars_refines {cap fuel k pos : ℕ} {s out : Text} {tooLong : Bool}
    (h : At buf k pos s) (hfuel : s.length < fuel) :
    Refines (fun b l => b.1 = (l.out, l.tooLong) ∧ At buf (pos + 1) b.2 l.rest)
      (lexChars buf cap fuel pos out tooLong) (Hil.lexChars cap s out tooLong) := by
  induction fuel generalizing k pos s out tooLong with
  | zero => exact absurd hfuel (Nat.not_lt_zero _)
  | succ fuel ih =>
    have hlater : ∀ {s' : Text} {out : Text} {tooLong : Bool} {j : ℕ}, pos < j →
        At buf j j s' → s'.length < fuel →
        Refines (fun b l => b.1 = (l.out, l.tooLong) ∧ At buf (pos + 1) b.2 l.rest)
          (lexChars buf cap fuel j out tooLong) (Hil.lexChars cap s' out tooLong) :=
      fun hj hat hlen => (ih hat hlen).mono fun _ _ hR =>
        ⟨hR.1, hR.2.mono (Nat.succ_le_succ (Nat.le_of_lt hj))⟩
    cases s with
    | nil =>
      rw [lexChars, if_neg (Nat.not_lt.2 h.nil), Hil.lexChars.eq_def]
      rfl
    | cons c s =>
      rw [List.length_cons] at hfuel
      rw [lexChars, if_pos h.lt, h.byteAt, ok_bind, Hil.lexChars.eq_def]
      dsimp only
      by_cases hlow : c.toNat < 0x20
      · rw [if_pos hlow, if_pos hlow]
        rfl
      rw [if_neg hlow, if_neg hlow]
      by_cases hquote : c = '\"'
      · rw [if_pos hquote, if_pos hquote]
        exact ⟨rfl, h.tail⟩
      rw [if_neg hquote, if_neg hquote]
      by_cases hslash : c = '\\'
      · rw [if_pos hslash, if_pos hslash]
        cases s with
        | nil =>
          rw [if_pos h.tail.nil]
          rfl
        | cons e s =>
          rw [if_neg (Nat.not_le.2 h.tail.lt), h.tail.byteAt, ok_bind]
          dsimp only
          cases lexEscape e with
          | none => rfl
          | some c =>
            dsimp only
            rw [List.length_cons] at hfuel
            have hnext := h.tail.tail
            split_ifs
            · exact hlater (by omega) hnext (by omega)
            · exact hlater (by omega) hnext (by omega)
      rw [if_neg hslash, if_neg hslash]
      split_ifs
      · exact hlater (by omega) h.tail (by omega)
      · exact hlater (by omega) h.tail (by omega)

theorem expect_refines {β γ : Type} {R : β → γ → Prop} {k pos : ℕ} {s : Text} {x : Except Stop β}
    {y : Except ParseError γ} (d : Char) (h : At buf k pos s)
    (hthere : ∀ t, s = d :: t → Refines R x y)
    (hother : (∀ t, s ≠ d :: t) → y = .error .syntaxError) :
    Refines R
      (if buf.length ≤ pos then fail .syntaxError
        else do if (← byteAt buf pos) ≠ d then fail .syntaxError else x) y := by
  cases s with
  | nil =>
    rw [if_pos h.nil, hother fun _ ht => nomatch ht]
    rfl
  | cons c s =>
    rw [if_neg (Nat.not_le.2 h.lt), h.byteAt, ok_bind]
    by_cases hc : c = d
    · rw [if_neg (not_not.2 hc)]
      exact hthere s (by rw [hc])
    · rw [if_pos hc, hother fun t ht => hc (List.cons.inj ht).1]
      rfl

theorem refuse_refines {β γ : Type} {R : β → γ → Prop} {k pos : ℕ} {s : Text} {x : Except Stop β}
    {y : Except ParseError γ} (d : Char) (h : At buf k pos s)
    (hthere : s = [] ∨ (∃ t, s = d :: t) → y = .error .syntaxError)
    (hother : s ≠ [] → (∀ t, s ≠ d :: t) → Refines R x y) :
    Refines R
      (if buf.length ≤ pos then fail .syntaxError
        else do if (← byteAt buf pos) = d then fail .syntaxError else x) y := by
  cases s with
  | nil =>
    rw [if_pos h.nil, hthere (.inl rfl)]
    rfl
  | cons c s =>
    rw [if_neg (Nat.not_le.2 h.lt), h.byteAt, ok_bind]
    by_cases hc : c = d
    · rw [if_pos hc, hthere (.inr ⟨s, by rw [hc]⟩)]
      rfl
    · rw [if_neg hc]
      exact hother (List.cons_ne_nil c s) fun t ht => hc (List.cons.inj ht).1

theorem comma_refines {β γ : Type} {R : β → γ → Prop} {k pos : ℕ} {s : Text}
    {x x' : Except Stop β} {y : Except ParseError γ} (d : Char) (h : At buf k pos s)
    (hcomma : ∀ t, s = ',' :: t → Refines R x y)
    (hclose : ∀ t, s = d :: t → d ≠ ',' → Refines R x' y)
    (hother : (∀ t, s ≠ ',' :: t) → (∀ t, s ≠ d :: t) → y = .error .syntaxError) :
    Refines R
      (if buf.length ≤ pos then fail .syntaxError
        else do
          let c ← byteAt buf pos
          if c = ',' then x else if c = d then x' else fail .syntaxError) y := by
  cases s with
  | nil =>
    rw [if_pos h.nil, hother (fun _ ht => nomatch ht) fun _ ht => nomatch ht]
    rfl
  | cons c s =>
    rw [if_neg (Nat.not_le.2 h.lt), h.byteAt, ok_bind]
    by_cases hc : c = ','
    · rw [if_pos hc]
      exact hcomma s (by rw [hc])
    rw [if_neg hc]
    by_cases hd : c = d
    · rw [if_pos hd]
      exact hclose s (by rw [hd]) (hd ▸ hc)
    · rw [if_neg hd, hother (fun t ht => hc (List.cons.inj ht).1)
        fun t ht => hd (List.cons.inj ht).1]
      rfl

theorem lexStringBounded_refines {cap k pos : ℕ} {s : Text} (h : At buf k pos s) :
    Refines (fun b l => b.1 = (l.out, l.tooLong) ∧ At buf (pos + 1) b.2 l.rest)
      (lexStringBounded buf cap pos) (Hil.lexStringBounded cap s) := by
  refine expect_refines '\"' h (fun t ht => ?_) (fun hne => ?_)
  · subst ht
    refine (lexChars_refines h.tail h.tail.fuel).mono fun _ _ hR => ?_
    exact ⟨hR.1, hR.2.mono (Nat.le_succ _)⟩
  · unfold Hil.lexStringBounded
    split
    · rename_i t
      exact absurd rfl (hne t)
    · rfl

theorem skipChars_refines {fuel k pos : ℕ} {s out : Text} {tooLong : Bool} (h : At buf k pos s)
    (hfuel : s.length < fuel) :
    Refines (fun b l => At buf (pos + 1) b l.rest) (skipChars buf fuel pos)
      (Hil.lexChars 0 s out tooLong) := by
  induction fuel generalizing k pos s out tooLong with
  | zero => exact absurd hfuel (Nat.not_lt_zero _)
  | succ fuel ih =>
    have hlater : ∀ {s' : Text} {out : Text} {tooLong : Bool} {j : ℕ}, pos < j →
        At buf j j s' → s'.length < fuel →
        Refines (fun b l => At buf (pos + 1) b l.rest) (skipChars buf fuel j)
          (Hil.lexChars 0 s' out tooLong) :=
      fun hj hat hlen => (ih hat hlen).mono fun _ _ hR =>
        hR.mono (Nat.succ_le_succ (Nat.le_of_lt hj))
    cases s with
    | nil =>
      rw [skipChars, if_neg (Nat.not_lt.2 h.nil), Hil.lexChars.eq_def]
      rfl
    | cons c s =>
      rw [List.length_cons] at hfuel
      rw [skipChars, if_pos h.lt, h.byteAt, ok_bind, Hil.lexChars.eq_def]
      dsimp only
      by_cases hlow : c.toNat < 0x20
      · rw [if_pos hlow, if_pos hlow]
        rfl
      rw [if_neg hlow, if_neg hlow]
      by_cases hquote : c = '\"'
      · rw [if_pos hquote, if_pos hquote]
        exact h.tail
      rw [if_neg hquote, if_neg hquote]
      by_cases hslash : c = '\\'
      · rw [if_pos hslash, if_pos hslash]
        cases s with
        | nil =>
          rw [if_pos h.tail.nil]
          rfl
        | cons e s =>
          rw [if_neg (Nat.not_le.2 h.tail.lt), h.tail.byteAt, ok_bind]
          dsimp only
          cases lexEscape e with
          | none => rfl
          | some c =>
            dsimp only
            rw [List.length_cons] at hfuel
            rw [if_pos (Nat.zero_le _)]
            exact hlater (by omega) h.tail.tail (by omega)
      rw [if_neg hslash, if_neg hslash, if_pos (Nat.zero_le _)]
      exact hlater (by omega) h.tail (by omega)

theorem lexStringSkip_refines {k pos : ℕ} {s : Text} (h : At buf k pos s) :
    Refines (At buf (pos + 1)) (lexStringSkip buf pos) (Hil.lexStringSkip s) := by
  refine expect_refines '\"' h (fun t ht => ?_) (fun hne => ?_)
  · subst ht
    exact (skipChars_refines h.tail h.tail.fuel).mapRight fun _ _ hR => hR.mono (Nat.le_succ _)
  · unfold Hil.lexStringSkip Hil.lexStringBounded
    split
    · rename_i t
      exact absurd rfl (hne t)
    · rfl

/-! ### Numbers and literals -/

theorem lexDigits_refines {k pos : ℕ} {s : Text} (h : At buf k pos s) :
    Refines (At buf (pos + 1)) (lexDigits buf pos) (Hil.lexDigits s) := by
  cases s with
  | nil =>
    rw [lexDigits, if_pos h.nil]
    rfl
  | cons c s =>
    rw [lexDigits, if_neg (Nat.not_le.2 h.lt), h.byteAt, ok_bind, Hil.lexDigits]
    cases hc : c.isDigit with
    | false => rfl
    | true =>
      obtain ⟨pos', hskip, hat⟩ := skipDigits_first h hc
      rw [Bool.not_true, if_neg Bool.false_ne_true, hskip]
      exact hat

/-- What is left behind a character that may be there. -/
def dropOptional (p : Char → Bool) : Text → Text
  | [] => []
  | c :: s => if p c then s else c :: s

theorem lexOptional_spec (p : Char → Bool) {k pos : ℕ} {s : Text} (h : At buf k pos s) :
    ∃ pos', lexOptional buf p pos = .ok pos' ∧ At buf pos pos' (dropOptional p s) := by
  cases s with
  | nil =>
    rw [lexOptional, if_neg (Nat.not_lt.2 h.nil)]
    exact ⟨pos, rfl, h.self⟩
  | cons c s =>
    rw [lexOptional, if_pos h.lt, h.byteAt, ok_bind, dropOptional]
    split_ifs with hc
    · exact ⟨pos + 1, rfl, h.tail.mono (Nat.le_succ pos)⟩
    · exact ⟨pos, rfl, h.self⟩

theorem lexMinus_eq (s : Text) : lexMinus s = dropOptional (fun c => c = '-') s := by
  cases s with
  | nil => rfl
  | cons c s =>
    by_cases hc : c = '-'
    · rw [hc]
      rfl
    · unfold lexMinus
      split
      · rename_i heq
        exact absurd (List.cons.inj heq).1 hc
      · simp [dropOptional, hc]

theorem lexSign_eq (s : Text) : lexSign s = dropOptional (fun c => c = '+' || c = '-') s := by
  cases s with
  | nil => rfl
  | cons c s =>
    by_cases hplus : c = '+'
    · rw [hplus]
      rfl
    by_cases hminus : c = '-'
    · rw [hminus]
      rfl
    unfold lexSign
    split
    · rename_i heq
      exact absurd (List.cons.inj heq).1 hplus
    · rename_i heq
      exact absurd (List.cons.inj heq).1 hminus
    · simp [dropOptional, hplus, hminus]

theorem isDigit_of_ne_zero {c : Char} (hc : c ≠ '0') : c.isDigit = true ↔ '1' ≤ c ∧ c ≤ '9' := by
  have hne : c.toNat ≠ 48 := by
    rintro h
    exact hc (Char.toNat_inj.1 h)
  have hone : '1'.toNat = 49 := rfl
  have hzero : '0'.toNat = 48 := rfl
  have hle : ∀ a b : Char, a ≤ b ↔ a.toNat ≤ b.toNat := fun _ _ => Iff.rfl
  rw [Char.isDigit_iff_toNat, hle, hle]
  omega

theorem lexInteger_refines {k pos : ℕ} {s : Text} (h : At buf k pos s) :
    Refines (At buf (pos + 1)) (lexInteger buf pos) (Hil.lexInteger s) := by
  cases s with
  | nil =>
    rw [lexInteger, if_pos h.nil]
    rfl
  | cons c s =>
    rw [lexInteger, if_neg (Nat.not_le.2 h.lt), h.byteAt, ok_bind, Hil.lexInteger]
    by_cases hzero : c = '0'
    · rw [if_pos hzero, if_pos hzero]
      exact h.tail
    · rw [if_neg hzero, if_neg hzero, Hil.lexDigits]
      by_cases hc : c.isDigit = true
      · obtain ⟨pos', hskip, hat⟩ := skipDigits_first h hc
        rw [if_pos ((isDigit_of_ne_zero hzero).1 hc), if_pos hc, hskip]
        exact hat
      · rw [if_neg fun hrange => hc ((isDigit_of_ne_zero hzero).2 hrange), if_neg hc]
        rfl

theorem lexFraction_refines {k pos : ℕ} {s : Text} (h : At buf k pos s) :
    Refines (At buf pos) (lexFraction buf pos) (Hil.lexFraction s) := by
  cases s with
  | nil =>
    rw [lexFraction, if_neg (Nat.not_lt.2 h.nil)]
    exact h.self
  | cons c s =>
    rw [lexFraction, if_pos h.lt, h.byteAt, ok_bind]
    by_cases hc : c = '.'
    · subst hc
      exact (lexDigits_refines h.tail).mono fun _ _ hR => hR.mono (by omega)
    · rw [if_neg hc]
      unfold Hil.lexFraction
      split
      · rename_i heq
        exact absurd (List.cons.inj heq).1 hc
      · exact h.self

theorem lexExponent_refines {k pos : ℕ} {s : Text} (h : At buf k pos s) :
    Refines (At buf pos) (lexExponent buf pos) (Hil.lexExponent s) := by
  cases s with
  | nil =>
    rw [lexExponent, if_neg (Nat.not_lt.2 h.nil)]
    exact h.self
  | cons c s =>
    rw [lexExponent, if_pos h.lt, h.byteAt, ok_bind]
    by_cases hc : c = 'e' ∨ c = 'E'
    · obtain ⟨pos', hskip, hat⟩ := lexOptional_spec (fun c => c = '+' || c = '-') h.tail
      have hlist : Hil.lexExponent (c :: s) = Hil.lexDigits (lexSign s) := by
        rcases hc with rfl | rfl <;> rfl
      rw [if_pos hc, hskip, ok_bind, hlist, lexSign_eq]
      have hle := hat.le
      exact (lexDigits_refines hat).mono fun _ _ hR => hR.mono (by omega)
    · rw [if_neg hc]
      unfold Hil.lexExponent
      split
      · rename_i heq
        exact absurd (.inl (List.cons.inj heq).1) hc
      · rename_i heq
        exact absurd (.inr (List.cons.inj heq).1) hc
      · exact h.self

theorem lexNumberSkip_refines {k pos : ℕ} {s : Text} (h : At buf k pos s) :
    Refines (At buf (pos + 1)) (lexNumberSkip buf pos) (Hil.lexNumberSkip s) := by
  obtain ⟨pos₁, hminus, hat⟩ := lexOptional_spec (fun c => c = '-') h
  have hle := hat.le
  rw [lexNumberSkip, hminus, ok_bind, Hil.lexNumberSkip, lexMinus_eq]
  refine (lexInteger_refines hat).bind fun pos₂ s₂ hat₂ => ?_
  have hle₂ := hat₂.le
  refine (lexFraction_refines hat₂).bind fun pos₃ s₃ hat₃ => ?_
  have hle₃ := hat₃.le
  exact (lexExponent_refines hat₃).mono fun _ _ hR => hR.mono (by omega)

theorem validateLiteral_refines {k pos : ℕ} {s literal : Text} (h : At buf k pos s)
    (hne : literal ≠ []) :
    Refines (At buf (pos + 1)) (validateLiteral buf literal pos)
      (Hil.validateLiteral literal s) := by
  have hlen := h.length
  have hpos := List.length_pos_iff.2 hne
  unfold validateLiteral Hil.validateLiteral
  by_cases hprefix : literal.isPrefixOf s = true
  · obtain ⟨t, rfl⟩ := List.isPrefixOf_iff_prefix.1 hprefix
    rw [List.length_append] at hlen
    have hbytes : bytesAt buf pos literal.length = .ok literal := by
      rw [bytesAt, if_pos (by omega), h.drop, List.take_left]
    rw [if_neg (by omega), hbytes, ok_bind, if_neg (not_not.2 rfl), if_pos hprefix,
      List.drop_left]
    refine ⟨by omega, by omega, ?_⟩
    rw [← List.drop_drop, h.drop, List.drop_left]
  · rw [if_neg hprefix]
    split_ifs with hshort
    · rfl
    · have hbytes : bytesAt buf pos literal.length = .ok (s.take literal.length) := by
        rw [bytesAt, if_pos (by omega), h.drop]
      have hdiffer : s.take literal.length ≠ literal := by
        intro heq
        exact hprefix (List.isPrefixOf_iff_prefix.2 (heq ▸ List.take_prefix _ _))
      rw [hbytes, ok_bind, if_pos hdiffer]
      rfl

/-! ### Nested values -/

/-- What the loops need of the values in them: the texts of at most `n` bytes are validated alike,
whatever fuel beyond the least the model has. -/
def ValueRefines (buf : Text) (value : ℕ → Except Stop ℕ) (depth n : ℕ) : Prop :=
  ∀ {k pos fuel : ℕ} {s : Text}, At buf k pos s → s.length ≤ n → 3 * s.length + 1 ≤ fuel →
    Refines (At buf (pos + 1)) (value pos) (Hil.validateValue fuel depth s)

section

variable {value : ℕ → Except Stop ℕ} {depth n : ℕ}

theorem validateMembers_refines (hvalue : ValueRefines buf value depth n) {loop fuel k pos : ℕ}
    {s : Text} (h : At buf k pos s) (hlen : s.length ≤ n) (hloop : s.length < loop)
    (hfuel : 3 * s.length + 2 ≤ fuel) :
    Refines (At buf (pos + 1)) (validateMembers buf value loop pos)
      (Hil.validateMembers fuel depth s) := by
  -- induction on the iterations left; each takes a key, a colon, a value and a comma or the brace
  induction loop generalizing fuel k pos s with
  | zero => exact absurd hloop (Nat.not_lt_zero _)
  | succ loop ih =>
    obtain ⟨fuel, rfl⟩ := Nat.exists_eq_add_of_le' (Nat.le_trans (Nat.le_add_left 1 _) hfuel)
    have hend := h.length
    rw [validateMembers, Hil.validateMembers]
    by_cases hnil : buf.length ≤ pos
    · have hs : s = [] := List.length_eq_zero_iff.1 (by omega)
      rw [if_pos hnil, hs]
      rfl
    rw [if_neg hnil]
    refine (lexStringSkip_refines h).bind fun pos₁ s₁ h₁ => ?_
    obtain ⟨pos₂, hskip₂, h₂⟩ := skipWs_spec h₁
    rw [hskip₂, ok_bind]
    have hle₁ := h₁.le
    have hle₂ := h₂.le
    generalize Json.skipWs s₁ = t₂ at h₂
    refine expect_refines ':' h₂ (fun t ht => ?_) (fun hne => ?_)
    · subst ht
      simp only
      obtain ⟨pos₃, hskip₃, h₃⟩ := skipWs_spec h₂.tail
      have hle₃ := h₃.le
      have hend₃ := h₃.length
      rw [hskip₃, ok_bind]
      refine (hvalue h₃ (by omega) (by omega)).bind fun pos₄ s₄ h₄ => ?_
      obtain ⟨pos₅, hskip₅, h₅⟩ := skipWs_spec h₄
      have hle₄ := h₄.le
      have hle₅ := h₅.le
      rw [hskip₅, ok_bind]
      generalize Json.skipWs s₄ = t₅ at h₅
      refine comma_refines '\x7d' h₅ (fun t ht => ?_) (fun t ht _ => ?_) (fun hne hne' => ?_)
      · subst ht
        simp only
        obtain ⟨pos₆, hskip₆, h₆⟩ := skipWs_spec h₅.tail
        have hle₆ := h₆.le
        have hend₆ := h₆.length
        rw [hskip₆, ok_bind]
        generalize Json.skipWs t = t₆ at h₆ hend₆
        -- behind a comma another member has to come
        refine refuse_refines '\x7d' h₆ ?_ (fun hne hne' => ?_)
        · rintro (rfl | ⟨t, rfl⟩) <;> rfl
        · have hnext : Refines (At buf (pos₆ + 1)) (validateMembers buf value loop pos₆)
              (Hil.validateMembers fuel depth t₆) :=
            ih h₆ (by omega) (by omega) (by omega)
          split
          · exact absurd rfl hne
          · exact absurd rfl (hne' _)
          · exact hnext.mono fun _ _ hR => hR.mono (by omega)
      · subst ht
        exact h₅.tail.mono (by omega)
      · split
        · exact absurd rfl (hne _)
        · exact absurd rfl (hne' _)
        · rfl
    · split
      · exact absurd rfl (hne _)
      · rfl

theorem validateItems_refines (hvalue : ValueRefines buf value depth n) {loop fuel k pos : ℕ}
    {s : Text} (h : At buf k pos s) (hlen : s.length ≤ n) (hloop : s.length < loop)
    (hfuel : 3 * s.length + 2 ≤ fuel) :
    Refines (At buf (pos + 1)) (validateItems buf value loop pos)
      (Hil.validateItems fuel depth s) := by
  induction loop generalizing fuel k pos s with
  | zero => exact absurd hloop (Nat.not_lt_zero _)
  | succ loop ih =>
    obtain ⟨fuel, rfl⟩ := Nat.exists_eq_add_of_le' (Nat.le_trans (Nat.le_add_left 1 _) hfuel)
    have hend := h.length
    rw [validateItems, Hil.validateItems]
    refine (hvalue h hlen (by omega)).bind fun pos₁ s₁ h₁ => ?_
    obtain ⟨pos₂, hskip₂, h₂⟩ := skipWs_spec h₁
    have hle₁ := h₁.le
    have hle₂ := h₂.le
    rw [hskip₂, ok_bind]
    generalize Json.skipWs s₁ = t₂ at h₂
    refine comma_refines ']' h₂ (fun t ht => ?_) (fun t ht _ => ?_) (fun hne hne' => ?_)
    · subst ht
      simp only
      obtain ⟨pos₃, hskip₃, h₃⟩ := skipWs_spec h₂.tail
      have hle₃ := h₃.le
      have hend₃ := h₃.length
      rw [hskip₃, ok_bind]
      generalize Json.skipWs t = t₃ at h₃ hend₃
      refine refuse_refines ']' h₃ ?_ (fun hne hne' => ?_)
      · rintro (rfl | ⟨t, rfl⟩) <;> rfl
      · have hnext : Refines (At buf (pos₃ + 1)) (validateItems buf value loop pos₃)
            (Hil.validateItems fuel depth t₃) :=
          ih h₃ (by omega) (by omega) (by omega)
        split
        · exact absurd rfl hne
        · exact absurd rfl (hne' _)
        · exact hnext.mono fun _ _ hR => hR.mono (by omega)
    · subst ht
      exact h₂.tail.mono (by omega)
    · split
      · exact absurd rfl (hne _)
      · exact absurd rfl (hne' _)
      · rfl

theorem validateObject_refines (hvalue : ValueRefines buf value depth n) {fuel k pos : ℕ} {c : Char}
    {s : Text} (h : At buf k pos (c :: s)) (hlen : s.length ≤ n) (hfuel : 3 * s.length + 3 ≤ fuel) :
    Refines (At buf (pos + 1)) (validateObject buf value pos)
      (Hil.validateObject fuel depth s) := by
  obtain ⟨fuel, rfl⟩ := Nat.exists_eq_add_of_le' (Nat.le_trans (Nat.le_add_left 1 _) hfuel)
  obtain ⟨pos₁, hskip₁, h₁⟩ := skipWs_spec h.tail
  have hle := h₁.le
  have hend := h.tail.length
  have hend₁ := h₁.length
  rw [validateObject, hskip₁, ok_bind, Hil.validateObject]
  generalize Json.skipWs s = t at h₁ hend₁
  cases t with
  | nil =>
    rw [if_pos h₁.nil]
    rfl
  | cons d t =>
    rw [if_neg (Nat.not_le.2 h₁.lt), h₁.byteAt, ok_bind]
    by_cases hd : d = '\x7d'
    · subst hd
      exact h₁.tail.mono (by omega)
    · have hmembers : Refines (At buf (pos₁ + 1)) (validateMembers buf value (buf.length + 1) pos₁)
          (Hil.validateMembers fuel depth (d :: t)) :=
        validateMembers_refines hvalue h₁ (by omega) h₁.fuel (by omega)
      rw [if_neg hd]
      split
      · rename_i heq
        cases heq
      · rename_i heq
        exact absurd (List.cons.inj heq).1 hd
      · exact hmembers.mono fun _ _ hR => hR.mono (by omega)

theorem validateArray_refines (hvalue : ValueRefines buf value depth n) {fuel k pos : ℕ} {c : Char}
    {s : Text} (h : At buf k pos (c :: s)) (hlen : s.length ≤ n) (hfuel : 3 * s.length + 3 ≤ fuel) :
    Refines (At buf (pos + 1)) (validateArray buf value pos)
      (Hil.validateArray fuel depth s) := by
  obtain ⟨fuel, rfl⟩ := Nat.exists_eq_add_of_le' (Nat.le_trans (Nat.le_add_left 1 _) hfuel)
  obtain ⟨pos₁, hskip₁, h₁⟩ := skipWs_spec h.tail
  have hle := h₁.le
  have hend := h.tail.length
  have hend₁ := h₁.length
  rw [validateArray, hskip₁, ok_bind, Hil.validateArray]
  generalize Json.skipWs s = t at h₁ hend₁
  cases t with
  | nil =>
    rw [if_pos h₁.nil]
    rfl
  | cons d t =>
    rw [if_neg (Nat.not_le.2 h₁.lt), h₁.byteAt, ok_bind]
    by_cases hd : d = ']'
    · subst hd
      exact h₁.tail.mono (by omega)
    · have hitems : Refines (At buf (pos₁ + 1)) (validateItems buf value (buf.length + 1) pos₁)
          (Hil.validateItems fuel depth (d :: t)) :=
        validateItems_refines hvalue h₁ (by omega) h₁.fuel (by omega)
      rw [if_neg hd]
      split
      · rename_i heq
        cases heq
      · rename_i heq
        exact absurd (List.cons.inj heq).1 hd
      · exact hitems.mono fun _ _ hR => hR.mono (by omega)

end

/-- **The nested validation with its reads does what the one without them does, on a stack with room
for the calls of every depth.** -/
theorem validateValue_refines {room depth n : ℕ} (hdepth : depth ≤ jsonMaxDepth + 1)
    (hroom : jsonMaxDepth + 2 ≤ depth + room) :
    ValueRefines buf (validateValue buf room depth) depth n := by
  induction room generalizing depth n with
  | zero => exact absurd (Nat.le_trans hroom hdepth) (by decide)
  | succ room ih =>
    intro k pos fuel s h hlen hfuel
    obtain ⟨fuel, rfl⟩ := Nat.exists_eq_add_of_le' (Nat.le_trans (Nat.le_add_left 1 _) hfuel)
    cases s with
    | nil =>
      rw [validateValue, if_pos h.nil, Hil.validateValue]
      rfl
    | cons c s =>
      rw [List.length_cons] at hlen hfuel
      rw [validateValue, if_neg (Nat.not_le.2 h.lt), Hil.validateValue]
      by_cases hdeep : depth > jsonMaxDepth
      · rw [if_pos hdeep, if_pos hdeep]
        rfl
      have hvalue : ValueRefines buf (validateValue buf room (depth + 1)) (depth + 1) n :=
        ih (by omega) (by omega)
      rw [if_neg hdeep, if_neg hdeep, h.byteAt, ok_bind]
      split_ifs
      · exact lexStringSkip_refines h
      · exact validateObject_refines hvalue h (by omega) (by omega)
      · exact validateArray_refines hvalue h (by omega) (by omega)
      · exact validateLiteral_refines h (by decide)
      · exact validateLiteral_refines h (by decide)
      · exact validateLiteral_refines h (by decide)
      · exact lexNumberSkip_refines h
      · rfl

theorem validateNested_refines {k pos : ℕ} {s : Text} (h : At buf k pos s) :
    Refines (At buf (pos + 1)) (validateValue buf (jsonMaxDepth + 2) 0 pos)
      (Hil.validateNested s) :=
  validateValue_refines (Nat.zero_le _) (by omega) h (Nat.le_refl s.length) (Nat.le_refl _)

/-! ### Values of known keys -/

/-- Results with the same value, at a position and before what follows it. -/
def Gives {α : Type} (buf : Text) (k : ℕ) (b : α × ℕ) (c : α × Text) : Prop :=
  b.1 = c.1 ∧ At buf k b.2 c.2

theorem Gives.mono {α : Type} {j k : ℕ} {b : α × ℕ} {c : α × Text} (h : Gives buf k b c)
    (hj : j ≤ k) : Gives buf j b c := ⟨h.1, h.2.mono hj⟩

theorem lexUint_refines {fuel k pos acc : ℕ} {s : Text} (h : At buf k pos s)
    (hfuel : s.length < fuel) :
    Refines (Gives buf pos) (lexUint buf fuel pos acc) (Hil.lexUint s acc) := by
  induction fuel generalizing k pos s acc with
  | zero => exact absurd hfuel (Nat.not_lt_zero _)
  | succ fuel ih =>
    cases s with
    | nil =>
      rw [lexUint, if_neg (Nat.not_lt.2 h.nil), Hil.lexUint]
      exact ⟨rfl, h.self⟩
    | cons c s =>
      rw [lexUint, if_pos h.lt, h.byteAt, ok_bind, Hil.lexUint]
      dsimp only
      split_ifs
      · rfl
      · exact (ih h.tail (Nat.lt_of_succ_lt_succ hfuel)).mono fun _ _ hR =>
          hR.mono (Nat.le_succ pos)
      · exact ⟨rfl, h.self⟩

theorem leadingZero_spec {k pos : ℕ} {c : Char} {s : Text} (h : At buf k pos (c :: s)) :
    leadingZero buf pos = .ok (Hil.leadingZero (c :: s)) := by
  rw [leadingZero, h.byteAt, ok_bind]
  cases s with
  | nil =>
    rw [leadingZero_singleton, if_neg (Nat.not_lt.2 h.tail.nil)]
    split_ifs <;> rfl
  | cons d s =>
    rw [leadingZero_cons_cons, if_pos h.tail.lt, h.tail.byteAt, ok_bind]
    by_cases hc : c = '0'
    · rw [if_pos hc, decide_eq_true hc, Bool.true_and]
    · rw [if_neg hc, decide_eq_false hc, Bool.false_and]

theorem parseUint_refines {k pos : ℕ} {c : Char} {s : Text} (h : At buf k pos (c :: s))
    (hc : c.isDigit = true) :
    Refines (Gives buf pos) (parseUint buf pos) (Hil.parseValue (c :: s)) := by
  rw [parseUint, leadingZero_spec h, ok_bind, parseValue_digit hc]
  split_ifs
  · rfl
  refine (lexUint_refines h h.fuel).bind ?_
  rintro ⟨n, pos'⟩ ⟨m, s'⟩ ⟨rfl, hat⟩
  dsimp only at hat ⊢
  cases s' with
  | nil =>
    rw [if_neg (Nat.not_lt.2 hat.nil)]
    exact ⟨rfl, hat⟩
  | cons d s' =>
    rw [if_pos hat.lt, hat.byteAt, ok_bind]
    have hafter : ¬(d ≠ ',' ∧ d ≠ '\x7d' ∧ (!Json.isWs d) = true) ↔
        afterUint (d :: s') = true := by
      cases hws : Json.isWs d
      · simp only [afterUint, hws, Bool.or_false, Bool.or_eq_true, decide_eq_true_eq,
          Bool.not_false, and_true, not_and_or, not_not, ne_eq]
      · simp [afterUint, hws]
    by_cases hd : afterUint (d :: s') = true
    · rw [if_neg (hafter.2 hd), if_pos hd]
      exact ⟨rfl, hat⟩
    · rw [if_pos (not_not.1 fun hnot => hd (hafter.1 hnot)), if_neg hd]
      rfl

theorem parseValue_refines {k pos : ℕ} {s : Text} (h : At buf k pos s) :
    Refines (Gives buf pos) (parseValue buf (jsonMaxDepth + 2) pos) (Hil.parseValue s) := by
  cases s with
  | nil =>
    rw [parseValue, if_pos h.nil]
    rfl
  | cons c s =>
    rw [parseValue, if_neg (Nat.not_le.2 h.lt), h.byteAt, ok_bind]
    have hkind : ∀ v : HilValue, ∀ pos' s', At buf (pos + 1) pos' s' →
        Refines (Gives buf pos) (.ok (v, pos')) (.ok (v, s')) :=
      fun v pos' s' hat => ⟨rfl, hat.mono (Nat.le_succ pos)⟩
    by_cases hdigit : c.isDigit = true
    · have hother : ∀ d : Char, d.isDigit = false → c ≠ d := by
        rintro d hd rfl
        rw [hdigit] at hd
        cases hd
      rw [if_neg (hother '\"' (by decide)), if_neg (hother '\x7b' (by decide)),
        if_neg (hother '[' (by decide)), if_neg (hother 't' (by decide)),
        if_neg (hother 'f' (by decide)), if_neg (hother 'n' (by decide)), if_pos hdigit]
      exact parseUint_refines h hdigit
    unfold Hil.parseValue
    dsimp only
    rw [if_neg hdigit, if_neg hdigit]
    split_ifs
    · refine (lexStringBounded_refines h).bind ?_
      rintro ⟨⟨out, tooLong⟩, pos'⟩ lexed ⟨heq, hat⟩
      obtain ⟨rfl, rfl⟩ := Prod.mk.inj heq
      dsimp only at hat ⊢
      split_ifs
      · rfl
      · exact ⟨rfl, hat.mono (Nat.le_succ pos)⟩
    · exact (validateNested_refines h).map fun pos' s' => hkind .object pos' s'
    · exact (validateNested_refines h).map fun pos' s' => hkind .array pos' s'
    · exact (validateLiteral_refines h (by decide)).map fun pos' s' => hkind .bool pos' s'
    · exact (validateLiteral_refines h (by decide)).map fun pos' s' => hkind .bool pos' s'
    · exact (validateLiteral_refines h (by decide)).map fun pos' s' => hkind .null pos' s'
    · rfl

/-! ### The scan of the object -/

theorem scanValue_refines {k pos : ℕ} {s : Text} (ctx : Ctx) (key : Option Key)
    (h : At buf k pos s) :
    Refines (Gives buf pos) (scanValue buf (jsonMaxDepth + 2) ctx key pos)
      (Hil.scanValue ctx key s) := by
  cases key with
  | none =>
    exact (validateNested_refines h).map fun pos' s' hat => ⟨rfl, hat.mono (Nat.le_succ pos)⟩
  | some j =>
    rw [scanValue, Hil.scanValue]
    split_ifs
    · rfl
    · refine (parseValue_refines h).map ?_
      rintro ⟨v, pos'⟩ ⟨w, s'⟩ ⟨rfl, hat⟩
      exact ⟨rfl, hat⟩

theorem scanMember_refines {k pos : ℕ} {s : Text} (ctx : Ctx) (h : At buf k pos s) :
    Refines (Gives buf (pos + 1)) (scanMember buf (jsonMaxDepth + 2) ctx pos)
      (Hil.scanMember ctx s) := by
  refine (lexStringBounded_refines h).bind ?_
  rintro ⟨⟨out, tooLong⟩, pos₁⟩ lexed ⟨heq, h₁⟩
  obtain ⟨rfl, rfl⟩ := Prod.mk.inj heq
  dsimp only at h₁ ⊢
  obtain ⟨pos₂, hskip₂, h₂⟩ := skipWs_spec h₁
  have hle₁ := h₁.le
  have hle₂ := h₂.le
  rw [hskip₂, ok_bind]
  generalize (if lexed.tooLong = true then none else Key.ofName lexed.out) = key
  generalize Json.skipWs lexed.rest = t at h₂
  refine expect_refines ':' h₂ (fun t ht => ?_) (fun hne => ?_)
  · subst ht
    simp only
    obtain ⟨pos₃, hskip₃, h₃⟩ := skipWs_spec h₂.tail
    have hle₃ := h₃.le
    rw [hskip₃, ok_bind]
    exact (scanValue_refines ctx key h₃).mono fun _ _ hR => hR.mono (by omega)
  · split
    · exact absurd rfl (hne _)
    · rfl

theorem scan_refines {loop fuel k pos : ℕ} {s : Text} (ctx : Ctx) (h : At buf k pos s)
    (hloop : s.length < loop) (hfuel : s.length ≤ fuel) :
    Refines (Gives buf pos) (scan buf (jsonMaxDepth + 2) loop ctx pos)
      (Hil.scan fuel ctx s) := by
  induction loop generalizing fuel k pos s ctx with
  | zero => exact absurd hloop (Nat.not_lt_zero _)
  | succ loop ih =>
    have hend := h.length
    obtain ⟨pos₁, hskip₁, h₁⟩ := skipWs_spec h
    have hle₁ := h₁.le
    have hend₁ := h₁.length
    rw [scan, hskip₁, ok_bind]
    cases fuel with
    | zero =>
      -- the fuel of the model is gone when every byte is
      have hs : s = [] := List.length_eq_zero_iff.1 (Nat.le_zero.1 hfuel)
      rw [hs] at h₁
      rw [if_pos h₁.nil]
      rfl
    | succ fuel =>
      rw [Hil.scan]
      generalize Json.skipWs s = t₁ at h₁ hend₁
      cases t₁ with
      | nil =>
        rw [if_pos h₁.nil]
        rfl
      | cons c t₁ =>
        rw [if_neg (Nat.not_le.2 h₁.lt), h₁.byteAt, ok_bind]
        by_cases hc : c = '\x7d'
        · subst hc
          exact ⟨rfl, h₁.tail.mono (by omega)⟩
        rw [if_neg hc]
        split
        · rename_i heq
          cases heq
        · rename_i heq
          exact absurd (List.cons.inj heq).1 hc
        refine (scanMember_refines ctx h₁).cases (fun e he => by rw [he]) ?_
        rintro ⟨ctx₂, pos₂⟩ ⟨ctx₂', s₂⟩ ⟨rfl, h₂⟩ hmember
        rw [hmember]
        dsimp only at h₂ ⊢
        obtain ⟨pos₃, hskip₃, h₃⟩ := skipWs_spec h₂
        have hle₂ := h₂.le
        have hle₃ := h₃.le
        rw [hskip₃, ok_bind]
        generalize Json.skipWs s₂ = t₃ at h₃
        refine comma_refines '\x7d' h₃ (fun t ht => ?_) (fun t ht _ => ?_) (fun hne hne' => ?_)
        · subst ht
          simp only
          obtain ⟨pos₄, hskip₄, h₄⟩ := skipWs_spec h₃.tail
          have hle₄ := h₄.le
          have hend₄ := h₄.length
          rw [hskip₄, ok_bind]
          generalize Json.skipWs t = t₄ at h₄ hend₄
          refine refuse_refines '\x7d' h₄ ?_ (fun hne hne' => ?_)
          · rintro (rfl | ⟨t, rfl⟩) <;> rfl
          · have hnext : Refines (Gives buf pos₄) (scan buf (jsonMaxDepth + 2) loop ctx₂ pos₄)
                (Hil.scan fuel ctx₂ t₄) :=
              ih ctx₂ h₄ (by omega) (by omega)
            split
            · exact absurd rfl hne
            · exact absurd rfl (hne' _)
            · exact hnext.mono fun _ _ hR => hR.mono (by omega)
        · subst ht
          exact ⟨rfl, h₃.tail.mono (by omega)⟩
        · split
          · exact absurd rfl (hne _)
          · exact absurd rfl (hne' _)
          · rfl

/-- **The parser reads no byte at or beyond the length, ends, stays within the room for 34 nested
calls, and has the result of the model without reads.** -/
theorem parse_refines (buf : Text) :
    Refines Eq (parse buf (jsonMaxDepth + 2)) (Hil.parse buf) := by
  have h : At buf 0 0 buf := ⟨Nat.le_refl 0, Nat.zero_le _, rfl⟩
  unfold parse Hil.parse
  split_ifs
  · rfl
  obtain ⟨pos₁, hskip₁, h₁⟩ := skipWs_spec h
  rw [hskip₁, ok_bind]
  generalize Json.skipWs buf = t at h₁
  refine expect_refines '\x7b' h₁ (fun s ht => ?_) (fun hne => ?_)
  · subst ht
    simp only
    have hscan : Refines (Gives buf (pos₁ + 1))
        (scan buf (jsonMaxDepth + 2) (buf.length + 1) Ctx.empty (pos₁ + 1))
        (Hil.scan s.length Ctx.empty s) :=
      scan_refines Ctx.empty h₁.tail h₁.tail.fuel (Nat.le_refl _)
    refine hscan.cases (fun e he => by rw [he]) ?_
    rintro ⟨ctx, pos₂⟩ ⟨ctx', s₂⟩ ⟨rfl, h₂⟩ hlist
    rw [hlist]
    dsimp only at h₂ ⊢
    obtain ⟨pos₃, hskip₃, h₃⟩ := skipWs_spec h₂
    have hend₃ := h₃.length
    rw [hskip₃, ok_bind]
    have hrest : pos₃ = buf.length ↔ (Json.skipWs s₂).isEmpty = true := by
      rw [List.isEmpty_iff, ← List.length_eq_zero_iff]
      omega
    by_cases hpos : pos₃ = buf.length
    · rw [if_neg (not_not.2 hpos), if_pos (hrest.1 hpos)]
      cases select ctx <;> rfl
    · rw [if_pos hpos, if_neg (fun hempty => hpos (hrest.2 hempty))]
      rfl
  · split
    · exact absurd rfl (hne _)
    · rfl

end Cursor

/-- `hil_source_parse` on a stack with room for 34 nested calls: its result is the one of the model
without reads, and it writes its command if it is `HIL_SOURCE_PARSE_OK` and nothing otherwise. -/
theorem sourceParse_eq (buf : Text) (out : CommandIn) :
    sourceParse (jsonMaxDepth + 2) buf out =
      match parse buf with
      | .ok cmd => .ok (none, cmd)
      | .error e => .ok (some e, out) := by
  have hrefines := Cursor.parse_refines buf
  unfold sourceParse
  match hx : Cursor.parse buf (jsonMaxDepth + 2), hy : parse buf with
  | .ok b, .ok c =>
    rw [hx, hy] at hrefines
    rw [show b = c from hrefines]
  | .error (.fail e), .error e' =>
    rw [hx, hy] at hrefines
    rw [show e = e' from hrefines]
  | .error (.fault f), .error e' =>
    rw [hx, hy] at hrefines
    exact hrefines.elim
  | .error (.fault f), .ok c =>
    rw [hx, hy] at hrefines
    exact hrefines.elim
  | .error (.fail e), .ok c =>
    rw [hx, hy] at hrefines
    exact hrefines.elim
  | .ok b, .error e =>
    rw [hx, hy] at hrefines
    exact hrefines.elim

/-- **A line within its length is parsed, without a read outside it, and the result is
`HIL_SOURCE_PARSE_OK` with a command in `out` if and only if the line is a text of that command;
with every other result `out` is as it was.** -/
theorem sourceParse_exact {buf : Text} (hlen : buf.length ≤ maxCommandLineBytes)
    (out : CommandIn) :
    ∃ result out', sourceParse (jsonMaxDepth + 2) buf out = .ok (result, out') ∧
      (∀ cmd, (result = none ∧ out' = cmd) ↔ IsCommand buf cmd) ∧
      (result ≠ none → out' = out) := by
  have heq := sourceParse_eq buf out
  cases hparse : parse buf with
  | ok cmd =>
    rw [hparse] at heq
    refine ⟨none, cmd, heq, fun cmd' => ?_, fun hne => absurd rfl hne⟩
    rw [← parse_iff hlen, hparse]
    exact ⟨fun h => h.2 ▸ rfl, fun h => ⟨rfl, Except.ok.inj h⟩⟩
  | error e =>
    rw [hparse] at heq
    refine ⟨some e, out, heq, fun cmd' => ?_, fun _ => rfl⟩
    rw [← parse_iff hlen, hparse]
    constructor
    · rintro ⟨⟨⟩, -⟩
    · rintro ⟨⟩

/-- A line with whitespace around its tokens and its keys in another order. -/
def sampleLine : Text :=
  " \x7b \"run_id\" : \"r\",\"command\":\"hello\" ,".toList ++
    "\"protocol_version\": 1,\t\"command_id\":\"c.1\" \x7d\n".toList

theorem sourceParse_exact_sample :
    sampleLine.length ≤ maxCommandLineBytes ∧ ∃ cmd, IsCommand sampleLine cmd := by
  have hlen : sampleLine.length ≤ maxCommandLineBytes := by decide
  have hok : refusal (parse sampleLine) = none := by decide +kernel
  have out := CommandIn.candidate .idle [] []
  obtain ⟨result, out', heq, hiff, -⟩ := sourceParse_exact hlen out
  rw [sourceParse_eq] at heq
  cases hparse : parse sampleLine with
  | error e =>
    rw [hparse] at hok
    cases hok
  | ok cmd =>
    rw [hparse] at heq
    cases heq
    exact ⟨hlen, _, (hiff _).1 ⟨rfl, rfl⟩⟩

end Hil

end LeAudioReceiver
