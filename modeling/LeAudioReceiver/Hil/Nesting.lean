import LeAudioReceiver.Hil.CursorRefines

/-!
# How deep a value may be nested

The nested values that the command parser validates and throws away, by the shape of their
containers.

* `Hil.Nested.nesting` : the containers nested in each other, which `HIL_JSON_MAX_DEPTH` is said to
  bound exactly.
* `Hil.Nested.enclosing` : the containers around a value, which the validation counts.
* `Hil.nesting_bound_iff` : **the bound holds of a value if and only if it is not nested one
  container deeper than the bound with nothing in the innermost ones.**

An empty container returns before the validation looks at its depth.
-/

namespace LeAudioReceiver

namespace Hil

open Json (Text)

/-! ### Shapes -/

/-- A value by its containers. -/
inductive Nested where
  | scalar
  | object (values : List Nested)
  | array (items : List Nested)

namespace Nested

mutual

/-- The number of containers nested in each other. -/
def nesting : Nested → ℕ
  | scalar => 0
  | object values => 1 + nestingAll values
  | array items => 1 + nestingAll items

/-- The same for the values of a container. -/
def nestingAll : List Nested → ℕ
  | [] => 0
  | v :: vs => max v.nesting (nestingAll vs)

end

mutual

/-- The greatest number of containers around a value. -/
def enclosing : Nested → ℕ
  | scalar => 0
  | object values => enclosingAll values
  | array items => enclosingAll items

/-- The same for the values of a container, which is around each of them. -/
def enclosingAll : List Nested → ℕ
  | [] => 0
  | v :: vs => max (1 + v.enclosing) (enclosingAll vs)

end

mutual

/-- A container that is empty is nested once more than any value. -/
theorem nesting_bounds : ∀ v : Nested, v.enclosing ≤ v.nesting ∧ v.nesting ≤ v.enclosing + 1
  | scalar => by simp [enclosing, nesting]
  | object vs => by
    have h := nestingAll_bounds vs
    simp only [enclosing, nesting]
    omega
  | array vs => by
    have h := nestingAll_bounds vs
    simp only [enclosing, nesting]
    omega

theorem nestingAll_bounds : ∀ vs : List Nested,
    enclosingAll vs ≤ nestingAll vs + 1 ∧ nestingAll vs ≤ enclosingAll vs
  | [] => by simp [enclosingAll, nestingAll]
  | v :: vs => by
    have h := nesting_bounds v
    have hs := nestingAll_bounds vs
    simp only [enclosingAll, nestingAll]
    omega

end

end Nested

/-! ### Texts -/

/-- One digit at least and nothing else. -/
def IsDigits (t : Text) : Prop := t ≠ [] ∧ ∀ c ∈ t, c.isDigit = true

/-- A number of JSON. -/
def IsNumber (t : Text) : Prop :=
  ∃ minus int frac exp,
    (minus = [] ∨ minus = ['-']) ∧
    (int = ['0'] ∨ IsDigits int ∧ int.head? ≠ some '0') ∧
    (frac = [] ∨ ∃ ds, IsDigits ds ∧ frac = '.' :: ds) ∧
    (exp = [] ∨ ∃ e sign ds, (e = 'e' ∨ e = 'E') ∧ (sign = [] ∨ sign = ['+'] ∨ sign = ['-']) ∧
      IsDigits ds ∧ exp = e :: (sign ++ ds)) ∧
    t = minus ++ (int ++ (frac ++ exp))

/-- What a text stands for: a value, the members of an object or the items of an array. -/
inductive Part where
  | value (v : Nested)
  | members (vs : List Nested)
  | items (vs : List Nested)

/-- The texts of the nested values. -/
inductive IsJson : Part → Text → Prop
  | string {t s : Text} (h : IsString t s) : IsJson (.value .scalar) t
  | number {t : Text} (h : IsNumber t) : IsJson (.value .scalar) t
  | literal {t : Text} (h : t ∈ ["true".toList, "false".toList, "null".toList]) :
      IsJson (.value .scalar) t
  | emptyObject {w : Text} (hw : IsWs w) : IsJson (.value (.object [])) ('\x7b' :: (w ++ ['\x7d']))
  | object {vs : List Nested} {w t : Text} (hw : IsWs w) (h : IsJson (.members vs) t) :
      IsJson (.value (.object vs)) ('\x7b' :: (w ++ (t ++ ['\x7d'])))
  | emptyArray {w : Text} (hw : IsWs w) : IsJson (.value (.array [])) ('[' :: (w ++ [']']))
  | array {vs : List Nested} {w t : Text} (hw : IsWs w) (h : IsJson (.items vs) t) :
      IsJson (.value (.array vs)) ('[' :: (w ++ (t ++ [']'])))
  | lastMember {v : Nested} {key s w w' t w'' : Text} (hkey : IsString key s) (hw : IsWs w)
      (hw' : IsWs w') (h : IsJson (.value v) t) (hw'' : IsWs w'') :
      IsJson (.members [v]) (key ++ (w ++ ':' :: (w' ++ (t ++ w''))))
  | nextMember {v : Nested} {vs : List Nested} {key s w w' t w'' w₃ ts : Text}
      (hkey : IsString key s) (hw : IsWs w) (hw' : IsWs w') (h : IsJson (.value v) t)
      (hw'' : IsWs w'') (hw₃ : IsWs w₃) (hs : IsJson (.members vs) ts) :
      IsJson (.members (v :: vs)) (key ++ (w ++ ':' :: (w' ++ (t ++ (w'' ++ ',' :: (w₃ ++ ts))))))
  | lastItem {v : Nested} {t w : Text} (h : IsJson (.value v) t) (hw : IsWs w) :
      IsJson (.items [v]) (t ++ w)
  | nextItem {v : Nested} {vs : List Nested} {t w w' ts : Text} (h : IsJson (.value v) t)
      (hw : IsWs w) (hw' : IsWs w') (hs : IsJson (.items vs) ts) :
      IsJson (.items (v :: vs)) (t ++ (w ++ ',' :: (w' ++ ts)))

/-! ### Scalars -/

/-- What may follow a nested value. -/
def valueEnds : Text → Bool
  | [] => true
  | c :: _ => c = ',' || c = ']' || c = '\x7d' || Json.isWs c

theorem valueEnds_cases {s : Text} (h : valueEnds s = true) :
    s = [] ∨ ∃ c t, s = c :: t ∧ c.isDigit = false ∧ c ≠ '.' ∧ c ≠ 'e' ∧ c ≠ 'E' := by
  cases s with
  | nil => exact .inl rfl
  | cons c t =>
    refine .inr ⟨c, t, rfl, ?_⟩
    simp only [valueEnds, Json.isWs, Bool.or_eq_true, decide_eq_true_eq] at h
    rcases h with ((rfl | rfl) | rfl) | (((rfl | rfl) | rfl) | rfl)
    all_goals decide

theorem lexDigits_isDigits {ds rest : Text} (hds : IsDigits ds) (hrest : noDigit rest = true) :
    lexDigits (ds ++ rest) = .ok rest := by
  obtain ⟨hne, hall⟩ := hds
  cases ds with
  | nil => exact absurd rfl hne
  | cons c ds =>
    have hdrop : rest.dropWhile Char.isDigit = rest := by
      cases rest with
      | nil => rfl
      | cons d rest =>
        have hd : d.isDigit = false := by simpa [noDigit] using hrest
        simp [hd]
    obtain ⟨hc, hds⟩ := List.forall_mem_cons.1 hall
    rw [List.cons_append, lexDigits, if_pos hc, List.dropWhile_append_of_pos hds, hdrop]

theorem noDigit_of_valueEnds {rest : Text} (h : valueEnds rest = true) : noDigit rest = true := by
  rcases valueEnds_cases h with rfl | ⟨c, t, rfl, hc, -, -, -⟩
  · rfl
  · simp [noDigit, hc]

/-- A sign that may be there is not the first digit. -/
theorem dropOptional_digits {p : Char → Bool} {ds rest : Text} (hds : IsDigits ds)
    (hp : ∀ c : Char, c.isDigit = true → p c = false) :
    Cursor.dropOptional p (ds ++ rest) = ds ++ rest := by
  obtain ⟨hne, hall⟩ := hds
  cases ds with
  | nil => exact absurd rfl hne
  | cons c ds =>
    rw [List.cons_append, Cursor.dropOptional, hp c (hall c List.mem_cons_self)]
    rfl

theorem ne_of_isDigit {c d : Char} (hc : c.isDigit = true) (hd : d.isDigit = false) : c ≠ d := by
  rintro rfl
  rw [hc] at hd
  cases hd

theorem lexExponent_take {exp rest : Text} (hrest : valueEnds rest = true)
    (h : exp = [] ∨ ∃ e sign ds, (e = 'e' ∨ e = 'E') ∧ (sign = [] ∨ sign = ['+'] ∨ sign = ['-']) ∧
      IsDigits ds ∧ exp = e :: (sign ++ ds)) :
    lexExponent (exp ++ rest) = .ok rest := by
  rcases h with rfl | ⟨e, sign, ds, he, hsign, hds, rfl⟩
  · rcases valueEnds_cases hrest with rfl | ⟨c, t, rfl, -, -, he, hE⟩
    · rfl
    · rw [List.nil_append]
      unfold lexExponent
      split
      · rename_i heq
        exact absurd (List.cons.inj heq).1 he
      · rename_i heq
        exact absurd (List.cons.inj heq).1 hE
      · rfl
  · have hdigits := lexDigits_isDigits hds (noDigit_of_valueEnds hrest)
    have hlex : lexExponent (e :: (sign ++ ds) ++ rest) =
        lexDigits (lexSign (sign ++ (ds ++ rest))) := by
      rw [List.cons_append, List.append_assoc]
      rcases he with rfl | rfl <;> rfl
    rw [hlex]
    rcases hsign with rfl | rfl | rfl
    · rw [List.nil_append, Cursor.lexSign_eq, dropOptional_digits hds, hdigits]
      intro c hc
      simp [ne_of_isDigit hc (by decide : '+'.isDigit = false),
        ne_of_isDigit hc (by decide : '-'.isDigit = false)]
    · exact hdigits
    · exact hdigits

theorem lexFraction_take {frac rest : Text} (hrest : noDigit rest = true)
    (hpoint : ∀ t, rest ≠ '.' :: t) (h : frac = [] ∨ ∃ ds, IsDigits ds ∧ frac = '.' :: ds) :
    lexFraction (frac ++ rest) = .ok rest := by
  rcases h with rfl | ⟨ds, hds, rfl⟩
  · rw [List.nil_append]
    unfold lexFraction
    split
    · exact absurd rfl (hpoint _)
    · rfl
  · exact lexDigits_isDigits hds hrest

theorem lexInteger_take {int rest : Text} (hrest : noDigit rest = true)
    (h : int = ['0'] ∨ IsDigits int ∧ int.head? ≠ some '0') :
    lexInteger (int ++ rest) = .ok rest := by
  rcases h with rfl | ⟨hint, hzero⟩
  · rfl
  · have hdigits := lexDigits_isDigits hint hrest
    cases int with
    | nil => exact absurd rfl hint.1
    | cons c ds =>
      have hc : c ≠ '0' := fun h => hzero (by rw [h]; rfl)
      rw [List.cons_append] at hdigits ⊢
      rw [lexInteger, if_neg hc]
      exact hdigits

theorem lexNumberSkip_take {t rest : Text} (h : IsNumber t) (hrest : valueEnds rest = true) :
    lexNumberSkip (t ++ rest) = .ok rest := by
  obtain ⟨minus, int, frac, exp, hminus, hint, hfrac, hexp, rfl⟩ := h
  have hend : noDigit (exp ++ rest) = true ∧ ∀ t, exp ++ rest ≠ '.' :: t := by
    rcases hexp with rfl | ⟨e, sign, ds, he, -, -, rfl⟩
    · rcases valueEnds_cases hrest with rfl | ⟨c, t, rfl, hc, hpoint, -, -⟩
      · exact ⟨rfl, fun t ht => nomatch ht⟩
      · exact ⟨by simp [noDigit, hc], fun t ht => hpoint (List.cons.inj ht).1⟩
    · rcases he with rfl | rfl
      · exact ⟨rfl, fun t ht => absurd (List.cons.inj ht).1 (by decide)⟩
      · exact ⟨rfl, fun t ht => absurd (List.cons.inj ht).1 (by decide)⟩
  have hend' : noDigit (frac ++ (exp ++ rest)) = true := by
    rcases hfrac with rfl | ⟨ds, -, rfl⟩
    · exact hend.1
    · rfl
  have hsign : lexMinus (minus ++ (int ++ (frac ++ (exp ++ rest)))) =
      int ++ (frac ++ (exp ++ rest)) := by
    rcases hminus with rfl | rfl
    · rw [List.nil_append, Cursor.lexMinus_eq]
      rcases hint with rfl | ⟨hint, -⟩
      · rfl
      · exact dropOptional_digits hint fun c hc => by
          simp [ne_of_isDigit hc (by decide : '-'.isDigit = false)]
    · rfl
  simp only [List.append_assoc, lexNumberSkip, hsign, lexInteger_take hend' hint,
    lexFraction_take hend.1 hend.2 hfrac, lexExponent_take hrest hexp, bind, Except.bind]

theorem isNumber_head {t : Text} (h : IsNumber t) :
    ∃ c s, t = c :: s ∧ (c = '-' ∨ c.isDigit = true) := by
  obtain ⟨minus, int, frac, exp, rfl | rfl, hint, -, -, rfl⟩ := h
  · rcases hint with rfl | ⟨⟨hne, hall⟩, -⟩
    · exact ⟨_, _, rfl, .inr rfl⟩
    · obtain ⟨c, ds, rfl⟩ := List.exists_cons_of_ne_nil hne
      exact ⟨c, _, rfl, .inr (hall c List.mem_cons_self)⟩
  · exact ⟨_, _, rfl, .inl rfl⟩

/-! ### The validation -/

theorem isJson_head {p : Part} {t : Text} (h : IsJson p t) :
    ∃ c s, t = c :: s ∧ Json.isWs c = false ∧ c ≠ ']' ∧ c ≠ '\x7d' := by
  induction h with
  | string h | lastMember h _ _ _ _ _ | nextMember h _ _ _ _ _ _ _ _ =>
    obtain ⟨raw, -, rfl⟩ := h
    exact ⟨_, _, rfl, by decide, by decide, by decide⟩
  | number h =>
    obtain ⟨c, s, rfl, rfl | hc⟩ := isNumber_head h
    · exact ⟨_, _, rfl, by decide, by decide, by decide⟩
    · have hne : ∀ d : Char, d.isDigit = false → c ≠ d := fun _ => ne_of_isDigit hc
      refine ⟨c, s, rfl, ?_, hne _ (by decide), hne _ (by decide)⟩
      simp [Json.isWs, hne ' ' (by decide), hne '\t' (by decide), hne '\n' (by decide),
        hne '\r' (by decide)]
  | literal h =>
    simp only [List.mem_cons, List.not_mem_nil, or_false] at h
    rcases h with rfl | rfl | rfl
    all_goals exact ⟨_, _, rfl, by decide, by decide, by decide⟩
  | emptyObject _ | object _ _ _ | emptyArray _ | array _ _ _ =>
    exact ⟨_, _, rfl, by decide, by decide, by decide⟩
  | lastItem _ _ ih | nextItem _ _ _ _ ih _ =>
    obtain ⟨c, s, rfl, hc⟩ := ih
    exact ⟨c, _, rfl, hc⟩

theorem lexStringSkip_take {key s : Text} (h : IsString key s) (rest : Text) :
    lexStringSkip (key ++ rest) = .ok rest := by
  have hlex : lexStringBounded 0 (key ++ rest) =
      .ok ⟨s.take (0 - 1), decide (0 - 1 < s.length), rest⟩ :=
    lexStringBounded_iff.2 ⟨key, s, h, rfl, rfl, rfl⟩
  rw [lexStringSkip, hlex]
  rfl

theorem validateValue_scalar {t rest : Text} (hrest : valueEnds rest = true) {fuel depth : ℕ}
    (hdepth : depth ≤ jsonMaxDepth) (h : IsJson (.value .scalar) t) :
    validateValue (fuel + 1) depth (t ++ rest) = .ok rest := by
  have hdeep := Nat.not_lt.2 hdepth
  cases h with
  | string h =>
    have hskip := lexStringSkip_take h rest
    obtain ⟨raw, -, rfl⟩ := h
    rw [List.cons_append] at hskip ⊢
    rw [validateValue, if_neg hdeep, if_pos rfl]
    exact hskip
  | number h =>
    have hskip := lexNumberSkip_take h hrest
    obtain ⟨c, s, rfl, hc⟩ := isNumber_head h
    have hne : ∀ d : Char, d.isDigit = false → d ≠ '-' → c ≠ d := by
      intro d hd hminus
      rcases hc with rfl | hc
      · exact hminus.symm
      · exact ne_of_isDigit hc hd
    rw [List.cons_append] at hskip ⊢
    rw [validateValue, if_neg hdeep, if_neg (hne '\"' (by decide) (by decide)),
      if_neg (hne '\x7b' (by decide) (by decide)), if_neg (hne '[' (by decide) (by decide)),
      if_neg (hne 't' (by decide) (by decide)), if_neg (hne 'f' (by decide) (by decide)),
      if_neg (hne 'n' (by decide) (by decide)), if_pos hc]
    exact hskip
  | literal h =>
    have hliteral : ∀ u : Text, validateLiteral u (u ++ rest) = .ok rest := by
      intro u
      rw [validateLiteral, if_pos (List.isPrefixOf_iff_prefix.2 (List.prefix_append u rest)),
        List.drop_left]
    simp only [List.mem_cons, List.not_mem_nil, or_false] at h
    rcases h with rfl | rfl | rfl
    · show validateValue (fuel + 1) depth ('t' :: ("rue".toList ++ rest)) = _
      rw [validateValue, if_neg hdeep, if_neg (by decide), if_neg (by decide), if_neg (by decide),
        if_pos rfl]
      exact hliteral "true".toList
    · show validateValue (fuel + 1) depth ('f' :: ("alse".toList ++ rest)) = _
      rw [validateValue, if_neg hdeep, if_neg (by decide), if_neg (by decide), if_neg (by decide),
        if_neg (by decide), if_pos rfl]
      exact hliteral "false".toList
    · show validateValue (fuel + 1) depth ('n' :: ("ull".toList ++ rest)) = _
      rw [validateValue, if_neg hdeep, if_neg (by decide), if_neg (by decide), if_neg (by decide),
        if_neg (by decide), if_neg (by decide), if_pos rfl]
      exact hliteral "null".toList

/-- What the validation makes of a text at a depth: all of it, unless a value has more containers
around it than the bound. -/
def Part.Validates : Part → Text → Prop
  | value v, t => ∀ (rest : Text) (fuel depth : ℕ), (v = .scalar → valueEnds rest = true) →
    3 * (t ++ rest).length + 1 ≤ fuel →
    validateValue fuel depth (t ++ rest) =
      if depth + v.enclosing ≤ jsonMaxDepth then .ok rest else .error .syntaxError
  | members vs, t => ∀ (rest : Text) (fuel depth : ℕ),
    3 * (t ++ '\x7d' :: rest).length + 2 ≤ fuel →
    validateMembers fuel depth (t ++ '\x7d' :: rest) =
      if depth + Nested.enclosingAll vs ≤ jsonMaxDepth + 1 then .ok rest else .error .syntaxError
  | items vs, t => ∀ (rest : Text) (fuel depth : ℕ),
    3 * (t ++ ']' :: rest).length + 2 ≤ fuel →
    validateItems fuel depth (t ++ ']' :: rest) =
      if depth + Nested.enclosingAll vs ≤ jsonMaxDepth + 1 then .ok rest else .error .syntaxError

theorem valueEnds_ws {w s : Text} (hw : IsWs w) (hs : valueEnds s = true) :
    valueEnds (w ++ s) = true := by
  cases w with
  | nil => exact hs
  | cons c w =>
    have hc := hw c List.mem_cons_self
    simp [valueEnds, hc]

/-- One member of an object and what is made of the input after it. -/
theorem validateMembers_step {key s w w' t : Text} {v : Nested} (hkey : IsString key s)
    (hw : IsWs w) (hw' : IsWs w') (h : IsJson (.value v) t)
    (hvalue : (Part.value v).Validates t) {rest : Text} (hrest : valueEnds rest = true)
    {fuel depth : ℕ} (hfuel : 3 * (t ++ rest).length + 1 ≤ fuel) :
    validateMembers (fuel + 1) depth (key ++ (w ++ ':' :: (w' ++ (t ++ rest)))) =
      if depth + v.enclosing ≤ jsonMaxDepth then
        match Json.skipWs rest with
        | ',' :: s =>
          match Json.skipWs s with
          | [] => .error .syntaxError
          | '\x7d' :: _ => .error .syntaxError
          | s => validateMembers fuel depth s
        | '\x7d' :: s => .ok s
        | _ => .error .syntaxError
      else .error .syntaxError := by
  obtain ⟨c, u, hc, hws, -, -⟩ := isJson_head h
  have hcolon : Json.skipWs (w ++ ':' :: (w' ++ (t ++ rest))) = ':' :: (w' ++ (t ++ rest)) :=
    skipWs_append hw (Json.skipWs_of_not (by decide) _)
  have hhead : Json.skipWs (w' ++ (t ++ rest)) = t ++ rest := by
    refine skipWs_append hw' ?_
    rw [hc]
    exact Json.skipWs_of_not hws _
  rw [validateMembers, lexStringSkip_take hkey]
  simp only [bind, Except.bind, hcolon, hhead,
    hvalue rest fuel depth (fun _ => hrest) hfuel]
  split_ifs <;> rfl

theorem validateItems_step {t : Text} {v : Nested} (hvalue : (Part.value v).Validates t)
    {rest : Text} (hrest : valueEnds rest = true) {fuel depth : ℕ}
    (hfuel : 3 * (t ++ rest).length + 1 ≤ fuel) :
    validateItems (fuel + 1) depth (t ++ rest) =
      if depth + v.enclosing ≤ jsonMaxDepth then
        match Json.skipWs rest with
        | ',' :: s =>
          match Json.skipWs s with
          | [] => .error .syntaxError
          | ']' :: _ => .error .syntaxError
          | s => validateItems fuel depth s
        | ']' :: s => .ok s
        | _ => .error .syntaxError
      else .error .syntaxError := by
  rw [validateItems]
  simp only [bind, Except.bind, hvalue rest fuel depth (fun _ => hrest) hfuel]
  split_ifs <;> rfl

theorem validateValue_deep {t : Text} {v : Nested} (h : IsJson (.value v) t) {fuel depth : ℕ}
    (hdepth : jsonMaxDepth < depth) (rest : Text) :
    validateValue (fuel + 1) depth (t ++ rest) = .error .syntaxError := by
  obtain ⟨c, s, rfl, -⟩ := isJson_head h
  rw [List.cons_append, validateValue, if_pos hdepth]

theorem scalar_validates {t : Text} (h : IsJson (.value .scalar) t) :
    (Part.value .scalar).Validates t := by
  intro rest fuel depth hrest hfuel
  obtain ⟨fuel, rfl⟩ := Nat.exists_eq_add_of_le' (Nat.le_trans (Nat.le_add_left 1 _) hfuel)
  rw [Nested.enclosing, Nat.add_zero]
  split_ifs with hdepth
  · exact validateValue_scalar (hrest rfl) hdepth h
  · exact validateValue_deep h (Nat.lt_of_not_le hdepth) rest

theorem validateObject_head {s u : Text} {c : Char} (hs : Json.skipWs s = c :: u) (hc : c ≠ '\x7d')
    (fuel depth : ℕ) : validateObject (fuel + 1) depth s = validateMembers fuel depth (c :: u) := by
  rw [validateObject, hs]
  split
  · rename_i heq
    cases heq
  · rename_i heq
    exact absurd (List.cons.inj heq).1 hc
  · rfl

theorem validateArray_head {s u : Text} {c : Char} (hs : Json.skipWs s = c :: u) (hc : c ≠ ']')
    (fuel depth : ℕ) : validateArray (fuel + 1) depth s = validateItems fuel depth (c :: u) := by
  rw [validateArray, hs]
  split
  · rename_i heq
    cases heq
  · rename_i heq
    exact absurd (List.cons.inj heq).1 hc
  · rfl

theorem validateValue_brace {depth : ℕ} (hdepth : depth ≤ jsonMaxDepth) (fuel : ℕ) (s : Text) :
    validateValue (fuel + 1) depth ('\x7b' :: s) = validateObject fuel (depth + 1) s := by
  rw [validateValue, if_neg (Nat.not_lt.2 hdepth), if_neg (by decide), if_pos rfl]

theorem validateValue_bracket {depth : ℕ} (hdepth : depth ≤ jsonMaxDepth) (fuel : ℕ) (s : Text) :
    validateValue (fuel + 1) depth ('[' :: s) = validateArray fuel (depth + 1) s := by
  rw [validateValue, if_neg (Nat.not_lt.2 hdepth), if_neg (by decide), if_neg (by decide),
    if_pos rfl]

/-- A value is as deep in a container as the first of its values, or deeper. -/
theorem enclosingAll_singleton (depth : ℕ) (v : Nested) :
    depth + Nested.enclosingAll [v] ≤ jsonMaxDepth + 1 ↔ depth + v.enclosing ≤ jsonMaxDepth := by
  simp only [Nested.enclosingAll]
  omega

theorem enclosingAll_cons (depth : ℕ) (v : Nested) (vs : List Nested) :
    depth + Nested.enclosingAll (v :: vs) ≤ jsonMaxDepth + 1 ↔
      depth + v.enclosing ≤ jsonMaxDepth ∧
        depth + Nested.enclosingAll vs ≤ jsonMaxDepth + 1 := by
  simp only [Nested.enclosingAll]
  omega

/-- **The validation takes a value if and only if no value of it has more containers around it than
the bound.** -/
theorem isJson_validates {p : Part} {t : Text} (h : IsJson p t) : p.Validates t := by
  -- induction on the derivation: at any depth and with any rest behind it, a part is refused
  -- exactly when a value of it lies too deep
  induction h with
  | string h => exact scalar_validates (.string h)
  | number h => exact scalar_validates (.number h)
  | literal h => exact scalar_validates (.literal h)
  | @emptyObject w hw =>
    intro rest fuel depth _ hfuel
    simp only [List.append_assoc, List.cons_append, List.nil_append, List.length_append,
      List.length_cons] at hfuel ⊢
    obtain ⟨fuel, rfl⟩ := Nat.exists_eq_add_of_le' (show 2 ≤ fuel by omega)
    rw [Nested.enclosing, Nested.enclosingAll]
    -- beyond the bound the bracket itself is refused
    by_cases hdepth : depth ≤ jsonMaxDepth
    · rw [validateValue_brace hdepth, validateObject,
        skipWs_append hw (Json.skipWs_of_not (by decide) rest),
        if_pos (show depth + 0 ≤ jsonMaxDepth from hdepth)]
      rfl
    · rw [validateValue, if_pos (Nat.lt_of_not_le hdepth),
        if_neg (show ¬depth + 0 ≤ jsonMaxDepth from hdepth)]
  | @object vs w t hw h ih =>
    intro rest fuel depth _ hfuel
    simp only [List.append_assoc, List.cons_append, List.nil_append, List.length_append,
      List.length_cons] at hfuel ⊢
    obtain ⟨fuel, rfl⟩ := Nat.exists_eq_add_of_le' (show 2 ≤ fuel by omega)
    have hmembers := ih rest fuel (depth + 1)
      (by simp only [List.length_append, List.length_cons]; omega)
    obtain ⟨c, s, rfl, hws, -, hc⟩ := isJson_head h
    simp only [List.cons_append] at hmembers ⊢
    by_cases hdepth : depth ≤ jsonMaxDepth
    · rw [validateValue_brace hdepth, validateObject_head
        (skipWs_append hw (Json.skipWs_of_not hws _)) hc, hmembers, Nested.enclosing]
      have hiff : depth + 1 + Nested.enclosingAll vs ≤ jsonMaxDepth + 1 ↔
          depth + Nested.enclosingAll vs ≤ jsonMaxDepth := by omega
      simp only [hiff]
    · rw [validateValue, if_pos (Nat.lt_of_not_le hdepth), if_neg (by omega)]
  | @emptyArray w hw =>
    intro rest fuel depth _ hfuel
    simp only [List.append_assoc, List.cons_append, List.nil_append, List.length_append,
      List.length_cons] at hfuel ⊢
    obtain ⟨fuel, rfl⟩ := Nat.exists_eq_add_of_le' (show 2 ≤ fuel by omega)
    rw [Nested.enclosing, Nested.enclosingAll]
    by_cases hdepth : depth ≤ jsonMaxDepth
    · rw [validateValue_bracket hdepth, validateArray,
        skipWs_append hw (Json.skipWs_of_not (by decide) rest),
        if_pos (show depth + 0 ≤ jsonMaxDepth from hdepth)]
      rfl
    · rw [validateValue, if_pos (Nat.lt_of_not_le hdepth),
        if_neg (show ¬depth + 0 ≤ jsonMaxDepth from hdepth)]
  | @array vs w t hw h ih =>
    intro rest fuel depth _ hfuel
    simp only [List.append_assoc, List.cons_append, List.nil_append, List.length_append,
      List.length_cons] at hfuel ⊢
    obtain ⟨fuel, rfl⟩ := Nat.exists_eq_add_of_le' (show 2 ≤ fuel by omega)
    have hitems := ih rest fuel (depth + 1)
      (by simp only [List.length_append, List.length_cons]; omega)
    obtain ⟨c, s, rfl, hws, hc, -⟩ := isJson_head h
    simp only [List.cons_append] at hitems ⊢
    by_cases hdepth : depth ≤ jsonMaxDepth
    · rw [validateValue_bracket hdepth, validateArray_head
        (skipWs_append hw (Json.skipWs_of_not hws _)) hc, hitems, Nested.enclosing]
      have hiff : depth + 1 + Nested.enclosingAll vs ≤ jsonMaxDepth + 1 ↔
          depth + Nested.enclosingAll vs ≤ jsonMaxDepth := by omega
      simp only [hiff]
    · rw [validateValue, if_pos (Nat.lt_of_not_le hdepth), if_neg (by omega)]
  | @lastMember v key s w w' t w'' hkey hw hw' h hw'' ih =>
    intro rest fuel depth hfuel
    simp only [List.append_assoc, List.cons_append, List.length_append, List.length_cons] at hfuel ⊢
    obtain ⟨fuel, rfl⟩ := Nat.exists_eq_add_of_le' (Nat.le_trans (Nat.le_add_left 1 _) hfuel)
    rw [validateMembers_step hkey hw hw' h ih (valueEnds_ws hw'' rfl)
      (by simp only [List.length_append, List.length_cons]; omega),
      skipWs_append hw'' (Json.skipWs_of_not (by decide) rest)]
    simp only [enclosingAll_singleton]
  | @nextMember v vs key s w w' t w'' w₃ ts hkey hw hw' h hw'' hw₃ hs ih ihs =>
    intro rest fuel depth hfuel
    simp only [List.append_assoc, List.cons_append, List.length_append, List.length_cons] at hfuel ⊢
    obtain ⟨fuel, rfl⟩ := Nat.exists_eq_add_of_le' (Nat.le_trans (Nat.le_add_left 1 _) hfuel)
    have hmembers := ihs rest fuel depth
      (by simp only [List.length_append, List.length_cons]; omega)
    rw [validateMembers_step hkey hw hw' h ih (valueEnds_ws hw'' rfl)
      (by simp only [List.length_append, List.length_cons]; omega),
      skipWs_append hw'' (Json.skipWs_of_not (by decide) _)]
    obtain ⟨c, u, rfl, hws, -, hc⟩ := isJson_head hs
    rw [List.cons_append] at hmembers ⊢
    have hnext := skipWs_append hw₃ (Json.skipWs_of_not hws (u ++ '\x7d' :: rest))
    simp only [hnext, enclosingAll_cons]
    -- the members behind a value that is refused are not looked at
    by_cases hv : depth + v.enclosing ≤ jsonMaxDepth
    · simp only [hv, if_true, true_and]
      split
      · rename_i heq
        cases heq
      · rename_i heq
        exact absurd (List.cons.inj heq).1 hc
      · exact hmembers
    · simp only [hv, if_false, false_and]
  | @lastItem v t w h hw ih =>
    intro rest fuel depth hfuel
    simp only [List.append_assoc, List.length_append, List.length_cons] at hfuel ⊢
    obtain ⟨fuel, rfl⟩ := Nat.exists_eq_add_of_le' (Nat.le_trans (Nat.le_add_left 1 _) hfuel)
    rw [validateItems_step ih (valueEnds_ws hw rfl)
      (by simp only [List.length_append, List.length_cons]; omega),
      skipWs_append hw (Json.skipWs_of_not (by decide) rest)]
    simp only [enclosingAll_singleton]
  | @nextItem v vs t w w' ts h hw hw' hs ih ihs =>
    intro rest fuel depth hfuel
    simp only [List.append_assoc, List.cons_append, List.length_append, List.length_cons] at hfuel ⊢
    obtain ⟨fuel, rfl⟩ := Nat.exists_eq_add_of_le' (Nat.le_trans (Nat.le_add_left 1 _) hfuel)
    have hitems := ihs rest fuel depth
      (by simp only [List.length_append, List.length_cons]; omega)
    rw [validateItems_step ih (valueEnds_ws hw rfl)
      (by simp only [List.length_append, List.length_cons]; omega),
      skipWs_append hw (Json.skipWs_of_not (by decide) _)]
    obtain ⟨c, u, rfl, hws, hc, -⟩ := isJson_head hs
    rw [List.cons_append] at hitems ⊢
    have hnext := skipWs_append hw' (Json.skipWs_of_not hws (u ++ ']' :: rest))
    simp only [hnext, enclosingAll_cons]
    by_cases hv : depth + v.enclosing ≤ jsonMaxDepth
    · simp only [hv, if_true, true_and]
      split
      · rename_i heq
        cases heq
      · rename_i heq
        exact absurd (List.cons.inj heq).1 hc
      · exact hitems
    · simp only [hv, if_false, false_and]

/-- A value that is thrown away is taken if and only if no value of it has more containers around
it than the bound. -/
theorem validateNested_isJson {v : Nested} {t rest : Text} (h : IsJson (.value v) t)
    (hrest : v = .scalar → valueEnds rest = true) :
    validateNested (t ++ rest) =
      if v.enclosing ≤ jsonMaxDepth then .ok rest else .error .syntaxError := by
  have hvalidates := isJson_validates h rest _ 0 hrest (Nat.le_refl _)
  rw [Nat.zero_add] at hvalidates
  exact hvalidates

/-! ### Values of a command -/

/-- The text of a value that is well formed but for its depth: after an unknown key any value, after
a known key a container, or a scalar of the kinds that the parser knows. -/
inductive IsKeyValue : Option Key → Nested → Text → Prop
  | unknown {v : Nested} {t : Text} (h : IsJson (.value v) t) : IsKeyValue none v t
  | container {k : Key} {v : Nested} {t : Text} (h : IsJson (.value v) t) (hv : v ≠ .scalar) :
      IsKeyValue (some k) v t
  | scalar {k : Key} {u : HilValue} {t : Text} (h : IsValue t u) (hfit : u.Fits) :
      IsKeyValue (some k) .scalar t
  | literal {k : Key} {t : Text} (h : t ∈ ["true".toList, "false".toList, "null".toList]) :
      IsKeyValue (some k) .scalar t

/-- The key of a member. -/
def Lexed.key (lexed : Lexed) : Option Key :=
  if lexed.tooLong then none else Key.ofName lexed.out

/-- The scan comes from a context and what follows it to the value of a key: one that is unknown, or
was not seen before. -/
inductive ScanReaches : Ctx → Text → Ctx → Option Key → Text → Prop
  | here {ctx : Ctx} {s s' : Text} {lexed : Lexed}
      (hlex : lexStringBounded keyBuffer (Json.skipWs s) = .ok lexed)
      (hcolon : Json.skipWs lexed.rest = ':' :: s')
      (hnew : ∀ k, lexed.key = some k → ctx.pending k = none) :
      ScanReaches ctx s ctx lexed.key (Json.skipWs s')
  | next {ctx ctx₁ ctx' : Ctx} {s s₁ s₂ t : Text} {key : Option Key}
      (hmember : scanMember ctx (Json.skipWs s) = .ok (ctx₁, s₁))
      (hcomma : Json.skipWs s₁ = ',' :: s₂) (h : ScanReaches ctx₁ s₂ ctx' key t) :
      ScanReaches ctx s ctx' key t

/-- A command line of the permitted length in which the parser comes to the value of a key. -/
def Reaches (buf : Text) (ctx : Ctx) (key : Option Key) (t : Text) : Prop :=
  buf.length ≤ maxCommandLineBytes ∧
    ∃ s, Json.skipWs buf = '\x7b' :: s ∧ ScanReaches Ctx.empty s ctx key t

theorem ScanReaches.new {ctx ctx' : Ctx} {s t : Text} {key : Option Key}
    (h : ScanReaches ctx s ctx' key t) : ∀ k, key = some k → ctx'.pending k = none := by
  induction h with
  | here _ _ hnew => exact hnew
  | next _ _ _ ih => exact ih

theorem quote_of_lex {cap : ℕ} {s : Text} {lexed : Lexed}
    (h : lexStringBounded cap s = .ok lexed) : ∃ u, s = '\"' :: u := by
  unfold lexStringBounded at h
  split at h
  · exact ⟨_, rfl⟩
  · cases h

theorem quote_of_member {ctx : Ctx} {s : Text} {r : Ctx × Text} (h : scanMember ctx s = .ok r) :
    ∃ u, s = '\"' :: u := by
  obtain ⟨lexed, s', hlex, -⟩ := scanMember_cases h
  exact quote_of_lex hlex

theorem ScanReaches.quote {ctx ctx' : Ctx} {s t : Text} {key : Option Key}
    (h : ScanReaches ctx s ctx' key t) : ∃ u, Json.skipWs s = '\"' :: u := by
  cases h with
  | here hlex _ _ => exact quote_of_lex hlex
  | next hmember _ _ => exact quote_of_member hmember

theorem length_scanMember {ctx ctx' : Ctx} {s s' : Text}
    (h : scanMember ctx s = .ok (ctx', s')) : s'.length < s.length := by
  have hat : Cursor.At s 0 0 s := ⟨Nat.le_refl 0, Nat.zero_le _, rfl⟩
  have hrefines := Cursor.scanMember_refines ctx hat
  rw [h] at hrefines
  match hx : Cursor.scanMember s (jsonMaxDepth + 2) ctx 0 with
  | .ok b =>
    rw [hx] at hrefines
    have hlen := hrefines.2.length
    have hle := hrefines.2.le
    dsimp only at hlen
    omega
  | .error (.fail e) =>
    rw [hx] at hrefines
    exact hrefines.elim
  | .error (.fault f) =>
    rw [hx] at hrefines
    exact hrefines.elim

theorem length_skipWs (s : Text) : (Json.skipWs s).length ≤ s.length :=
  List.length_dropWhile_le _ s

/-- The error of a value that the scan comes to is the one of the scan. -/
theorem scan_of_reaches {ctx ctx' : Ctx} {s t : Text} {key : Option Key}
    (h : ScanReaches ctx s ctx' key t) {e : ParseError} (herror : scanValue ctx' key t = .error e)
    {fuel : ℕ} (hfuel : s.length ≤ fuel) : scan fuel ctx s = .error e := by
  induction h generalizing fuel with
  | @here ctx s s' lexed hlex hcolon _ =>
    obtain ⟨u, hu⟩ := quote_of_lex hlex
    have hlen := length_skipWs s
    rw [hu, List.length_cons] at hlen
    obtain ⟨fuel, rfl⟩ := Nat.exists_eq_add_of_le' (show 1 ≤ fuel by omega)
    have hmember : scanMember ctx ('\"' :: u) = .error e := by
      rw [hu] at hlex
      have hvalue : scanValue ctx (if lexed.tooLong = true then none else Key.ofName lexed.out)
          (Json.skipWs s') = .error e := herror
      simp only [scanMember, hlex, bind, Except.bind, hcolon, hvalue]
    rw [← scan_skipWs, hu, scan_quote, hmember]
  | @next ctx ctx₁ ctx' s s₁ s₂ t key hmember hcomma hnext ih =>
    obtain ⟨u, hu⟩ := quote_of_member hmember
    have hlen := length_skipWs s
    have hlen₁ := length_scanMember hmember
    have hlen₂ := length_skipWs s₁
    rw [hcomma, List.length_cons] at hlen₂
    obtain ⟨fuel, rfl⟩ := Nat.exists_eq_add_of_le' (show 1 ≤ fuel by omega)
    obtain ⟨u₂, hu₂⟩ := hnext.quote
    rw [hu] at hmember
    have hscan := ih herror (show s₂.length ≤ fuel by omega)
    rw [← scan_skipWs, hu₂] at hscan
    rw [← scan_skipWs, hu, scan_quote, hmember]
    simp only [hcomma, hu₂]
    exact hscan

theorem parse_of_reaches {buf t : Text} {ctx : Ctx} {key : Option Key}
    (h : Reaches buf ctx key t) {e : ParseError} (herror : scanValue ctx key t = .error e) :
    parse buf = .error e := by
  obtain ⟨hlen, s, hbrace, hscan⟩ := h
  unfold parse
  rw [if_neg (Nat.not_lt.2 hlen), hbrace]
  simp only [scan_of_reaches hscan herror (Nat.le_refl _)]

/-! ### The bound -/

theorem valueEnds_of_afterUint {rest : Text} (h : afterUint rest = true) :
    valueEnds rest = true := by
  cases rest with
  | nil => rfl
  | cons c rest =>
    simp only [afterUint, Bool.or_eq_true, decide_eq_true_eq] at h
    simp only [valueEnds, Bool.or_eq_true, decide_eq_true_eq]
    tauto

/-- A container is validated and thrown away, whatever its key. -/
theorem parseValue_container {v : Nested} {t : Text} (h : IsJson (.value v) t) (hv : v ≠ .scalar)
    (rest : Text) :
    ∃ kind, parseValue (t ++ rest) = (validateNested (t ++ rest)).map fun s => (kind, s) := by
  cases h with
  | string _ | number _ | literal _ => exact absurd rfl hv
  | emptyObject _ | object _ _ => exact ⟨.object, rfl⟩
  | emptyArray _ | array _ _ => exact ⟨.array, rfl⟩

theorem scanValue_keyValue {key : Option Key} {v : Nested} {t rest : Text} {ctx : Ctx}
    (h : IsKeyValue key v t) (hnew : ∀ k, key = some k → ctx.pending k = none)
    (hrest : v = .scalar → afterUint rest = true) :
    ∃ ctx', scanValue ctx key (t ++ rest) =
      if v.enclosing ≤ jsonMaxDepth then .ok (ctx', rest) else .error .syntaxError := by
  have hends : v = .scalar → valueEnds rest = true :=
    fun hv => valueEnds_of_afterUint (hrest hv)
  have hsome : ∀ k, key = some k → ∀ s, scanValue ctx (some k) s =
      (parseValue s).map fun p => (ctx.put k p.1, p.2) := by
    intro k hk s
    rw [scanValue, hnew k hk]
    rfl
  cases h with
  | unknown h =>
    refine ⟨{ ctx with unknownKeySeen := true }, ?_⟩
    rw [scanValue, validateNested_isJson h hends]
    split_ifs <;> rfl
  | @container k _ _ h hv =>
    obtain ⟨kind, hparse⟩ := parseValue_container h hv rest
    refine ⟨ctx.put k kind, ?_⟩
    rw [hsome k rfl, hparse, validateNested_isJson h hends]
    split_ifs <;> rfl
  | @scalar k u _ h hfit =>
    refine ⟨ctx.put k u, ?_⟩
    rw [hsome k rfl, parseValue_complete h hfit (hrest rfl),
      if_pos (show Nested.scalar.enclosing ≤ jsonMaxDepth from Nat.zero_le _)]
    rfl
  | @literal k _ h =>
    have hliteral : ∃ kind, parseValue (t ++ rest) = .ok (kind, rest) := by
      simp only [List.mem_cons, List.not_mem_nil, or_false] at h
      rcases h with rfl | rfl | rfl
      · exact ⟨.bool, rfl⟩
      · exact ⟨.bool, rfl⟩
      · exact ⟨.null, rfl⟩
    obtain ⟨kind, hparse⟩ := hliteral
    refine ⟨ctx.put k kind, ?_⟩
    rw [hsome k rfl, hparse,
      if_pos (show Nested.scalar.enclosing ≤ jsonMaxDepth from Nat.zero_le _)]
    rfl

theorem sourceParse_no_overflow (buf : Text) (out : CommandIn) :
    sourceParse (jsonMaxDepth + 2) buf out ≠ .error .stackOverflow := by
  rw [sourceParse_eq]
  cases parse buf <;> exact fun h => nomatch h

/-- **The bound holds of a value that the parser comes to if and only if it is not nested one
container deeper than the bound with nothing in the innermost ones.**  The bound: a value of at most
32 nested containers is taken to its end, a value of more makes the parser refuse the line as a
syntax error, and the validation calls itself no deeper than 34 times. -/
theorem nesting_bound_iff {buf t rest : Text} {ctx : Ctx} {key : Option Key} {v : Nested}
    (hreach : Reaches buf ctx key (t ++ rest)) (hv : IsKeyValue key v t)
    (hrest : v = .scalar → afterUint rest = true) :
    ((v.nesting ≤ jsonMaxDepth → ∃ ctx', scanValue ctx key (t ++ rest) = .ok (ctx', rest)) ∧
        (jsonMaxDepth < v.nesting → scanValue ctx key (t ++ rest) = .error .syntaxError ∧
          parse buf = .error .syntaxError) ∧
        ∀ out, sourceParse (jsonMaxDepth + 2) buf out ≠ .error .stackOverflow) ↔
      ¬(v.nesting = jsonMaxDepth + 1 ∧ v.enclosing ≤ jsonMaxDepth) := by
  obtain ⟨-, s, -, hscan⟩ := id hreach
  obtain ⟨ctx', hvalue⟩ := scanValue_keyValue hv hscan.new hrest
  obtain ⟨hle, hge⟩ := v.nesting_bounds
  constructor
  · rintro ⟨-, hdeep, -⟩ ⟨hnesting, henclosing⟩
    obtain ⟨hrefused, -⟩ := hdeep (by omega)
    rw [hvalue, if_pos henclosing] at hrefused
    cases hrefused
  · intro hnot
    refine ⟨fun hnesting => ⟨ctx', ?_⟩, fun hnesting => ?_, sourceParse_no_overflow buf⟩
    · rw [hvalue, if_pos (Nat.le_trans hle hnesting)]
    · have henclosing : ¬v.enclosing ≤ jsonMaxDepth := by
        intro h
        exact hnot ⟨by omega, h⟩
      rw [if_neg henclosing] at hvalue
      exact ⟨hvalue, parse_of_reaches hreach hvalue⟩

/-- Arrays in each other, the innermost one empty. -/
def Nested.deep : ℕ → Nested
  | 0 => .array []
  | n + 1 => .array [deep n]

/-- The text of so many arrays. -/
def deepText (n : ℕ) : Text := List.replicate (n + 1) '[' ++ List.replicate (n + 1) ']'

/-- A line whose value of an unknown key is so many arrays. -/
def deepLine (n : ℕ) : Text := "\x7b\"x\":".toList ++ (deepText n ++ ['\x7d'])

theorem isJson_deep (n : ℕ) : IsJson (.value (Nested.deep n)) (deepText n) := by
  induction n with
  | zero => exact .emptyArray isWs_nil
  | succ n ih =>
    have hitems := IsJson.array isWs_nil (.lastItem ih isWs_nil)
    have htext : '[' :: ([] ++ ((deepText n ++ []) ++ [']'])) = deepText (n + 1) := by
      simp only [deepText, List.nil_append, List.append_nil, List.append_assoc,
        ← List.replicate_succ']
      rfl
    rw [htext] at hitems
    exact hitems

theorem reaches_deep {n : ℕ} (hlen : (deepLine n).length ≤ maxCommandLineBytes) :
    Reaches (deepLine n) Ctx.empty none (deepText n ++ ['\x7d']) := by
  refine ⟨hlen, "\"x\":".toList ++ (deepText n ++ ['\x7d']), rfl, ?_⟩
  have hlex : lexStringBounded keyBuffer
      (Json.skipWs ("\"x\":".toList ++ (deepText n ++ ['\x7d']))) =
      .ok ⟨['x'], false, ':' :: (deepText n ++ ['\x7d'])⟩ := rfl
  exact ScanReaches.here hlex rfl fun _ _ => rfl

/-- Two arrays are within the bound. -/
theorem nesting_bound_two : ∃ ctx',
    scanValue Ctx.empty none (deepText 1 ++ ['\x7d']) = .ok (ctx', ['\x7d']) :=
  ((nesting_bound_iff (reaches_deep (by decide)) (.unknown (isJson_deep 1))
    (fun h => nomatch h)).2 (by decide)).1 (by decide)

/-- Thirty-three arrays, the innermost one empty: more than the bound, and no syntax error. -/
theorem deep_accepted : Reaches (deepLine 32) Ctx.empty none (deepText 32 ++ ['\x7d']) ∧
    IsKeyValue none (Nested.deep 32) (deepText 32) ∧ jsonMaxDepth < (Nested.deep 32).nesting ∧
    parse (deepLine 32) = .error .missingKey := by
  refine ⟨reaches_deep (by decide +kernel), .unknown (isJson_deep 32), by decide +kernel, ?_⟩
  have hrefusal : refusal (parse (deepLine 32)) = some .missingKey := by decide +kernel
  exact refusal_eq hrefusal

end Hil

end LeAudioReceiver
