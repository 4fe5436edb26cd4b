import LeAudioReceiver.Hil.Lexer

/-!
# What the HIL host sends and what the source makes of it

The command lines of the host against the parser of the source, for every request, run identifier
and command number.

* `Hil.scan_members` : the scan of an object of known keys, each with a plain string or an unsigned
  integer.
* `Hil.command_agreement` : **a line that the host writes is parsed into exactly what it encodes, if
  and only if the run identifier does not end in a newline and the command number has no more than
  59 digits.**

The host's `$` lets a run identifier through that ends in a newline; the source never does.
-/

namespace LeAudioReceiver

namespace Hil

open Json (Text Value plain)

/-! ### The lexer on what the host writes -/

theorem plain_spec {c : Char} (h : plain c = true) :
    ¬c.toNat < 0x20 ∧ c ≠ '\"' ∧ c ≠ '\\' := by
  simp only [plain, Json.printable, Bool.and_eq_true, decide_eq_true_eq] at h
  exact ⟨Nat.not_lt.2 h.1.1.1, h.1.2, h.2⟩

theorem lexChars_plain {cap : ℕ} {s out : Text} (rest : Text) (hs : s.all plain = true)
    (hlen : out.length + s.length < cap) :
    lexChars cap (s ++ '\"' :: rest) out false = .ok ⟨out ++ s, false, rest⟩ := by
  induction s generalizing out with
  | nil =>
    rw [List.nil_append, List.append_nil]
    unfold lexChars
    rfl
  | cons c s ih =>
    rw [List.all_cons, Bool.and_eq_true] at hs
    obtain ⟨hlow, hquote, hslash⟩ := plain_spec hs.1
    rw [List.length_cons] at hlen
    have hfit : ¬out.length + 1 ≥ cap := by omega
    have hnext := @ih (out ++ [c]) hs.2 (by rw [List.length_append, List.length_singleton]; omega)
    rw [List.append_assoc] at hnext
    rw [List.cons_append]
    unfold lexChars
    rw [if_neg hlow, if_neg hquote, if_neg hslash, if_neg hfit]
    exact hnext

theorem lexStringBounded_quote {cap : ℕ} {s : Text} (hs : s.all plain = true)
    (hlen : s.length < cap) (rest : Text) :
    lexStringBounded cap (Json.quote s ++ rest) = .ok ⟨s, false, rest⟩ := by
  have hchars : lexChars cap (s ++ '\"' :: rest) [] false = .ok ⟨[] ++ s, false, rest⟩ :=
    lexChars_plain rest hs (by simpa using hlen)
  rw [Json.quote_plain hs]
  simpa [lexStringBounded] using hchars

theorem lexUint_digits {ds rest : Text} (acc : ℕ) (hds : ∀ c ∈ ds, c.isDigit = true)
    (hrest : Json.ends rest = true) (hlt : Nat.ofDigitChars 10 ds acc < 2 ^ 64) :
    lexUint (ds ++ rest) acc = .ok (Nat.ofDigitChars 10 ds acc, rest) := by
  induction ds generalizing acc with
  | nil =>
    rcases Json.ends_cases hrest with rfl | ⟨c, t, rfl, rfl | rfl | rfl⟩ <;>
      simp [lexUint]
  | cons c ds ih =>
    have hc := hds c List.mem_cons_self
    rw [Nat.ofDigitChars_cons] at hlt ⊢
    have hle := le_ofDigitChars ds (10 * acc + (c.toNat - '0'.toNat))
    have hfit : ¬acc > (2 ^ 64 - 1 - (c.toNat - '0'.toNat)) / 10 := by omega
    have hnext := ih _ (fun d hd => hds d (List.mem_cons_of_mem c hd)) hlt
    simp only [List.cons_append, lexUint, hc, if_true, if_neg hfit]
    rw [Nat.mul_comm acc 10]
    exact hnext

/-! ### Values -/

/-- A value of the host and what the source takes from it. -/
inductive Sends : Value → HilValue → Prop
  | str {s : Text} : s.all plain = true → s.length < stringBuffer → Sends (.str s) (.string s)
  | int {n : ℕ} : n < 2 ^ 64 → Sends (.int n) (.uint n)

theorem afterUint_of_ends {rest : Text} (h : Json.ends rest = true) (hne : rest.head? ≠ some ']') :
    afterUint rest = true := by
  rcases Json.ends_cases h with rfl | ⟨c, t, rfl, rfl | rfl | rfl⟩
  · rfl
  · rfl
  · exact absurd rfl hne
  · rfl

theorem leadingZero_toDigits (n : ℕ) {rest : Text} (h : Json.ends rest = true) :
    leadingZero (Nat.toDigits 10 n ++ rest) = false := by
  rcases Json.toDigits_cases n with hn | ⟨c, ds, hn, hc⟩
  · rw [hn]
    rcases Json.ends_cases h with rfl | ⟨c, t, rfl, rfl | rfl | rfl⟩ <;> rfl
  · rw [hn, List.cons_append]
    unfold leadingZero
    split
    · rename_i heq
      exact absurd (List.cons.inj heq).1 hc
    · rfl

theorem parseValue_sends {v : Value} {w : HilValue} (h : Sends v w) {rest : Text}
    (hrest : Json.ends rest = true) (hne : rest.head? ≠ some ']') :
    parseValue (Json.dumps v ++ rest) = .ok (w, rest) := by
  cases h with
  | @str s hs hlen =>
    have hlex := lexStringBounded_quote hs hlen rest
    rw [Json.dumps_str]
    rw [Json.quote, List.cons_append] at hlex ⊢
    unfold parseValue
    dsimp only
    rw [hlex]
    rfl
  | @int n hn =>
    obtain ⟨c, ds, hds⟩ := List.exists_cons_of_ne_nil (Nat.toDigits_ne_nil (n := n) (b := 10))
    have hdigits : ∀ d ∈ Nat.toDigits 10 n, d.isDigit = true := fun d => Json.isDigit_toDigits
    have hlex := lexUint_digits 0 hdigits hrest (by rwa [Nat.ofDigitChars_ten_toDigits])
    have hzero := leadingZero_toDigits n hrest
    have hc : c.isDigit = true := hdigits c (hds ▸ List.mem_cons_self)
    have hother : ∀ d : Char, d.isDigit = false → c ≠ d := by
      rintro d hd rfl
      rw [hc] at hd
      cases hd
    rw [Nat.ofDigitChars_ten_toDigits] at hlex
    rw [Json.dumps_natCast]
    rw [hds, List.cons_append] at hlex hzero ⊢
    unfold parseValue
    dsimp only
    rw [hzero, hlex, if_neg (hother '\"' (by decide)), if_neg (hother '\x7b' (by decide)),
      if_neg (hother '[' (by decide)), if_neg (hother 't' (by decide)),
      if_neg (hother 'f' (by decide)), if_neg (hother 'n' (by decide)), hc]
    simp [bind, Except.bind, afterUint_of_ends hrest hne]

/-! ### The scan -/

theorem Key.name_spec (k : Key) :
    k.name.all plain = true ∧ k.name.length < keyBuffer ∧ Key.ofName k.name = some k := by
  cases k <;> exact ⟨by decide +kernel, by decide, rfl⟩

theorem dumps_sends {v : Value} {w : HilValue} (h : Sends v w) :
    ∃ c s, Json.dumps v = c :: s ∧ Json.isWs c = false := by
  have hkept : Json.Kept (fun m => (.ok (.obj m) : Except Unit Value)) v := by
    cases h <;> trivial
  obtain ⟨c, s, hs, hws, -⟩ := Json.dumps_head hkept
  exact ⟨c, s, hs, hws⟩

section

variable {ctx : Ctx} {k : Key} {v : Value} {w : HilValue}

theorem scanMember_new (hnew : ctx.pending k = none) (hv : Sends v w) (rest : Text)
    (hrest : Json.ends rest = true) (hne : rest.head? ≠ some ']') :
    scanMember ctx (Json.quote k.name ++ ':' :: (Json.dumps v ++ rest)) =
      .ok (ctx.put k w, rest) := by
  obtain ⟨hplain, hlen, hkey⟩ := k.name_spec
  obtain ⟨c, s, hs, hws⟩ := dumps_sends hv
  have hlex := lexStringBounded_quote hplain hlen (':' :: (Json.dumps v ++ rest))
  have hparse := parseValue_sends hv hrest hne
  rw [hs, List.cons_append] at hparse hlex ⊢
  have hvalue : scanValue ctx (some k) (c :: (s ++ rest)) = .ok (ctx.put k w, rest) := by
    rw [scanValue, hnew, hparse]
    rfl
  simp only [scanMember, hlex, bind, Except.bind, Bool.false_eq_true, if_false, hkey,
    Json.skipWs_of_not (by decide : Json.isWs ':' = false), Json.skipWs_of_not hws, hvalue]

theorem scan_quote (fuel : ℕ) (s : Text) :
    scan (fuel + 1) ctx ('\"' :: s) =
      match scanMember ctx ('\"' :: s) with
      | .error e => .error e
      | .ok (ctx, s) =>
        match Json.skipWs s with
        | ',' :: s =>
          match Json.skipWs s with
          | [] => .error .syntaxError
          | '\x7d' :: _ => .error .syntaxError
          | s => scan fuel ctx s
        | '\x7d' :: s => .ok (ctx, s)
        | _ => .error .syntaxError := rfl

theorem scan_last (hnew : ctx.pending k = none) (hv : Sends v w) (fuel : ℕ) (rest : Text) :
    scan (fuel + 1) ctx (Json.dumpMembers [(k.name, v)] ++ rest) = .ok (ctx.put k w, rest) := by
  have hmember := scanMember_new hnew hv ('\x7d' :: rest) rfl (by simp)
  rw [Json.dumpMembers_singleton]
  simp only [List.append_assoc, List.cons_append, List.nil_append]
  rw [Json.quote, List.cons_append] at hmember ⊢
  rw [scan_quote, hmember]
  rfl

theorem scan_next (hnew : ctx.pending k = none) (hv : Sends v w) (fuel : ℕ) (j : Key) (u : Value)
    (l : List (Text × Value)) (rest : Text) :
    scan (fuel + 1) ctx (Json.dumpMembers ((k.name, v) :: (j.name, u) :: l) ++ rest) =
      scan fuel (ctx.put k w) (Json.dumpMembers ((j.name, u) :: l) ++ rest) := by
  have hmember := scanMember_new hnew hv (',' :: (Json.dumpMembers ((j.name, u) :: l) ++ rest)) rfl
    (by simp)
  obtain ⟨s, hs⟩ := Json.dumpMembers_head j.name u l
  rw [Json.dumpMembers_cons]
  simp only [List.append_assoc, List.cons_append]
  rw [hs, Json.quote] at hmember ⊢
  simp only [List.cons_append] at hmember ⊢
  rw [scan_quote, hmember]
  rfl

end

/-- The values of all members. -/
def Ctx.putAll (ctx : Ctx) (pairs : List (Key × HilValue)) : Ctx :=
  pairs.foldl (fun ctx p => ctx.put p.1 p.2) ctx

/-- A member of the host and the key and value that the source takes from it. -/
def Writes (m : Text × Value) (p : Key × HilValue) : Prop := m.1 = p.1.name ∧ Sends m.2 p.2

/-- **The scan takes every member of the object.** -/
theorem scan_members {members : List (Text × Value)} {pairs : List (Key × HilValue)}
    (h : List.Forall₂ Writes members pairs) (hne : members ≠ []) (ctx : Ctx)
    (hnew : ∀ p ∈ pairs, ctx.pending p.1 = none) (hnodup : (pairs.map Prod.fst).Nodup) {fuel : ℕ}
    (hfuel : members.length ≤ fuel) (rest : Text) :
    scan fuel ctx (Json.dumpMembers members ++ rest) = .ok (ctx.putAll pairs, rest) := by
  induction h generalizing ctx fuel with
  | nil => exact absurd rfl hne
  | @cons m p ms ps hm hms ih =>
    obtain ⟨name, v⟩ := m
    obtain ⟨k, w⟩ := p
    obtain ⟨hname, hv⟩ := hm
    dsimp only at hname
    subst hname
    obtain ⟨fuel, rfl⟩ := Nat.exists_eq_add_of_le' (Nat.le_trans (Nat.le_add_left 1 _) hfuel)
    have hk : ctx.pending k = none := hnew (k, w) List.mem_cons_self
    cases hms with
    | nil => exact scan_last hk hv fuel rest
    | @cons m p ms ps hm hms =>
      obtain ⟨name, u⟩ := m
      obtain ⟨hname, hu⟩ := hm
      dsimp only at hname
      subst hname
      rw [scan_next hk hv]
      rw [List.map_cons, List.nodup_cons] at hnodup
      refine ih (by simp) _ (fun q hq => ?_) hnodup.2 (Nat.le_of_succ_le_succ hfuel)
      -- the key that was just stored does not come again
      have hother : q.1 ≠ k := fun h => hnodup.1 (List.mem_map.2 ⟨q, hq, h⟩)
      exact (if_neg hother).trans (hnew q (List.mem_cons_of_mem _ hq))

/-! ### Identifiers -/

theorem hostCommandId_safe (seq : ℕ) : safeIdCharsOk (hostCommandId seq) = true := by
  have hzeros : (List.replicate (4 - (Nat.toDigits 10 seq).length) '0').all idTail = true := by
    rw [List.all_replicate]
    split <;> rfl
  have hdigits : (Nat.toDigits 10 seq).all idTail = true := by
    rw [List.all_eq_true]
    intro c hc
    have hdigit := Char.isDigit_iff_toNat.1 (Json.isDigit_toDigits hc)
    refine idTail_of_idHead ?_
    simp only [idHead, Bool.or_eq_true, Bool.and_eq_true, decide_eq_true_eq, Char.le_def,
      UInt32.le_iff_toNat_le]
    exact .inr hdigit
  show (idHead 'c' && (['m', 'd', '-'] ++ List.replicate (4 - (Nat.toDigits 10 seq).length) '0' ++
    Nat.toDigits 10 seq).all idTail) = true
  rw [List.all_append, List.all_append, hzeros, hdigits]
  rfl

/-- A command number of at most 59 digits is one whose identifier is within its length. -/
theorem length_hostCommandId (seq : ℕ) :
    (hostCommandId seq).length ≤ maxCommandIdLen ↔ seq < 10 ^ 59 := by
  have hdigits := Nat.length_toDigits_le_iff (n := seq) (b := 10) (k := 59) (by decide) (by decide)
  have hlen : (hostCommandId seq).length =
      4 + (4 - (Nat.toDigits 10 seq).length) + (Nat.toDigits 10 seq).length := by
    simp only [hostCommandId, List.length_append, List.length_replicate]
    rfl
  rw [← hdigits, hlen, maxCommandIdLen]
  omega

theorem validateRunId_cases {runId : Text} (h : validateRunId runId = true) :
    (safeIdCharsOk runId = true ∧ runId.length ≤ maxRunIdLen) ∨ runId.getLast? = some '\n' := by
  cases runId with
  | nil => cases h
  | cons c s =>
    simp only [validateRunId, runIdMatches, Bool.and_eq_true, decide_eq_true_eq] at h
    obtain ⟨⟨hc, hlen⟩, hend⟩ := h
    have hsplit := List.takeWhile_append_dropWhile (p := idTail) (l := s)
    have htail : ∀ d ∈ s.takeWhile idTail, idTail d = true :=
      List.all_eq_true.1 List.all_takeWhile
    unfold atEnd at hend
    split at hend
    · rename_i hrest
      rw [hrest, List.append_nil] at hsplit
      rw [hsplit] at htail hlen
      left
      simp only [safeIdCharsOk, hc, Bool.true_and, List.all_eq_true, List.length_cons]
      exact ⟨htail, Nat.succ_le_succ hlen⟩
    · rename_i hrest
      right
      rw [← hsplit, hrest]
      simp [List.getLast?_cons, List.getLast?_append]
    · cases hend

/-- A safe identifier does not end in a newline. -/
theorem getLast?_of_safe {id : Text} (h : safeIdCharsOk id = true) : id.getLast? ≠ some '\n' := by
  intro hlast
  have hmem := List.mem_of_getLast? hlast
  exact absurd (idTail_of_safe h _ hmem) (by decide)

/-! ### Peer addresses -/

theorem nibble_digitChar {n : ℕ} (h : n < 16) : nibble n.digitChar.toUpper = some n := by
  have hall : ∀ d : Fin 16, nibble d.val.digitChar.toUpper = some d.val := by decide
  exact hall ⟨n, h⟩

theorem hexByte_plain (b : UInt8) : (hexByte b).all plain = true := by
  have hall : ∀ d : Fin 16, plain d.val.digitChar.toUpper = true := by decide
  have hb : b.toNat < 256 := b.toNat_lt
  have h₁ := hall ⟨b.toNat / 16, by omega⟩
  have h₂ := hall ⟨b.toNat % 16, by omega⟩
  simp only [hexByte, List.all_cons, List.all_nil, h₁, h₂, Bool.and_self]

theorem peerAddressText_plain (a : Fin 6 → UInt8) : (peerAddressText a).all plain = true := by
  have hcolon : plain ':' = true := by decide
  simp only [peerAddressText, List.all_append, List.all_cons, hexByte_plain, hcolon, Bool.and_self]

theorem peerByte_hexByte {s : Text} {i : ℕ} {b : UInt8}
    (hhi : s[i * 3]? = some (Nat.digitChar (b.toNat / 16)).toUpper)
    (hlo : s[i * 3 + 1]? = some (Nat.digitChar (b.toNat % 16)).toUpper)
    (hcolon : i < 5 → s[i * 3 + 2]? = some ':') : peerByte s i = some b := by
  have hb : b.toNat < 256 := b.toNat_lt
  have hnot : ¬(i < 5 ∧ s[i * 3 + 2]? ≠ some ':') := fun h => h.2 (hcolon h.1)
  unfold peerByte
  rw [hhi, hlo, Option.bind_some, Option.bind_some, nibble_digitChar (by omega),
    nibble_digitChar (by omega)]
  dsimp only
  rw [if_neg hnot, Nat.div_add_mod', UInt8.ofNat_toNat]

theorem parsePeerAddress_text (a : Fin 6 → UInt8) :
    parsePeerAddress (peerAddressText a) = some a := by
  have h₀ : peerByte (peerAddressText a) 0 = some (a 0) := peerByte_hexByte rfl rfl fun _ => rfl
  have h₁ : peerByte (peerAddressText a) 1 = some (a 1) := peerByte_hexByte rfl rfl fun _ => rfl
  have h₂ : peerByte (peerAddressText a) 2 = some (a 2) := peerByte_hexByte rfl rfl fun _ => rfl
  have h₃ : peerByte (peerAddressText a) 3 = some (a 3) := peerByte_hexByte rfl rfl fun _ => rfl
  have h₄ : peerByte (peerAddressText a) 4 = some (a 4) := peerByte_hexByte rfl rfl fun _ => rfl
  have h₅ : peerByte (peerAddressText a) 5 = some (a 5) :=
    peerByte_hexByte rfl rfl fun h => absurd h (by decide)
  have hlen : ¬(peerAddressText a).length ≠ 17 := fun h => h rfl
  have hall : ![a 0, a 1, a 2, a 3, a 4, a 5] = a := by
    funext i
    match i with
    | 0 | 1 | 2 | 3 | 4 | 5 => rfl
  unfold parsePeerAddress
  rw [if_neg hlen, h₀, h₁, h₂, h₃, h₄, h₅]
  dsimp only
  rw [hall]

/-! ### What a request encodes -/

theorem RowSpec.postInit_ok {row : RowSpec} (h : row.postInit = .ok ()) :
    row.mode ∈ modeNames ∧ row.profile ∈ profileNames ∧
      (1 ≤ row.scoredSduCount ∧ row.scoredSduCount ≤ 20000) ∧
      (1 ≤ row.signalSeed ∧ row.signalSeed ≤ 0xffffffff) ∧
      row.reconnectPolicy ∈ policyNames := by
  unfold RowSpec.postInit at h
  split_ifs at h with h₁ h₂ h₃ h₄ h₅ h₆ h₇ h₈ h₉
  have hmem : ∀ (names : List Text) (s : Text), ¬(!names.contains s) = true → s ∈ names := by
    intro names s h
    simpa using h
  exact ⟨hmem _ _ h₃, hmem _ _ h₄, h₅, h₆, hmem _ _ h₇⟩

/-- The command that the source is to take from a request. -/
def Request.Yields (r : Request) (runId : Text) (seq : ℕ) (cmd : CommandIn) : Prop :=
  match r with
  | unpair peerAddress peerAddressType =>
    cmd = { CommandIn.candidate .unpair (hostCommandId seq) runId with
              peerAddress, peerAddressType }
  | configure peerAddress peerAddressType row =>
    ∃ mode profile scoredSduCount signalSeed reconnectPolicy,
      cmd = { command := .configure, commandId := hostCommandId seq, runId, peerAddress
              peerAddressType, mode, profile, scoredSduCount, signalSeed, reconnectPolicy } ∧
        mode.name = row.mode ∧ profile.name = row.profile ∧
        (scoredSduCount.toNat : ℤ) = row.scoredSduCount ∧
        (signalSeed.toNat : ℤ) = row.signalSeed ∧ reconnectPolicy.name = row.reconnectPolicy
  | r => cmd = .candidate r.command (hostCommandId seq) runId

theorem Request.Yields.ids {r : Request} {runId : Text} {seq : ℕ} {cmd : CommandIn}
    (h : r.Yields runId seq cmd) : cmd.commandId = hostCommandId seq ∧ cmd.runId = runId := by
  cases r with
  | configure a t row =>
    obtain ⟨mode, profile, count, seed, policy, rfl, -⟩ := h
    exact ⟨rfl, rfl⟩
  | hello | idle | unpair a t | start | stop | status =>
    rw [show cmd = _ from h]
    exact ⟨rfl, rfl⟩

/-- The keys and values that the source scans. -/
def Request.pairs (r : Request) (runId : Text) (seq : ℕ) : List (Key × HilValue) :=
  [(.protocolVersion, .uint 1), (.command, .string r.command.name),
    (.commandId, .string (hostCommandId seq)), (.runId, .string runId)] ++
  match r with
  | unpair a t => [(.peerAddress, .string (peerAddressText a)), (.peerAddressType, .string t.name)]
  | configure a t row =>
    [(.peerAddress, .string (peerAddressText a)), (.peerAddressType, .string t.name),
      (.mode, .string row.mode), (.profile, .string row.profile),
      (.scoredSduCount, .uint row.scoredSduCount.toNat),
      (.signalSeed, .uint row.signalSeed.toNat), (.reconnectPolicy, .string row.reconnectPolicy)]
  | _ => []

/-- The members of the payload. -/
def Request.payload (r : Request) (runId : Text) (seq : ℕ) : List (Text × Value) :=
  [("protocol_version".toList, .int 1), ("command".toList, .str r.command.name),
    ("command_id".toList, .str (hostCommandId seq)), ("run_id".toList, .str runId)] ++ r.extra

section

variable {r : Request} {runId : Text} {seq : ℕ}

theorem sends_name {names : List Text}
    (hall : (names.all fun s => s.all plain && decide (s.length < stringBuffer)) = true) {s : Text}
    (hs : s ∈ names) : Sends (.str s) (.string s) := by
  have h := List.all_eq_true.1 hall s hs
  rw [Bool.and_eq_true, decide_eq_true_eq] at h
  exact .str h.1 h.2

theorem sends_int {n hi : ℤ} (h : 1 ≤ n ∧ n ≤ hi) (hhi : hi < 2 ^ 64) :
    Sends (.int n) (.uint n.toNat) := by
  obtain ⟨m, rfl⟩ := Int.eq_ofNat_of_zero_le (Int.le_trans (by decide) h.1)
  rw [Int.toNat_natCast]
  exact .int (by omega)

theorem Request.writes (hr : r.RowOk) (hrun : safeIdCharsOk runId = true)
    (hlen : runId.length ≤ maxRunIdLen) (hseq : seq < 10 ^ 59) :
    List.Forall₂ Writes (r.payload runId seq) (r.pairs runId seq) := by
  have hversion : Writes ("protocol_version".toList, .int 1) (.protocolVersion, .uint 1) :=
    ⟨rfl, .int (by decide)⟩
  have hcommand : Writes ("command".toList, .str r.command.name)
      (.command, .string r.command.name) := by
    refine ⟨rfl, .str ?_ ?_⟩ <;> cases r.command <;> decide +kernel
  have hcommandId : Writes ("command_id".toList, .str (hostCommandId seq))
      (.commandId, .string (hostCommandId seq)) :=
    ⟨rfl, .str (plain_of_safe (hostCommandId_safe seq))
      (Nat.lt_of_le_of_lt ((length_hostCommandId seq).2 hseq) (by decide))⟩
  have hrunId : Writes ("run_id".toList, .str runId) (.runId, .string runId) :=
    ⟨rfl, .str (plain_of_safe hrun) (Nat.lt_of_le_of_lt hlen (by decide))⟩
  have haddress : ∀ a : Fin 6 → UInt8, Writes ("peer_address".toList, .str (peerAddressText a))
      (.peerAddress, .string (peerAddressText a)) := fun a =>
    ⟨rfl, .str (peerAddressText_plain a) (by decide : 17 < stringBuffer)⟩
  have htype : ∀ t : AddressType, Writes ("peer_address_type".toList, .str t.name)
      (.peerAddressType, .string t.name) := by
    intro t
    refine ⟨rfl, .str ?_ ?_⟩ <;> cases t <;> decide +kernel
  refine .cons hversion (.cons hcommand (.cons hcommandId (.cons hrunId ?_)))
  cases r with
  | unpair a t => exact .cons (haddress a) (.cons (htype t) .nil)
  | configure a t row =>
    obtain ⟨hmode, hprofile, hcount, hseed, hpolicy⟩ := RowSpec.postInit_ok hr
    refine .cons (haddress a) (.cons (htype t) ?_)
    refine .cons ⟨rfl, sends_name (by decide +kernel) hmode⟩ ?_
    refine .cons ⟨rfl, sends_name (by decide +kernel) hprofile⟩ ?_
    refine .cons ⟨rfl, sends_int hcount (by decide)⟩ ?_
    refine .cons ⟨rfl, sends_int hseed (by decide)⟩ ?_
    exact .cons ⟨rfl, sends_name (by decide +kernel) hpolicy⟩ .nil
  | hello | idle | start | stop | status => exact .nil

/-! ### The checks of the source -/

/-- The context after the scan. -/
def Request.ctx (r : Request) (runId : Text) (seq : ℕ) : Ctx :=
  Ctx.empty.putAll (r.pairs runId seq)

theorem checkId_ok {ctx : Ctx} {k : Key} {id : Text} {maxLen : ℕ} (h : ctx.text k = .ok id)
    (hsafe : safeIdCharsOk id = true) (hlen : id.length ≤ maxLen) :
    checkId ctx k maxLen = .ok id := by
  have hne : ¬(id.length = 0 ∨ id.length > maxLen) := by
    rintro (hzero | hlong)
    · rw [List.length_eq_zero_iff.1 hzero] at hsafe
      cases hsafe
    · exact absurd hlen (Nat.not_le.2 hlong)
  simp only [checkId, h, bind, Except.bind, if_neg hne, hsafe]
  rfl

theorem commandFromString_name (c : SourceCommand) : commandFromString c.name = .ok c := by
  cases c <;> rfl

theorem select_ctx (hrun : safeIdCharsOk runId = true) (hlen : runId.length ≤ maxRunIdLen)
    (hseq : seq < 10 ^ 59) :
    select (r.ctx runId seq) =
      match r.command with
      | .unpair => checkPeer (r.ctx runId seq)
          (CommandIn.candidate r.command (hostCommandId seq) runId)
      | .configure => checkPeer (r.ctx runId seq)
          (CommandIn.candidate r.command (hostCommandId seq) runId) >>=
            checkConfig (r.ctx runId seq)
      | _ => .ok (CommandIn.candidate r.command (hostCommandId seq) runId) := by
  have hcommand : (r.ctx runId seq).text .command = .ok r.command.name := by
    cases r <;> rfl
  have hset : checkKeySet (r.ctx runId seq) r.command = .ok () := by
    cases r <;> rfl
  have hprotocol : checkProtocol (r.ctx runId seq) = .ok () := by
    cases r <;> rfl
  have hid : checkId (r.ctx runId seq) .commandId maxCommandIdLen = .ok (hostCommandId seq) :=
    checkId_ok (by cases r <;> rfl) (hostCommandId_safe seq) ((length_hostCommandId seq).2 hseq)
  have hrunId : checkId (r.ctx runId seq) .runId maxRunIdLen = .ok runId :=
    checkId_ok (by cases r <;> rfl) hrun hlen
  unfold select
  generalize r.command = c at *
  cases c <;> simp only [hcommand, hset, hprotocol, hid, hrunId, commandFromString_name, bind,
    Except.bind, pure, Except.pure]

theorem checkPeer_ok {ctx : Ctx} {a : Fin 6 → UInt8} {t : AddressType}
    (ha : ctx.text .peerAddress = .ok (peerAddressText a))
    (ht : ctx.text .peerAddressType = .ok t.name) (candidate : CommandIn) :
    checkPeer ctx candidate = .ok { candidate with peerAddress := a, peerAddressType := t } := by
  have htype : named [.pub, .random] AddressType.name t.name = .ok t := by
    cases t <;> rfl
  simp only [checkPeer, ha, ht, bind, Except.bind, parsePeerAddress_text, htype, pure, Except.pure]

theorem inRange_ok {n hi : ℤ} {m : ℕ} (h : 1 ≤ n ∧ n ≤ hi) (hhi : hi = m) (hm : m < 2 ^ 32) :
    ∃ w : UInt32, inRange n.toNat m = .ok w ∧ (w.toNat : ℤ) = n := by
  obtain ⟨k, rfl⟩ := Int.eq_ofNat_of_zero_le (Int.le_trans (by decide) h.1)
  have hk : ¬(k < 1 ∨ k > m) := by omega
  refine ⟨.ofNat k, by rw [Int.toNat_natCast, inRange, if_neg hk], ?_⟩
  rw [UInt32.toNat_ofNat_of_lt' (by show k < 2 ^ 32; omega)]

theorem named_mode {s : Text} (h : s ∈ modeNames) :
    ∃ m : Mode, named [.mono, .modeA, .modeB] Mode.name s = .ok m ∧ m.name = s := by
  simp only [modeNames, List.mem_cons, List.not_mem_nil, or_false] at h
  rcases h with rfl | rfl | rfl
  · exact ⟨.mono, rfl, rfl⟩
  · exact ⟨.modeA, rfl, rfl⟩
  · exact ⟨.modeB, rfl, rfl⟩

theorem named_profile {s : Text} (h : s ∈ profileNames) :
    ∃ p : Profile, named [.p48_3_1, .p48_4_1] Profile.name s = .ok p ∧ p.name = s := by
  simp only [profileNames, List.mem_cons, List.not_mem_nil, or_false] at h
  rcases h with rfl | rfl
  · exact ⟨.p48_4_1, rfl, rfl⟩
  · exact ⟨.p48_3_1, rfl, rfl⟩

theorem named_policy {s : Text} (h : s ∈ policyNames) :
    ∃ p : ReconnectPolicy, named [.none, .once] ReconnectPolicy.name s = .ok p ∧ p.name = s := by
  simp only [policyNames, List.mem_cons, List.not_mem_nil, or_false] at h
  rcases h with rfl | rfl
  · exact ⟨.none, rfl, rfl⟩
  · exact ⟨.once, rfl, rfl⟩

theorem checkConfig_ok {ctx : Ctx} {modeName profileName policyName : Text} {n m : ℕ}
    {mode : Mode} {profile : Profile} {scoredSduCount signalSeed : UInt32}
    {reconnectPolicy : ReconnectPolicy} (hmode : ctx.text .mode = .ok modeName)
    (hprofile : ctx.text .profile = .ok profileName) (hcount : ctx.number .scoredSduCount = .ok n)
    (hseed : ctx.number .signalSeed = .ok m) (hpolicy : ctx.text .reconnectPolicy = .ok policyName)
    (hm : named [.mono, .modeA, .modeB] Mode.name modeName = .ok mode)
    (hp : named [.p48_3_1, .p48_4_1] Profile.name profileName = .ok profile)
    (hc : inRange n maxScoredSdus.toNat = .ok scoredSduCount)
    (hs : inRange m uint32Max.toNat = .ok signalSeed)
    (hr : named [.none, .once] ReconnectPolicy.name policyName = .ok reconnectPolicy)
    (candidate : CommandIn) :
    checkConfig ctx candidate = .ok
      { candidate with mode, profile, scoredSduCount, signalSeed, reconnectPolicy } := by
  simp only [checkConfig, hmode, hprofile, hcount, hseed, hpolicy, hm, hp, hc, hs, hr, bind,
    Except.bind, pure, Except.pure]

theorem select_yields (hr : r.RowOk) (hrun : safeIdCharsOk runId = true)
    (hlen : runId.length ≤ maxRunIdLen) (hseq : seq < 10 ^ 59) :
    ∃ cmd, select (r.ctx runId seq) = .ok cmd ∧ r.Yields runId seq cmd := by
  have hselect := select_ctx (r := r) hrun hlen hseq
  cases r with
  | unpair a t =>
    exact ⟨_, hselect.trans (checkPeer_ok rfl rfl _), rfl⟩
  | configure a t row =>
    obtain ⟨hmode, hprofile, hcount, hseed, hpolicy⟩ := RowSpec.postInit_ok hr
    obtain ⟨mode, hm, hmodeName⟩ := named_mode hmode
    obtain ⟨profile, hp, hprofileName⟩ := named_profile hprofile
    obtain ⟨count, hc, hcountVal⟩ := inRange_ok (m := maxScoredSdus.toNat) hcount rfl (by decide)
    obtain ⟨seed, hs, hseedVal⟩ := inRange_ok (m := uint32Max.toNat) hseed rfl (by decide)
    obtain ⟨policy, hpol, hpolicyName⟩ := named_policy hpolicy
    have hpeer : checkPeer ((Request.configure a t row).ctx runId seq)
        (CommandIn.candidate .configure (hostCommandId seq) runId) = _ := checkPeer_ok rfl rfl _
    refine ⟨_, hselect.trans ?_, mode, profile, count, seed, policy, rfl, hmodeName, hprofileName,
      hcountVal, hseedVal, hpolicyName⟩
    simp only [Request.command, hpeer, bind, Except.bind]
    exact checkConfig_ok rfl rfl rfl rfl rfl hm hp hc hs hpol _
  | hello | idle | start | stop | status => exact ⟨_, hselect, rfl⟩

end

/-! ### What the source never accepts -/

/-- The error of a parser. -/
def refusal {α : Type} : Except ParseError α → Option ParseError
  | .error e => some e
  | .ok _ => none

theorem refusal_eq {α : Type} {x : Except ParseError α} {e : ParseError}
    (h : refusal x = some e) : x = .error e := by
  cases x with
  | error e' => rw [Option.some.inj h]
  | ok a => cases h

theorem checkId_spec {ctx : Ctx} {k : Key} {maxLen : ℕ} {id : Text}
    (h : checkId ctx k maxLen = .ok id) : safeIdCharsOk id = true ∧ id.length ≤ maxLen := by
  obtain ⟨s, -, hs⟩ := bind_ok h
  split_ifs at hs with hlen hsafe
  cases hs
  refine ⟨by simpa using hsafe, ?_⟩
  by_contra hlong
  exact hlen (.inr (Nat.lt_of_not_le hlong))

theorem checkPeer_ids {ctx : Ctx} {candidate cmd : CommandIn}
    (h : checkPeer ctx candidate = .ok cmd) :
    cmd.commandId = candidate.commandId ∧ cmd.runId = candidate.runId := by
  obtain ⟨address, -, h⟩ := bind_ok h
  obtain ⟨addressType, -, h⟩ := bind_ok h
  cases hparse : parsePeerAddress address with
  | none =>
    rw [hparse] at h
    cases h
  | some a =>
    rw [hparse] at h
    obtain ⟨t, -, h⟩ := bind_ok h
    cases h
    exact ⟨rfl, rfl⟩

theorem checkConfig_ids {ctx : Ctx} {candidate cmd : CommandIn}
    (h : checkConfig ctx candidate = .ok cmd) :
    cmd.commandId = candidate.commandId ∧ cmd.runId = candidate.runId := by
  obtain ⟨_, -, h⟩ := bind_ok h
  obtain ⟨_, -, h⟩ := bind_ok h
  obtain ⟨_, -, h⟩ := bind_ok h
  obtain ⟨_, -, h⟩ := bind_ok h
  obtain ⟨_, -, h⟩ := bind_ok h
  obtain ⟨_, -, h⟩ := bind_ok h
  obtain ⟨_, -, h⟩ := bind_ok h
  obtain ⟨_, -, h⟩ := bind_ok h
  obtain ⟨_, -, h⟩ := bind_ok h
  obtain ⟨_, -, h⟩ := bind_ok h
  cases h
  exact ⟨rfl, rfl⟩

theorem select_spec {ctx : Ctx} {cmd : CommandIn} (h : select ctx = .ok cmd) :
    (safeIdCharsOk cmd.commandId = true ∧ cmd.commandId.length ≤ maxCommandIdLen) ∧
      safeIdCharsOk cmd.runId = true ∧ cmd.runId.length ≤ maxRunIdLen := by
  obtain ⟨name, -, h⟩ := bind_ok h
  obtain ⟨command, -, h⟩ := bind_ok h
  obtain ⟨-, -, h⟩ := bind_ok h
  obtain ⟨-, -, h⟩ := bind_ok h
  obtain ⟨commandId, hid, h⟩ := bind_ok h
  obtain ⟨runId, hrun, h⟩ := bind_ok h
  have hids : cmd.commandId = commandId ∧ cmd.runId = runId := by
    cases command with
    | unpair => exact checkPeer_ids h
    | configure =>
      obtain ⟨candidate, hpeer, h⟩ := bind_ok h
      obtain ⟨hp₁, hp₂⟩ := checkPeer_ids hpeer
      obtain ⟨hc₁, hc₂⟩ := checkConfig_ids h
      exact ⟨hc₁.trans hp₁, hc₂.trans hp₂⟩
    | hello | idle | start | stop | status =>
      cases h
      exact ⟨rfl, rfl⟩
  rw [hids.1, hids.2]
  exact ⟨checkId_spec hid, checkId_spec hrun⟩

theorem parse_spec {buf : Text} {cmd : CommandIn} (h : parse buf = .ok cmd) :
    (safeIdCharsOk cmd.commandId = true ∧ cmd.commandId.length ≤ maxCommandIdLen) ∧
      safeIdCharsOk cmd.runId = true ∧ cmd.runId.length ≤ maxRunIdLen := by
  unfold parse at h
  split_ifs at h
  split at h
  · split at h
    · cases h
    · split_ifs at h
      exact select_spec h
  · cases h

/-! ### Agreement -/

theorem length_le_dumpMembers (l : List (Text × Value)) :
    l.length ≤ (Json.dumpMembers l).length := by
  induction l with
  | nil => exact Nat.zero_le _
  | cons m l ih =>
    obtain ⟨k, v⟩ := m
    cases l with
    | nil =>
      rw [Json.dumpMembers_singleton]
      simp only [List.length_append, List.length_cons]
      omega
    | cons m l =>
      rw [Json.dumpMembers_cons]
      simp only [List.length_append, List.length_cons] at ih ⊢
      omega

theorem Request.line_ok {r : Request} {runId line : Text} {seq : ℕ}
    (h : r.line runId seq = .ok line) :
    line = "hil ".toList ++ Json.dumps (.obj (r.payload runId seq)) ∧ line.length < 512 := by
  unfold Request.line commandLine at h
  dsimp only at h
  split_ifs at h with hlen
  cases h
  exact ⟨rfl, Nat.not_le.1 hlen⟩

theorem pairs_nodup (r : Request) (runId : Text) (seq : ℕ) :
    ((r.pairs runId seq).map Prod.fst).Nodup := by
  have hall : Key.all.Nodup := by decide
  cases r with
  | configure a t row => exact hall
  | unpair a t => exact List.Nodup.sublist (List.take_sublist 6 Key.all) hall
  | hello | idle | start | stop | status =>
    exact List.Nodup.sublist (List.take_sublist 4 Key.all) hall

theorem parse_brace {s : Text} (h : s.length < maxCommandLineBytes) :
    parse ('\x7b' :: s) =
      match scan s.length Ctx.empty s with
      | .error e => .error e
      | .ok (ctx, rest) =>
        if (Json.skipWs rest).isEmpty then select ctx else .error .syntaxError := by
  unfold parse
  rw [if_neg (Nat.not_lt.2 (List.length_cons ▸ h)), Json.skipWs_of_not (by decide)]
  rfl

theorem parse_payload {r : Request} (hr : r.RowOk) {runId : Text} {seq : ℕ}
    (hrun : safeIdCharsOk runId = true) (hlen : runId.length ≤ maxRunIdLen) (hseq : seq < 10 ^ 59)
    (hfit : (Json.dumps (.obj (r.payload runId seq))).length ≤ maxCommandLineBytes) :
    parse (Json.dumps (.obj (r.payload runId seq))) = select (r.ctx runId seq) := by
  have hscan := scan_members (Request.writes hr hrun hlen hseq) (by simp [Request.payload])
    Ctx.empty (fun _ _ => rfl) (pairs_nodup r runId seq)
    (length_le_dumpMembers (r.payload runId seq)) []
  rw [List.append_nil] at hscan
  rw [Json.dumps_obj] at hfit ⊢
  rw [parse_brace hfit, hscan]
  rfl

/-- **A line that the host writes is parsed into exactly what it encodes, if and only if the run
identifier does not end in a newline and the command number has no more than 59 digits.** -/
theorem command_agreement {r : Request} (hr : r.RowOk) {runId : Text}
    (hrun : validateRunId runId = true) {seq : ℕ} {line : Text}
    (hline : r.line runId seq = .ok line) :
    (∃ body cmd, line = "hil ".toList ++ body ∧ parse body = .ok cmd ∧ r.Yields runId seq cmd) ↔
      runId.getLast? ≠ some '\n' ∧ seq < 10 ^ 59 := by
  obtain ⟨rfl, hfit⟩ := Request.line_ok hline
  constructor
  · rintro ⟨body, cmd, -, hparse, hyields⟩
    obtain ⟨⟨-, hid⟩, hsafe, -⟩ := parse_spec hparse
    rw [hyields.ids.1] at hid
    rw [hyields.ids.2] at hsafe
    exact ⟨getLast?_of_safe hsafe, (length_hostCommandId seq).1 hid⟩
  · rintro ⟨hlast, hseq⟩
    obtain ⟨hsafe, hlen⟩ := (validateRunId_cases hrun).resolve_right hlast
    obtain ⟨cmd, hselect, hyields⟩ := select_yields hr hsafe hlen hseq
    rw [List.length_append] at hfit
    have hparse := parse_payload hr hsafe hlen hseq (by
      rw [maxCommandLineBytes]
      omega)
    exact ⟨_, cmd, rfl, hparse.trans hselect, hyields⟩

/-- A row and its configuration. -/
def sampleRequest : Request :=
  .configure (fun _ => 0xc0) .random
    { name := "row".toList, state := "fresh".toList, mode := "mode_a".toList
      profile := "48_3_1".toList, scoredSduCount := 20000, signalSeed := 1218649181
      reconnectPolicy := "once".toList, fault := none }

theorem sampleRequest_agrees : ∃ line, sampleRequest.line "run-1".toList 7 = .ok line ∧
    ∃ body cmd, line = "hil ".toList ++ body ∧ parse body = .ok cmd ∧
      sampleRequest.Yields "run-1".toList 7 cmd := by
  have hfits : (sampleRequest.line "run-1".toList 7).toOption.isSome = true := by decide +kernel
  cases hline : sampleRequest.line "run-1".toList 7 with
  | error n =>
    rw [hline] at hfits
    cases hfits
  | ok line =>
    have hrow : sampleRequest.RowOk := by
      unfold Request.RowOk sampleRequest
      decide +kernel
    exact ⟨line, rfl, (command_agreement hrow (by decide +kernel) hline).2 ⟨by decide, by decide⟩⟩

/-- The text of `hello` with a newline at the end of its run identifier. -/
def newlineBody : Text :=
  "\x7b\"protocol_version\":1,\"command\":\"hello\",\"command_id\":\"cmd-0001\",".toList ++
    "\"run_id\":\"run\\n\"\x7d".toList

/-- A run identifier with a newline at its end: the host sends it, the source refuses it. -/
theorem newline_refused : validateRunId "run\n".toList = true ∧
    Request.hello.line "run\n".toList 1 = .ok ("hil ".toList ++ newlineBody) ∧
    parse newlineBody = .error .unsupportedValue := by
  refine ⟨by decide, by decide +kernel, ?_⟩
  have hrefusal : refusal (parse newlineBody) = some .unsupportedValue := by decide +kernel
  exact refusal_eq hrefusal

end Hil

end LeAudioReceiver
