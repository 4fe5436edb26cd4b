import LeAudioReceiver.Hil.Selected
import Mathlib.Data.List.Perm.Basic
import Mathlib.Data.Set.List

/-!
# The parser takes the commands of the grammar

The scan of the HIL source against the lines of the grammar, in both directions.

* `Hil.scan_complete` : the members of a line are scanned into their values.
* `Hil.scan_sound` : values of known keys, each a string or an integer, come from the members of a
  line.
* `Hil.parse_iff` : **a line is parsed into a command if and only if it is a text of that
  command.**
-/

namespace LeAudioReceiver

namespace Hil

open Json (Text)

/-! ### Values and keys -/

/-- A value that fits the buffers of the parser. -/
def HilValue.Fits : HilValue → Prop
  | string s => s.length < stringBuffer
  | uint n => n < 2 ^ 64
  | object | array | bool | null => False

theorem parseValue_complete {t rest : Text} {v : HilValue} (h : IsValue t v) (hfit : v.Fits)
    (hrest : afterUint rest = true) : parseValue (t ++ rest) = .ok (v, rest) := by
  cases h with
  | string h => exact parseValue_string_iff.2 ⟨t, h, rfl, hfit⟩
  | uint n => exact parseValue_uint_iff.2 ⟨rfl, hfit, hrest⟩

theorem parseValue_sound {t rest : Text} {v : HilValue} (h : parseValue t = .ok (v, rest))
    (hv : v.isOther = false) : ∃ text, IsValue text v ∧ t = text ++ rest := by
  cases v with
  | string s =>
    obtain ⟨text, htext, ht, -⟩ := parseValue_string_iff.1 h
    exact ⟨text, .string htext, ht⟩
  | uint n => exact ⟨_, .uint n, (parseValue_uint_iff.1 h).1⟩
  | object | array | bool | null => cases hv

theorem isValue_head {t : Text} {v : HilValue} (h : IsValue t v) :
    ∃ c s, t = c :: s ∧ Json.isWs c = false := by
  cases h with
  | string h =>
    obtain ⟨raw, -, rfl⟩ := h
    exact ⟨_, _, rfl, rfl⟩
  | uint n =>
    obtain ⟨c, ds, hds⟩ := List.exists_cons_of_ne_nil (Nat.toDigits_ne_nil (n := n) (b := 10))
    have hc : c.isDigit = true := Json.isDigit_toDigits (hds ▸ List.mem_cons_self)
    refine ⟨c, ds, hds, Bool.eq_false_iff.2 fun hws => ?_⟩
    simp only [Json.isWs, Bool.or_eq_true, decide_eq_true_eq] at hws
    rcases hws with ((rfl | rfl) | rfl) | rfl
    all_goals cases hc

theorem Key.ofName_iff {s : Text} {k : Key} : Key.ofName s = some k ↔ s = k.name := by
  constructor
  · intro h
    simpa using List.find?_some h
  · rintro rfl
    exact k.name_spec.2.2

/-- A known key with its value, as a member. -/
def Key.member (p : Key × HilValue) : Text × HilValue := (p.1.name, p.2)

theorem Key.member_injective : Function.Injective Key.member := by
  rintro ⟨k, v⟩ ⟨k', v'⟩ h
  obtain ⟨hname, rfl⟩ := Prod.mk.inj h
  have hk := Key.ofName_iff.2 hname
  rw [k.name_spec.2.2] at hk
  rw [Option.some.inj hk]

/-! ### A member -/

theorem Ctx.put_self (ctx : Ctx) (k : Key) (v : HilValue) : (ctx.put k v).pending k = some v :=
  if_pos rfl

theorem Ctx.put_of_ne (ctx : Ctx) {j k : Key} (v : HilValue) (h : j ≠ k) :
    (ctx.put k v).pending j = ctx.pending j := if_neg h

/-- What follows a value in an object lets an integer end. -/
theorem afterUint_ws {w s : Text} (hw : IsWs w) (hs : afterUint s = true) :
    afterUint (w ++ s) = true := by
  cases w with
  | nil => exact hs
  | cons c w =>
    have hc := hw c List.mem_cons_self
    simp [afterUint, hc]

theorem scanMember_complete {ctx : Ctx} {k : Key} {v : HilValue} {t rest : Text}
    (hm : IsMember t (k.name, v)) (hfit : v.Fits) (hnew : ctx.pending k = none)
    (hrest : afterUint rest = true) : scanMember ctx (t ++ rest) = .ok (ctx.put k v, rest) := by
  obtain ⟨key, w, w', value, hkey, hw, hw', hvalue, rfl⟩ := hm
  obtain ⟨c, s, hs, hc⟩ := isValue_head hvalue
  obtain ⟨-, hlen, hname⟩ := k.name_spec
  have hlen' : k.name.length ≤ keyBuffer - 1 := Nat.le_pred_of_lt hlen
  have hlex : lexStringBounded keyBuffer (key ++ (w ++ ':' :: (w' ++ (value ++ rest)))) =
      .ok ⟨k.name, false, w ++ ':' :: (w' ++ (value ++ rest))⟩ :=
    lexStringBounded_iff.2 ⟨key, k.name, hkey, rfl, (List.take_of_length_le hlen').symm,
      (decide_eq_false (Nat.not_lt.2 hlen')).symm⟩
  have hcolon : Json.skipWs (w ++ ':' :: (w' ++ (value ++ rest))) =
      ':' :: (w' ++ (value ++ rest)) :=
    skipWs_append hw (Json.skipWs_of_not (by decide) _)
  have hhead : Json.skipWs (w' ++ (value ++ rest)) = value ++ rest := by
    refine skipWs_append hw' ?_
    rw [hs]
    exact Json.skipWs_of_not hc _
  have hscan : scanValue ctx (some k) (value ++ rest) = .ok (ctx.put k v, rest) := by
    rw [scanValue, hnew, parseValue_complete hvalue hfit hrest]
    rfl
  simp only [List.append_assoc, List.cons_append, scanMember, hlex, bind, Except.bind,
    Bool.false_eq_true, if_false, hname, hcolon, hhead, hscan]

/-- Nothing was seen but known keys, each with a string or an integer. -/
def Ctx.Known (ctx : Ctx) : Prop :=
  ctx.unknownKeySeen = false ∧ ∀ k v, ctx.pending k = some v → v.isOther = false

theorem Ctx.known_of_put {ctx : Ctx} {k : Key} {v : HilValue} (hnew : ctx.pending k = none)
    (h : (ctx.put k v).Known) : ctx.Known ∧ v.isOther = false := by
  refine ⟨⟨h.1, fun j u hj => h.2 j u ?_⟩, h.2 k v (ctx.put_self k v)⟩
  have hne : j ≠ k := by
    rintro rfl
    rw [hnew] at hj
    cases hj
  exact (ctx.put_of_ne v hne).trans hj

/-- What a member that is scanned consists of. -/
theorem scanMember_cases {ctx : Ctx} {s : Text} {r : Ctx × Text} (h : scanMember ctx s = .ok r) :
    ∃ lexed s', lexStringBounded keyBuffer s = .ok lexed ∧ Json.skipWs lexed.rest = ':' :: s' ∧
      scanValue ctx (if lexed.tooLong then none else Key.ofName lexed.out) (Json.skipWs s') =
        .ok r := by
  obtain ⟨lexed, hlex, h⟩ := bind_ok h
  refine ⟨lexed, ?_⟩
  dsimp only at h
  generalize (if lexed.tooLong = true then none else Key.ofName lexed.out) = key at h ⊢
  split at h
  · rename_i s' hcolon
    exact ⟨s', hlex, hcolon, h⟩
  · cases h

theorem scanMember_sound {ctx ctx' : Ctx} {s rest : Text}
    (h : scanMember ctx s = .ok (ctx', rest)) (hknown : ctx'.Known) :
    ∃ t k v, IsMember t (k.name, v) ∧ s = t ++ rest ∧ ctx.pending k = none ∧
      ctx' = ctx.put k v := by
  obtain ⟨lexed, s', hlex, hcolon, h⟩ := scanMember_cases h
  obtain ⟨key, name, hkey, hs, hout, hlong⟩ := lexStringBounded_iff.1 hlex
  unfold scanValue at h
  split at h
  · -- an unknown key would be remembered
    obtain ⟨rest', -, heq⟩ := map_eq_ok h
    cases heq
    cases hknown.1
  · rename_i k hk
    split_ifs at h hk with hseen hlexed
    obtain ⟨⟨v, rest'⟩, hparse, heq⟩ := map_eq_ok h
    cases heq
    have hnew : ctx.pending k = none := by simpa using hseen
    obtain ⟨-, hv⟩ := Ctx.known_of_put hnew hknown
    obtain ⟨value, hvalue, hs'⟩ := parseValue_sound hparse hv
    obtain ⟨w, hw, hsplit⟩ := skipWs_split lexed.rest
    obtain ⟨w', hw', hsplit'⟩ := skipWs_split s'
    rw [hcolon, hsplit', hs'] at hsplit
    have hname : name = k.name := by
      rw [hlong, decide_eq_true_eq, Nat.not_lt] at hlexed
      rw [← Key.ofName_iff.1 hk, hout, List.take_of_length_le hlexed]
    refine ⟨key ++ (w ++ ':' :: (w' ++ value)), k, v,
      ⟨key, w, w', value, hname ▸ hkey, hw, hw', hvalue, rfl⟩, ?_, hnew, rfl⟩
    rw [hs, hsplit]
    simp only [List.append_assoc, List.cons_append]

/-! ### The members -/

theorem isMember_head {t : Text} {m : Text × HilValue} (h : IsMember t m) :
    ∃ s, t = '\"' :: s := by
  obtain ⟨_, w, w', value, ⟨raw, -, rfl⟩, -, -, -, rfl⟩ := h
  exact ⟨_, rfl⟩

theorem isMembers_head {t : Text} {ms : List (Text × HilValue)} (h : IsMembers t ms) :
    ∃ s, t = '\"' :: s := by
  cases h with
  | last hm _ | next hm _ _ _ =>
    obtain ⟨s, rfl⟩ := isMember_head hm
    exact ⟨_, rfl⟩

theorem length_le_isMembers {t : Text} {ms : List (Text × HilValue)} (h : IsMembers t ms) :
    ms.length ≤ t.length := by
  induction h with
  | last hm _ =>
    obtain ⟨s, rfl⟩ := isMember_head hm
    simp
  | next hm _ _ _ ih =>
    simp only [List.length_append, List.length_cons]
    omega

theorem scan_skipWs (fuel : ℕ) (ctx : Ctx) (s : Text) :
    scan fuel ctx (Json.skipWs s) = scan fuel ctx s := by
  cases fuel with
  | zero => rfl
  | succ fuel =>
    rw [scan.eq_def, scan.eq_def (fuel + 1) ctx s]
    dsimp only
    rw [skipWs_skipWs]

/-- **The members of a line are scanned into their values.** -/
theorem scan_complete {t : Text} {pairs : List (Key × HilValue)}
    (h : IsMembers t (pairs.map Key.member)) {ctx : Ctx} (hfit : ∀ p ∈ pairs, p.2.Fits)
    (hnew : ∀ p ∈ pairs, ctx.pending p.1 = none) (hnodup : (pairs.map Prod.fst).Nodup) {fuel : ℕ}
    (hfuel : pairs.length ≤ fuel) (rest : Text) :
    scan fuel ctx (t ++ '\x7d' :: rest) = .ok (ctx.putAll pairs, rest) := by
  generalize hms : pairs.map Key.member = ms at h
  induction h generalizing pairs ctx fuel with
  | @last t w m hm hw =>
    obtain ⟨p, rfl, rfl⟩ : ∃ p, pairs = [p] ∧ m = Key.member p := by
      obtain ⟨p, hp, hm⟩ := List.map_eq_singleton_iff.1 hms
      exact ⟨p, hp, hm.symm⟩
    obtain ⟨fuel, rfl⟩ := Nat.exists_eq_add_of_le' hfuel
    have hmember := scanMember_complete hm (hfit p List.mem_cons_self)
      (hnew p List.mem_cons_self) (afterUint_ws hw (s := '\x7d' :: rest) rfl)
    have hbrace := skipWs_append hw (Json.skipWs_of_not (c := '\x7d') (by decide) rest)
    obtain ⟨s, rfl⟩ := isMember_head hm
    simp only [List.append_assoc, List.cons_append] at hmember ⊢
    show scan (fuel + 1) ctx _ = _
    rw [scan_quote, hmember]
    dsimp only
    rw [hbrace]
    rfl
  | @next t w w' ts m ms hm hw hw' hms' ih =>
    obtain ⟨p, ps, rfl, rfl, rfl⟩ : ∃ p ps, pairs = p :: ps ∧ m = Key.member p ∧
        ms = ps.map Key.member := by
      obtain ⟨p, ps, hp, hm, hms⟩ := List.map_eq_cons_iff.1 hms
      exact ⟨p, ps, hp, hm.symm, hms.symm⟩
    obtain ⟨fuel, rfl⟩ := Nat.exists_eq_add_of_le' (Nat.le_trans (Nat.le_add_left 1 _) hfuel)
    have hmember := scanMember_complete hm (hfit p List.mem_cons_self)
      (hnew p List.mem_cons_self)
      (afterUint_ws hw (s := ',' :: (w' ++ (ts ++ '\x7d' :: rest))) rfl)
    have hcomma := skipWs_append hw
      (Json.skipWs_of_not (c := ',') (by decide) (w' ++ (ts ++ '\x7d' :: rest)))
    rw [List.map_cons, List.nodup_cons] at hnodup
    have hnew' : ∀ q ∈ ps, (ctx.put p.1 p.2).pending q.1 = none := by
      intro q hq
      -- the key that was just stored does not come again
      have hother : q.1 ≠ p.1 := fun h => hnodup.1 (List.mem_map.2 ⟨q, hq, h⟩)
      exact (ctx.put_of_ne p.2 hother).trans (hnew q (List.mem_cons_of_mem p hq))
    have hnext : scan fuel (ctx.put p.1 p.2) (ts ++ '\x7d' :: rest) =
        .ok ((ctx.put p.1 p.2).putAll ps, rest) :=
      ih (fun q hq => hfit q (List.mem_cons_of_mem p hq)) hnew' hnodup.2
        (Nat.le_of_succ_le_succ hfuel) rfl
    obtain ⟨r, rfl⟩ := isMembers_head hms'
    have hquote := skipWs_append hw' (Json.skipWs_of_not (c := '\"') (by decide)
      (r ++ '\x7d' :: rest))
    obtain ⟨s, rfl⟩ := isMember_head hm
    simp only [List.append_assoc, List.cons_append] at hmember hcomma hquote hnext ⊢
    rw [scan_quote, hmember]
    simp only [hcomma, hquote]
    exact hnext

theorem scan_cases {fuel : ℕ} {ctx ctx' : Ctx} {s rest : Text}
    (h : scan (fuel + 1) ctx s = .ok (ctx', rest)) :
    (Json.skipWs s = '\x7d' :: rest ∧ ctx' = ctx) ∨
      ∃ ctx₁ s₁, scanMember ctx (Json.skipWs s) = .ok (ctx₁, s₁) ∧
        ((Json.skipWs s₁ = '\x7d' :: rest ∧ ctx' = ctx₁) ∨
          ∃ s₂, Json.skipWs s₁ = ',' :: s₂ ∧ (∀ r, Json.skipWs s₂ ≠ '\x7d' :: r) ∧
            scan fuel ctx₁ s₂ = .ok (ctx', rest)) := by
  rw [scan.eq_def] at h
  dsimp only at h
  split at h
  · cases h
  · rename_i s₁ hbrace
    cases h
    exact .inl ⟨hbrace, rfl⟩
  · refine .inr ?_
    split at h
    · cases h
    · rename_i ctx₁ s₁ hmember
      refine ⟨ctx₁, s₁, hmember, ?_⟩
      split at h
      · rename_i s₂ hcomma
        refine .inr ⟨s₂, hcomma, ?_⟩
        split at h
        · cases h
        · cases h
        · rename_i hnot
          rw [scan_skipWs] at h
          exact ⟨hnot, h⟩
      · rename_i s₂ hbrace
        cases h
        exact .inl ⟨hbrace, rfl⟩
      · cases h

/-- **Values of known keys, each a string or an integer, come from the members of a line.** -/
theorem scan_sound {fuel : ℕ} {ctx ctx' : Ctx} {s rest : Text}
    (h : scan fuel ctx s = .ok (ctx', rest)) (hknown : ctx'.Known) :
    ctx.Known ∧ ∃ pairs : List (Key × HilValue), ctx' = ctx.putAll pairs ∧
      (pairs.map Prod.fst).Nodup ∧ (∀ p ∈ pairs, ctx.pending p.1 = none) ∧
      ((pairs = [] ∧ Json.skipWs s = '\x7d' :: rest) ∨
        ∃ t, IsMembers t (pairs.map Key.member) ∧ Json.skipWs s = t ++ '\x7d' :: rest) := by
  induction fuel generalizing ctx s with
  | zero => cases h
  | succ fuel ih =>
    have hnil : ∀ p ∈ ([] : List (Key × HilValue)), ctx.pending p.1 = none :=
      fun _ h => absurd h List.not_mem_nil
    rcases scan_cases h with ⟨hbrace, rfl⟩ | ⟨ctx₁, s₁, hmember, hrest⟩
    · exact ⟨hknown, [], rfl, List.nodup_nil, hnil, .inl ⟨rfl, hbrace⟩⟩
    · obtain ⟨w, hw, hsplit⟩ := skipWs_split s₁
      rcases hrest with ⟨hbrace, rfl⟩ | ⟨s₂, hcomma, hnot, hscan⟩
      · obtain ⟨t, k, v, hm, hs, hnew, rfl⟩ := scanMember_sound hmember hknown
        refine ⟨(Ctx.known_of_put hnew hknown).1, [(k, v)], rfl, List.nodup_singleton k, ?_,
          .inr ⟨t ++ w, .last hm hw, ?_⟩⟩
        · simpa using hnew
        · rw [hs, hsplit, hbrace, List.append_assoc]
      · obtain ⟨hknown₁, pairs, hctx, hnodup, hfresh, htext⟩ := ih hscan
        obtain ⟨t, k, v, hm, hs, hnew, rfl⟩ := scanMember_sound hmember hknown₁
        rcases htext with ⟨-, hbrace⟩ | ⟨ts, hms, htail⟩
        · exact absurd hbrace (hnot rest)
        · obtain ⟨w', hw', hsplit'⟩ := skipWs_split s₂
          have hk : k ∉ pairs.map Prod.fst := by
            intro hmem
            obtain ⟨p, hp, rfl⟩ := List.mem_map.1 hmem
            have hput := hfresh p hp
            rw [Ctx.put_self] at hput
            cases hput
          refine ⟨(Ctx.known_of_put hnew hknown₁).1, (k, v) :: pairs, hctx,
            List.nodup_cons.2 ⟨hk, hnodup⟩, List.forall_mem_cons.2 ⟨hnew, fun p hp => ?_⟩,
            .inr ⟨t ++ (w ++ ',' :: (w' ++ ts)), .next hm hw hw' hms, ?_⟩⟩
          · have hne : p.1 ≠ k := fun h => hk (List.mem_map.2 ⟨p, hp, h⟩)
            exact (ctx.put_of_ne v hne).symm.trans (hfresh p hp)
          · rw [hs, hsplit, hcomma, hsplit', htail]
            simp only [List.append_assoc, List.cons_append]

/-! ### The line -/

theorem Ctx.putAll_unknown (pairs : List (Key × HilValue)) (ctx : Ctx) :
    (ctx.putAll pairs).unknownKeySeen = ctx.unknownKeySeen := by
  induction pairs generalizing ctx with
  | nil => rfl
  | cons p ps ih => exact ih (ctx.put p.1 p.2)

theorem Ctx.putAll_pending {pairs : List (Key × HilValue)} (hnodup : (pairs.map Prod.fst).Nodup)
    {ctx : Ctx} (hnew : ∀ p ∈ pairs, ctx.pending p.1 = none) (k : Key) (v : HilValue) :
    (ctx.putAll pairs).pending k = some v ↔ (k, v) ∈ pairs ∨ ctx.pending k = some v := by
  induction pairs generalizing ctx with
  | nil => simp [Ctx.putAll]
  | cons p ps ih =>
    obtain ⟨j, u⟩ := p
    rw [List.map_cons, List.nodup_cons] at hnodup
    obtain ⟨hj, hnew⟩ := List.forall_mem_cons.1 hnew
    have hnew' : ∀ q ∈ ps, (ctx.put j u).pending q.1 = none := by
      intro q hq
      have hne : q.1 ≠ j := fun h => hnodup.1 (List.mem_map.2 ⟨q, hq, h⟩)
      exact (ctx.put_of_ne u hne).trans (hnew q hq)
    have hput : (ctx.put j u).pending k = if k = j then some u else ctx.pending k := rfl
    show ((ctx.put j u).putAll ps).pending k = some v ↔ _
    rw [ih hnodup.2 hnew', hput, List.mem_cons, Prod.mk.injEq]
    dsimp only at hj
    split_ifs with hk
    · subst hk
      rw [hj]
      simp only [Option.some.injEq, true_and, reduceCtorEq, or_false, eq_comm (a := v)]
      exact or_comm
    · simp only [hk, false_and, false_or]

namespace CommandIn

/-- The keys of a command with their values. -/
def pairs (cmd : CommandIn) : List (Key × HilValue) :=
  (Key.all.filter (Key.allowed cmd.command)).map fun k => (k, cmd.value k)

theorem members_eq (cmd : CommandIn) : cmd.members = cmd.pairs.map Key.member := by
  rw [members, pairs, List.map_map]
  rfl

theorem mem_pairs {cmd : CommandIn} {k : Key} {v : HilValue} :
    (k, v) ∈ cmd.pairs ↔ k.allowed cmd.command = true ∧ cmd.value k = v := by
  simp only [pairs, List.mem_map, List.mem_filter, Prod.mk.injEq]
  constructor
  · rintro ⟨j, ⟨-, hj⟩, rfl, hv⟩
    exact ⟨hj, hv⟩
  · rintro ⟨hk, hv⟩
    exact ⟨k, ⟨k.mem_all, hk⟩, rfl, hv⟩

theorem nodup_keys (cmd : CommandIn) : (cmd.pairs.map Prod.fst).Nodup := by
  have hall : Key.all.Nodup := by decide
  have hkeys : cmd.pairs.map Prod.fst = Key.all.filter (Key.allowed cmd.command) := by
    rw [pairs, List.map_map]
    exact List.map_id _
  rw [hkeys]
  exact hall.filter _

theorem value_fits {cmd : CommandIn} (h : cmd.Canonical) (k : Key) :
    (cmd.value k).Fits := by
  have hid : cmd.commandId.length < stringBuffer :=
    Nat.lt_of_le_of_lt h.commandId.2 (by decide)
  have hrun : cmd.runId.length < stringBuffer := Nat.lt_of_le_of_lt h.runId.2 (by decide)
  have hword : ∀ w : UInt32, w.toNat < 2 ^ 64 :=
    fun w => Nat.lt_trans w.toNat_lt (by decide)
  cases k with
  | protocolVersion => exact (by decide : protocolVersion < 2 ^ 64)
  | command =>
    have hall : ∀ c : SourceCommand, c.name.length < stringBuffer := by
      intro c
      cases c <;> decide
    exact hall cmd.command
  | commandId => exact hid
  | runId => exact hrun
  | peerAddress => exact (by decide : 17 < stringBuffer)
  | peerAddressType =>
    have hall : ∀ t : AddressType, t.name.length < stringBuffer := by
      intro t
      cases t <;> decide
    exact hall cmd.peerAddressType
  | mode =>
    have hall : ∀ m : Mode, m.name.length < stringBuffer := by
      intro m
      cases m <;> decide
    exact hall cmd.mode
  | profile =>
    have hall : ∀ p : Profile, p.name.length < stringBuffer := by
      intro p
      cases p <;> decide
    exact hall cmd.profile
  | scoredSduCount => exact hword cmd.scoredSduCount
  | signalSeed => exact hword cmd.signalSeed
  | reconnectPolicy =>
    have hall : ∀ r : ReconnectPolicy, r.name.length < stringBuffer := by
      intro r
      cases r <;> decide
    exact hall cmd.reconnectPolicy

theorem value_isOther (cmd : CommandIn) (k : Key) : (cmd.value k).isOther = false := by
  cases k <;> rfl

end CommandIn

/-- The scan leaves the values of a command if and only if it has seen exactly its members. -/
theorem holds_iff_perm {pairs : List (Key × HilValue)} (hnodup : (pairs.map Prod.fst).Nodup)
    (cmd : CommandIn) : (Ctx.empty.putAll pairs).Holds cmd ↔ pairs.Perm cmd.pairs := by
  have hmem : ∀ k v, (Ctx.empty.putAll pairs).pending k = some v ↔ (k, v) ∈ pairs := by
    intro k v
    rw [Ctx.putAll_pending hnodup (fun _ _ => rfl)]
    exact or_iff_left (by rintro ⟨⟩)
  have hset : ∀ k v, (if k.allowed cmd.command then some (cmd.value k) else none) = some v ↔
      (k, v) ∈ cmd.pairs := by
    intro k v
    rw [CommandIn.mem_pairs]
    split_ifs with hk <;> simp [hk]
  constructor
  · rintro ⟨-, hpending⟩
    refine (List.perm_ext_iff_of_nodup hnodup.of_map cmd.nodup_keys.of_map).2 ?_
    rintro ⟨k, v⟩
    rw [← hmem, hpending k, hset]
  · intro hperm
    refine ⟨Ctx.putAll_unknown pairs Ctx.empty, fun k => Option.ext fun v => ?_⟩
    rw [hmem, hset, hperm.mem_iff]

/-- Members that are a command's up to their order are pairs that are. -/
theorem exists_pairs {ms : List (Text × HilValue)} {cmd : CommandIn} (h : ms.Perm cmd.members) :
    ∃ pairs : List (Key × HilValue), ms = pairs.map Key.member ∧ pairs.Perm cmd.pairs := by
  rw [cmd.members_eq] at h
  have hrange : ms ∈ Set.range (List.map Key.member) := by
    rw [Set.range_list_map]
    intro m hm
    obtain ⟨p, -, hp⟩ := List.mem_map.1 (h.mem_iff.1 hm)
    exact ⟨p, hp⟩
  obtain ⟨pairs, rfl⟩ := hrange
  exact ⟨pairs, rfl, (List.map_perm_map_iff Key.member_injective).1 h⟩

theorem scan_object {t : Text} {pairs : List (Key × HilValue)}
    (h : IsObject t (pairs.map Key.member)) (hfit : ∀ p ∈ pairs, p.2.Fits)
    (hnodup : (pairs.map Prod.fst).Nodup) :
    ∃ s, t = '\x7b' :: s ∧ ∀ rest fuel, s.length ≤ fuel →
      scan fuel Ctx.empty (s ++ rest) = .ok (Ctx.empty.putAll pairs, rest) := by
  generalize hms : pairs.map Key.member = ms at h
  cases h with
  | @empty w hw =>
    rw [List.map_eq_nil_iff] at hms
    subst hms
    refine ⟨_, rfl, fun rest fuel hfuel => ?_⟩
    rw [List.length_append] at hfuel
    obtain ⟨fuel, rfl⟩ := Nat.exists_eq_add_of_le' (Nat.le_trans (Nat.le_add_left 1 _) hfuel)
    have hbrace := skipWs_append hw (Json.skipWs_of_not (c := '\x7d') (by decide) rest)
    rw [List.append_assoc, List.cons_append, List.nil_append, ← scan_skipWs, hbrace]
    rfl
  | @members w t _ hw hms' =>
    subst hms
    refine ⟨_, rfl, fun rest fuel hfuel => ?_⟩
    have hcount := length_le_isMembers hms'
    rw [List.length_map] at hcount
    have hroom : pairs.length ≤ fuel := by
      simp only [List.length_append] at hfuel
      omega
    have hscan : scan fuel Ctx.empty (t ++ '\x7d' :: rest) =
        .ok (Ctx.empty.putAll pairs, rest) :=
      scan_complete hms' hfit (fun _ _ => rfl) hnodup hroom rest
    obtain ⟨r, rfl⟩ := isMembers_head hms'
    have hquote := skipWs_append hw
      (Json.skipWs_of_not (c := '\"') (by decide) (r ++ '\x7d' :: rest))
    simp only [List.append_assoc, List.cons_append, List.nil_append] at hscan hquote ⊢
    rw [← scan_skipWs, hquote]
    exact hscan

/-- **A line is parsed into a command if and only if it is a text of that command.** -/
theorem parse_iff {buf : Text} (hlen : buf.length ≤ maxCommandLineBytes) {cmd : CommandIn} :
    parse buf = .ok cmd ↔ IsCommand buf cmd := by
  unfold parse
  rw [if_neg (Nat.not_lt.2 hlen)]
  constructor
  · intro h
    split at h
    swap
    · cases h
    rename_i s hbrace
    split at h
    · cases h
    rename_i ctx rest hscan
    split_ifs at h with hend
    obtain ⟨hholds, hcanon⟩ := select_iff.1 h
    -- the values that were kept are those of the command
    have hknown : ctx.Known := by
      refine ⟨hholds.1, fun k v hv => ?_⟩
      rw [hholds.2 k] at hv
      split_ifs at hv
      rw [← Option.some.inj hv]
      exact cmd.value_isOther k
    obtain ⟨-, pairs, rfl, hnodup, -, htext⟩ := scan_sound hscan hknown
    have hperm := (holds_iff_perm hnodup cmd).1 hholds
    obtain ⟨w, hw, hbuf⟩ := skipWs_split buf
    obtain ⟨w₁, hw₁, hs⟩ := skipWs_split s
    obtain ⟨w₂, hw₂, hrest⟩ := skipWs_split rest
    rw [List.isEmpty_iff.1 hend, List.append_nil] at hrest
    refine ⟨hcanon, pairs.map Key.member, ⟨w, ?_⟩, ?_⟩
    · -- the parts of the text, one behind the other
      rcases htext with ⟨rfl, hclose⟩ | ⟨t, hms, hclose⟩
      · refine ⟨_, w₂, hw, .empty hw₁, hw₂, ?_⟩
        rw [hbuf, hbrace, hs, hclose, hrest]
        simp only [List.append_assoc, List.cons_append, List.nil_append]
      · refine ⟨_, w₂, hw, .members hw₁ hms, hw₂, ?_⟩
        rw [hbuf, hbrace, hs, hclose, hrest]
        simp only [List.append_assoc, List.cons_append, List.nil_append]
    · rw [cmd.members_eq]
      exact hperm.map _
  · rintro ⟨hcanon, ms, ⟨w, t, w₂, hw, ht, hw₂, rfl⟩, hperm⟩
    obtain ⟨pairs, rfl, hpairs⟩ := exists_pairs hperm
    have hnodup : (pairs.map Prod.fst).Nodup :=
      (hpairs.map Prod.fst).nodup_iff.2 cmd.nodup_keys
    -- what a command holds fits the buffers of the parser
    have hfit : ∀ p ∈ pairs, p.2.Fits := by
      rintro ⟨k, v⟩ hp
      obtain ⟨-, rfl⟩ := CommandIn.mem_pairs.1 (hpairs.mem_iff.1 hp)
      exact CommandIn.value_fits hcanon k
    have hselect := select_iff.2 ⟨(holds_iff_perm hnodup cmd).2 hpairs, hcanon⟩
    obtain ⟨s, rfl, hscan⟩ := scan_object ht hfit hnodup
    have hbrace := skipWs_append hw
      (Json.skipWs_of_not (c := '\x7b') (by decide) (s ++ w₂))
    rw [List.cons_append, hbrace]
    simp only [hscan w₂ (s ++ w₂).length (by simp), skipWs_ws hw₂, hselect]
    rfl

end Hil

end LeAudioReceiver
