import LeAudioReceiver.Hil.CommandTrip

/-!
# What the checks of the selected command let through

The checks of the HIL source after its scan, each with what it lets through.

* `Hil.parsePeerAddress_iff` : the canonical text of an address and no other.
* `Hil.select_iff` : **a command is taken from the scanned values if and only if they are exactly
  its own, and it is within its limits.**
-/

namespace LeAudioReceiver

namespace Hil

open Json (Text)

/-! ### The values of the keys -/

theorem Ctx.text_iff {ctx : Ctx} {k : Key} {s : Text} :
    ctx.text k = .ok s ↔ ctx.pending k = some (.string s) := by
  constructor
  · intro h
    obtain ⟨v, hv, h⟩ := bind_ok h
    unfold Ctx.value at hv
    split at hv
    · cases hv
    · rename_i w hw
      cases hv
      cases v <;> cases h
      exact hw
  · intro h
    simp [Ctx.text, Ctx.value, h, bind, Except.bind, HilValue.text]

theorem Ctx.number_iff {ctx : Ctx} {k : Key} {n : ℕ} :
    ctx.number k = .ok n ↔ ctx.pending k = some (.uint n) := by
  constructor
  · intro h
    obtain ⟨v, hv, h⟩ := bind_ok h
    unfold Ctx.value at hv
    split at hv
    · cases hv
    · rename_i w hw
      cases hv
      cases v <;> cases h
      exact hw
  · intro h
    simp [Ctx.number, Ctx.value, h, bind, Except.bind, HilValue.number]

theorem named_spec {α : Type} {values : List α} {name : α → Text} {s : Text} {v : α}
    (h : named values name s = .ok v) : s = name v := by
  unfold named at h
  split at h
  · cases h
  · rename_i w hw
    cases h
    simpa using List.find?_some hw

theorem inRange_iff {n hi : ℕ} {w : UInt32} (hhi : hi < 2 ^ 32) :
    inRange n hi = .ok w ↔ (1 ≤ w.toNat ∧ w.toNat ≤ hi) ∧ n = w.toNat := by
  unfold inRange
  constructor
  · intro h
    split_ifs at h with hout
    cases h
    rw [UInt32.toNat_ofNat_of_lt' (show n < 2 ^ 32 by omega)]
    omega
  · rintro ⟨⟨hlo, hle⟩, rfl⟩
    have hin : ¬(w.toNat < 1 ∨ w.toNat > hi) := by omega
    rw [if_neg hin, UInt32.ofNat_toNat]

/-! ### The key set -/

theorem Key.mem_all (k : Key) : k ∈ Key.all := by
  cases k <;> decide

theorem checkKeySet_iff {ctx : Ctx} {command : SourceCommand} :
    checkKeySet ctx command = .ok () ↔
      ctx.unknownKeySeen = false ∧ ∀ k, (ctx.pending k).isSome = k.allowed command := by
  unfold checkKeySet
  constructor
  · intro h
    split_ifs at h with hunknown hextra hmissing
    refine ⟨by simpa using hunknown, fun k => ?_⟩
    have hk := k.mem_all
    simp only [List.any_eq_true, not_exists, not_and, Bool.not_eq_true] at hextra hmissing
    have hnotExtra := hextra k hk
    have hnotMissing := hmissing k hk
    cases hp : ctx.pending k <;> cases ha : k.allowed command <;> simp_all
  · rintro ⟨hunknown, hkeys⟩
    have hextra : (Key.all.any fun k => (ctx.pending k).isSome && !k.allowed command) = false := by
      simp [hkeys]
    have hmissing : (Key.all.any fun k => (ctx.pending k).isNone && k.allowed command) = false := by
      simp only [List.any_eq_false, Bool.and_eq_true, not_and]
      intro k _ hnone hallowed
      rw [← hkeys k, Option.isNone_iff_eq_none.1 hnone] at hallowed
      cases hallowed
    rw [hunknown, hextra, hmissing]
    rfl

theorem checkProtocol_iff {ctx : Ctx} :
    checkProtocol ctx = .ok () ↔ ctx.pending .protocolVersion = some (.uint protocolVersion) := by
  constructor
  · intro h
    obtain ⟨n, hn, h⟩ := bind_ok h
    split_ifs at h with hversion
    rw [← not_not.1 hversion]
    exact Ctx.number_iff.1 hn
  · intro h
    simp [checkProtocol, Ctx.number_iff.2 h, bind, Except.bind]

theorem checkId_iff {ctx : Ctx} {k : Key} {maxLen : ℕ} {id : Text} :
    checkId ctx k maxLen = .ok id ↔
      ctx.pending k = some (.string id) ∧ safeIdCharsOk id = true ∧ id.length ≤ maxLen := by
  constructor
  · intro h
    have hspec := checkId_spec h
    obtain ⟨s, hs, h⟩ := bind_ok h
    split_ifs at h
    cases h
    exact ⟨Ctx.text_iff.1 hs, hspec⟩
  · rintro ⟨hid, hsafe, hlen⟩
    exact checkId_ok (Ctx.text_iff.2 hid) hsafe hlen

/-! ### Peer addresses -/

theorem nibble_some {c : Char} {n : ℕ} (h : nibble c = some n) :
    n < 16 ∧ c = n.digitChar.toUpper := by
  have hlt : c.toNat < 128 := by
    unfold nibble at h
    split_ifs at h with hdigit hupper
    · exact Nat.lt_of_le_of_lt hdigit.2 (by decide)
    · exact Nat.lt_of_le_of_lt hupper.2 (by decide)
  have hall : ∀ k : Fin 128,
      (nibble (.ofNat k)).all (fun n => n < 16 && .ofNat k = n.digitChar.toUpper) = true := by
    decide +kernel
  have hc := hall ⟨c.toNat, hlt⟩
  simpa [Char.ofNat_toNat, h] using hc

theorem peerByte_some {s : Text} {i : ℕ} {b : UInt8} (h : peerByte s i = some b) :
    s[i * 3]? = some (Nat.digitChar (b.toNat / 16)).toUpper ∧
      s[i * 3 + 1]? = some (Nat.digitChar (b.toNat % 16)).toUpper ∧
      (i < 5 → s[i * 3 + 2]? = some ':') := by
  unfold peerByte at h
  split at h
  swap
  · cases h
  · rename_i hi lo hhi hlo
    split_ifs at h with hcolon
    cases h
    obtain ⟨c, hc, hhi⟩ := Option.bind_eq_some_iff.1 hhi
    obtain ⟨d, hd, hlo⟩ := Option.bind_eq_some_iff.1 hlo
    obtain ⟨hhi16, rfl⟩ := nibble_some hhi
    obtain ⟨hlo16, rfl⟩ := nibble_some hlo
    have hb : (UInt8.ofNat (hi * 16 + lo)).toNat = hi * 16 + lo :=
      UInt8.toNat_ofNat_of_lt' (show hi * 16 + lo < 2 ^ 8 by omega)
    rw [hb, show (hi * 16 + lo) / 16 = hi by omega, show (hi * 16 + lo) % 16 = lo by omega]
    refine ⟨hc, hd, fun hlt => ?_⟩
    by_contra hne
    exact hcolon ⟨hlt, hne⟩

/-- An address is read from its canonical text and from no other. -/
theorem parsePeerAddress_iff {s : Text} {a : Fin 6 → UInt8} :
    parsePeerAddress s = some a ↔ s = peerAddressText a := by
  constructor
  · intro h
    unfold parsePeerAddress at h
    split_ifs at h with hlen
    split at h
    swap
    · cases h
    rename_i b₀ b₁ b₂ b₃ b₄ b₅ h₀ h₁ h₂ h₃ h₄ h₅
    cases h
    obtain ⟨h0, h1, hc0⟩ := peerByte_some h₀
    obtain ⟨h3, h4, hc1⟩ := peerByte_some h₁
    obtain ⟨h6, h7, hc2⟩ := peerByte_some h₂
    obtain ⟨h9, h10, hc3⟩ := peerByte_some h₃
    obtain ⟨h12, h13, hc4⟩ := peerByte_some h₄
    obtain ⟨h15, h16, -⟩ := peerByte_some h₅
    refine List.ext_getElem? fun i => ?_
    match i with
    | 0 => exact h0
    | 1 => exact h1
    | 2 => exact hc0 (by decide)
    | 3 => exact h3
    | 4 => exact h4
    | 5 => exact hc1 (by decide)
    | 6 => exact h6
    | 7 => exact h7
    | 8 => exact hc2 (by decide)
    | 9 => exact h9
    | 10 => exact h10
    | 11 => exact hc3 (by decide)
    | 12 => exact h12
    | 13 => exact h13
    | 14 => exact hc4 (by decide)
    | 15 => exact h15
    | 16 => exact h16
    | i + 17 =>
      have hshort : s.length ≤ i + 17 := by
        rw [not_not.1 hlen]
        exact Nat.le_add_left 17 i
      rw [List.getElem?_eq_none hshort]
      rfl
  · rintro rfl
    exact parsePeerAddress_text a

/-! ### The peer and the configuration -/

theorem checkPeer_iff {ctx : Ctx} {candidate cmd : CommandIn} :
    checkPeer ctx candidate = .ok cmd ↔
      ∃ a t, ctx.pending .peerAddress = some (.string (peerAddressText a)) ∧
        ctx.pending .peerAddressType = some (.string t.name) ∧
        cmd = { candidate with peerAddress := a, peerAddressType := t } := by
  constructor
  · intro h
    obtain ⟨address, haddress, h⟩ := bind_ok h
    obtain ⟨addressType, htype, h⟩ := bind_ok h
    cases hparse : parsePeerAddress address with
    | none =>
      rw [hparse] at h
      cases h
    | some a =>
      rw [hparse] at h
      obtain ⟨t, ht, h⟩ := bind_ok h
      cases h
      refine ⟨a, t, ?_, ?_, rfl⟩
      · rw [← parsePeerAddress_iff.1 hparse]
        exact Ctx.text_iff.1 haddress
      · rw [← named_spec ht]
        exact Ctx.text_iff.1 htype
  · rintro ⟨a, t, ha, ht, rfl⟩
    exact checkPeer_ok (Ctx.text_iff.2 ha) (Ctx.text_iff.2 ht) candidate

theorem checkConfig_iff {ctx : Ctx} {candidate cmd : CommandIn} :
    checkConfig ctx candidate = .ok cmd ↔
      ∃ (mode : Mode) (profile : Profile) (count seed : UInt32) (policy : ReconnectPolicy),
        ctx.pending .mode = some (.string mode.name) ∧
        ctx.pending .profile = some (.string profile.name) ∧
        ctx.pending .scoredSduCount = some (.uint count.toNat) ∧
        ctx.pending .signalSeed = some (.uint seed.toNat) ∧
        ctx.pending .reconnectPolicy = some (.string policy.name) ∧
        (1 ≤ count.toNat ∧ count.toNat ≤ maxScoredSdus.toNat) ∧
        (1 ≤ seed.toNat ∧ seed.toNat ≤ uint32Max.toNat) ∧
        cmd = { candidate with
          mode, profile, scoredSduCount := count, signalSeed := seed
          reconnectPolicy := policy } := by
  have hcountMax : maxScoredSdus.toNat < 2 ^ 32 := by decide
  have hseedMax : uint32Max.toNat < 2 ^ 32 := by decide
  constructor
  · intro h
    -- the fields in the order in which they are read, then their checks
    obtain ⟨modeName, hmode, h⟩ := bind_ok h
    obtain ⟨profileName, hprofile, h⟩ := bind_ok h
    obtain ⟨n, hcount, h⟩ := bind_ok h
    obtain ⟨m, hseed, h⟩ := bind_ok h
    obtain ⟨policyName, hpolicy, h⟩ := bind_ok h
    obtain ⟨mode, hm, h⟩ := bind_ok h
    obtain ⟨profile, hp, h⟩ := bind_ok h
    obtain ⟨count, hc, h⟩ := bind_ok h
    obtain ⟨seed, hs, h⟩ := bind_ok h
    obtain ⟨policy, hr, h⟩ := bind_ok h
    cases h
    obtain ⟨hcountRange, rfl⟩ := (inRange_iff hcountMax).1 hc
    obtain ⟨hseedRange, rfl⟩ := (inRange_iff hseedMax).1 hs
    rw [named_spec hm] at hmode
    rw [named_spec hp] at hprofile
    rw [named_spec hr] at hpolicy
    exact ⟨mode, profile, count, seed, policy, Ctx.text_iff.1 hmode, Ctx.text_iff.1 hprofile,
      Ctx.number_iff.1 hcount, Ctx.number_iff.1 hseed, Ctx.text_iff.1 hpolicy, hcountRange,
      hseedRange, rfl⟩
  · rintro ⟨mode, profile, count, seed, policy, hmode, hprofile, hcount, hseed, hpolicy,
      hcountRange, hseedRange, rfl⟩
    have hm : named [.mono, .modeA, .modeB] Mode.name mode.name = .ok mode := by
      cases mode <;> rfl
    have hp : named [.p48_3_1, .p48_4_1] Profile.name profile.name = .ok profile := by
      cases profile <;> rfl
    have hr : named [.none, .once] ReconnectPolicy.name policy.name = .ok policy := by
      cases policy <;> rfl
    exact checkConfig_ok (Ctx.text_iff.2 hmode) (Ctx.text_iff.2 hprofile) (Ctx.number_iff.2 hcount)
      (Ctx.number_iff.2 hseed) (Ctx.text_iff.2 hpolicy) hm hp
      ((inRange_iff hcountMax).2 ⟨hcountRange, rfl⟩) ((inRange_iff hseedMax).2 ⟨hseedRange, rfl⟩) hr
      candidate

/-! ### The command -/

/-- What the scan leaves of a command: the values of its keys and nothing else. -/
def Ctx.Holds (ctx : Ctx) (cmd : CommandIn) : Prop :=
  ctx.unknownKeySeen = false ∧
    ∀ k, ctx.pending k = if k.allowed cmd.command then some (cmd.value k) else none

theorem Ctx.holds_of_values {ctx : Ctx} {cmd : CommandIn} (hunknown : ctx.unknownKeySeen = false)
    (hkeys : ∀ k, (ctx.pending k).isSome = k.allowed cmd.command)
    (hvalues : ∀ k, k.allowed cmd.command = true → ctx.pending k = some (cmd.value k)) :
    ctx.Holds cmd := by
  refine ⟨hunknown, fun k => ?_⟩
  split_ifs with hk
  · exact hvalues k hk
  · rw [← hkeys k] at hk
    simpa using hk

/-- A command that is taken is the one whose values were scanned, within its limits. -/
theorem select_sound {ctx : Ctx} {cmd : CommandIn} (h : select ctx = .ok cmd) :
    ctx.Holds cmd ∧ cmd.Canonical := by
  obtain ⟨name, hname, h⟩ := bind_ok h
  obtain ⟨command, hcommand, h⟩ := bind_ok h
  obtain ⟨_, hset, h⟩ := bind_ok h
  obtain ⟨_, hprotocol, h⟩ := bind_ok h
  obtain ⟨commandId, hid, h⟩ := bind_ok h
  obtain ⟨runId, hrun, h⟩ := bind_ok h
  rw [named_spec hcommand] at hname
  have hname := Ctx.text_iff.1 hname
  have hprotocol := checkProtocol_iff.1 hprotocol
  obtain ⟨hunknown, hkeys⟩ := checkKeySet_iff.1 hset
  obtain ⟨hid, hidOk⟩ := checkId_iff.1 hid
  obtain ⟨hrun, hrunOk⟩ := checkId_iff.1 hrun
  cases command with
  | unpair =>
    obtain ⟨a, t, ha, ht, rfl⟩ := checkPeer_iff.1 h
    refine ⟨Ctx.holds_of_values hunknown hkeys fun k hk => ?_, ⟨hidOk, hrunOk, ?_, ?_, ?_, ?_⟩⟩
    · cases k <;> first | assumption | exact absurd hk Bool.false_ne_true
    · exact fun h => SourceCommand.noConfusion h
    · exact fun h => SourceCommand.noConfusion h
    · exact fun h => absurd rfl h
    · exact fun _ => ⟨rfl, rfl, rfl, rfl, rfl⟩
  | configure =>
    obtain ⟨candidate, hpeer, h⟩ := bind_ok h
    obtain ⟨a, t, ha, ht, rfl⟩ := checkPeer_iff.1 hpeer
    obtain ⟨mode, profile, count, seed, policy, hmode, hprofile, hcount, hseed, hpolicy,
      hcountRange, hseedRange, rfl⟩ := checkConfig_iff.1 h
    refine ⟨Ctx.holds_of_values hunknown hkeys fun k _ => ?_,
      ⟨hidOk, hrunOk, fun _ => hcountRange, fun _ => hseedRange.1, ?_, ?_⟩⟩
    · cases k <;> assumption
    · exact fun _ h => absurd rfl h
    · exact fun h => absurd rfl h
  | hello | idle | start | stop | status =>
    cases h
    refine ⟨Ctx.holds_of_values hunknown hkeys fun k hk => ?_, ⟨hidOk, hrunOk, ?_, ?_, ?_, ?_⟩⟩
    · cases k <;> first | assumption | exact absurd hk Bool.false_ne_true
    · exact fun h => SourceCommand.noConfusion h
    · exact fun h => SourceCommand.noConfusion h
    · exact fun _ _ => ⟨rfl, rfl⟩
    · exact fun _ => ⟨rfl, rfl, rfl, rfl, rfl⟩

/-- **A command is taken from the scanned values if and only if they are exactly its own, and it is
within its limits.** -/
theorem select_iff {ctx : Ctx} {cmd : CommandIn} :
    select ctx = .ok cmd ↔ ctx.Holds cmd ∧ cmd.Canonical := by
  constructor
  · exact select_sound
  · rintro ⟨⟨hunknown, hpending⟩, hcanon⟩
    have hset : checkKeySet ctx cmd.command = .ok () := by
      refine checkKeySet_iff.2 ⟨hunknown, fun k => ?_⟩
      rw [hpending k]
      split_ifs with hk <;> simp [hk]
    have hname : ctx.text .command = .ok cmd.command.name := Ctx.text_iff.2 (hpending .command)
    have hprotocol : checkProtocol ctx = .ok () := checkProtocol_iff.2 (hpending .protocolVersion)
    have hid : checkId ctx .commandId maxCommandIdLen = .ok cmd.commandId :=
      checkId_iff.2 ⟨hpending .commandId, hcanon.commandId⟩
    have hrun : checkId ctx .runId maxRunIdLen = .ok cmd.runId :=
      checkId_iff.2 ⟨hpending .runId, hcanon.runId⟩
    unfold select
    simp only [hname, commandFromString_name, hset, hprotocol, hid, hrun, bind, Except.bind]
    obtain ⟨command, commandId, runId, address, addressType, mode, profile, count, seed,
      policy⟩ := cmd
    cases command with
    | unpair =>
      obtain ⟨rfl, rfl, rfl, rfl, rfl⟩ := hcanon.config (fun h => SourceCommand.noConfusion h)
      exact checkPeer_iff.2 ⟨address, addressType, hpending .peerAddress,
        hpending .peerAddressType, rfl⟩
    | configure =>
      have hpeer := @checkPeer_iff ctx (CommandIn.candidate .configure commandId runId) _
        |>.2 ⟨address, addressType, hpending .peerAddress, hpending .peerAddressType, rfl⟩
      have hseed : seed.toNat ≤ uint32Max.toNat := Nat.le_of_lt_succ seed.toNat_lt
      simp only [hpeer]
      exact checkConfig_iff.2 ⟨mode, profile, count, seed, policy, hpending .mode,
        hpending .profile, hpending .scoredSduCount, hpending .signalSeed,
        hpending .reconnectPolicy, hcanon.count rfl, ⟨hcanon.seed rfl, hseed⟩, rfl⟩
    | hello | idle | start | stop | status =>
      obtain ⟨rfl, rfl⟩ := hcanon.peer (fun h => SourceCommand.noConfusion h)
        (fun h => SourceCommand.noConfusion h)
      obtain ⟨rfl, rfl, rfl, rfl, rfl⟩ := hcanon.config (fun h => SourceCommand.noConfusion h)
      rfl

end Hil

end LeAudioReceiver
