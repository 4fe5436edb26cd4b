import LeAudioReceiver.Hil.State
import LeAudioReceiver.Json.RoundTrip

/-!
# The wire strings of the HIL source

The canonical strings of `src/hil/source/core/hil_source_types.h`: every enumeration with the
strings that stand for its values in commands and records, the limits, and the identifiers that are
safe to send.
-/

namespace LeAudioReceiver

namespace Hil

open Json (Text plain)

/-- `enum hil_source_command`. -/
inductive SourceCommand where
  | hello
  | idle
  | unpair
  | configure
  | start
  | stop
  | status
  deriving DecidableEq, Repr

/-- `hil_source_command_name`. -/
def SourceCommand.name : SourceCommand → Text
  | hello => "hello".toList
  | idle => "idle".toList
  | unpair => "unpair".toList
  | configure => "configure".toList
  | start => "start".toList
  | stop => "stop".toList
  | status => "status".toList

/-- `hil_source_mode_name`. -/
def Mode.name : Mode → Text
  | mono => "mono".toList
  | modeA => "mode_a".toList
  | modeB => "mode_b".toList

/-- `hil_source_profile_name`. -/
def Profile.name : Profile → Text
  | p48_3_1 => "48_3_1".toList
  | p48_4_1 => "48_4_1".toList

/-- The strings of an address type. -/
def AddressType.name : AddressType → Text
  | pub => "public".toList
  | random => "random".toList

/-- `hil_source_reconnect_policy_name`. -/
def ReconnectPolicy.name : ReconnectPolicy → Text
  | none => "none".toList
  | once => "once".toList

/-- `hil_source_state_name`. -/
def RunState.name : RunState → Text
  | idle => "idle".toList
  | configured => "configured".toList
  | connecting => "connecting".toList
  | secured => "secured".toList
  | discovered => "discovered".toList
  | qos => "qos".toList
  | streaming => "streaming".toList
  | scoredComplete => "scored_complete".toList
  | teardown => "teardown".toList

/-- `hil_source_verdict_name`: a run without a verdict has no string. -/
def Verdict.name : Verdict → Option Text
  | none => Option.none
  | pass => some "pass".toList
  | fail => some "fail".toList

/-- `hil_source_abort_cause_name`. -/
def AbortCause.name : AbortCause → Text
  | stop => "stop".toList
  | timeout => "timeout".toList
  | error => "error".toList

/-- `HIL_SOURCE_PROTOCOL_VERSION`. -/
def protocolVersion : ℕ := 1

/-- `HIL_SOURCE_MAX_COMMAND_LINE_BYTES`. -/
def maxCommandLineBytes : ℕ := 511

/-- `HIL_SOURCE_MAX_COMMAND_ID_LEN`. -/
def maxCommandIdLen : ℕ := 63

/-- `HIL_SOURCE_MAX_RUN_ID_LEN`. -/
def maxRunIdLen : ℕ := 64

/-! ### Safe identifiers -/

/-- A letter or a digit. -/
def idHead (c : Char) : Bool :=
  ('a' ≤ c && c ≤ 'z') || ('A' ≤ c && c ≤ 'Z') || ('0' ≤ c && c ≤ '9')

/-- A character after the first. -/
def idTail (c : Char) : Bool := idHead c || c = '.' || c = '_' || c = '-'

/-- `hil_source_safe_id_chars_ok`. -/
def safeIdCharsOk : Text → Bool
  | [] => false
  | c :: id => idHead c && id.all idTail

theorem idTail_of_idHead {c : Char} (h : idHead c = true) : idTail c = true := by
  simp [idTail, h]

theorem idTail_of_safe {id : Text} (h : safeIdCharsOk id = true) : ∀ c ∈ id, idTail c = true := by
  cases id with
  | nil => cases h
  | cons c id =>
    simp only [safeIdCharsOk, Bool.and_eq_true, List.all_eq_true] at h
    intro d hd
    rcases List.mem_cons.1 hd with rfl | hd
    · exact idTail_of_idHead h.1
    · exact h.2 d hd

theorem plain_of_idTail {c : Char} (h : idTail c = true) : plain c = true := by
  have hlt : c.toNat < 128 := by
    simp only [idTail, idHead, Bool.or_eq_true, Bool.and_eq_true, decide_eq_true_eq, Char.le_def,
      UInt32.le_iff_toNat_le] at h
    simp only [Char.toNat]
    rcases h with ((((h | h) | h) | rfl) | rfl) | rfl
    · exact Nat.lt_of_le_of_lt h.2 (by decide)
    · exact Nat.lt_of_le_of_lt h.2 (by decide)
    · exact Nat.lt_of_le_of_lt h.2 (by decide)
    all_goals decide
  have hall : ∀ n : Fin 128, idTail (.ofNat n) = true → plain (.ofNat n) = true := by decide
  have hc := hall ⟨c.toNat, hlt⟩
  simp only [Char.ofNat_toNat] at hc
  exact hc h

theorem plain_of_safe {id : Text} (h : safeIdCharsOk id = true) : id.all plain = true :=
  List.all_eq_true.2 fun c hc => plain_of_idTail (idTail_of_safe h c hc)

end Hil

end LeAudioReceiver
