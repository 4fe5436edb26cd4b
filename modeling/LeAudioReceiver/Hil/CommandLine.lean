import LeAudioReceiver.Hil.Names

/-!
# The commands of the HIL host

What the host sends to the source and what it checks before: `validate_run_id` in
`src/scripts/hil/lifecycle.py`, `RowSpec` in `src/scripts/hil/rows.py` and
`SourceClient._command_line` in `src/scripts/hil/source_client.py` with the arguments of its
callers.

A value whose type the checks ask for has that type here.
-/

namespace LeAudioReceiver

namespace Hil

open Json (Text Value)

/-! ### Run identifiers -/

/-- `$`: the end of a text, or the newline at its end. -/
def atEnd : Text → Bool
  | [] => true
  | ['\n'] => true
  | _ => false

/-- `RUN_ID_RE.match`, with `^[A-Za-z0-9][A-Za-z0-9._-]{0,63}$`. -/
def runIdMatches : Text → Bool
  | [] => false
  | c :: s => idHead c && (s.takeWhile idTail).length ≤ 63 && atEnd (s.dropWhile idTail)

/-- `validate_run_id`: whether it does not raise. -/
def validateRunId (runId : Text) : Bool := runIdMatches runId

/-! ### Rows -/

/-- `RowSpec`. -/
structure RowSpec where
  name : Text
  state : Text
  mode : Text
  profile : Text
  scoredSduCount : ℤ
  signalSeed : ℤ
  reconnectPolicy : Text
  fault : Option Text

/-- `RowSpecError`, by what it says of the row. -/
inductive RowSpecError where
  | name
  | state
  | mode
  | profile
  | scoredSduCount
  | signalSeed
  | reconnectPolicy
  | fault
  | faultProfile
  deriving DecidableEq, Repr

/-- The keys of `MODE_STREAM_COUNTS`. -/
def modeNames : List Text := ["mono".toList, "mode_a".toList, "mode_b".toList]

/-- The keys of `PROFILE_FRAME_US`. -/
def profileNames : List Text := ["48_4_1".toList, "48_3_1".toList]

/-- The states of a row. -/
def rowStates : List Text := ["fresh".toList, "preserved".toList]

/-- The reconnect policies of a row. -/
def policyNames : List Text := ["none".toList, "once".toList]

/-- The faults of a row. -/
def rowFaults : List (Option Text) := [none, some "hang".toList, some "stall".toList]

/-- `RowSpec.__post_init__`. -/
def RowSpec.postInit (row : RowSpec) : Except RowSpecError Unit :=
  if row.name.isEmpty then .error .name
  else if !rowStates.contains row.state then .error .state
  else if !modeNames.contains row.mode then .error .mode
  else if !profileNames.contains row.profile then .error .profile
  else if ¬(1 ≤ row.scoredSduCount ∧ row.scoredSduCount ≤ 20000) then .error .scoredSduCount
  else if ¬(1 ≤ row.signalSeed ∧ row.signalSeed ≤ 0xffffffff) then .error .signalSeed
  else if !policyNames.contains row.reconnectPolicy then .error .reconnectPolicy
  else if !rowFaults.contains row.fault then .error .fault
  else if row.fault ≠ none ∧ row.profile ≠ "48_4_1".toList then .error .faultProfile
  else .ok ()

/-! ### Command lines -/

/-- `"cmd-%04d"`. -/
def hostCommandId (seq : ℕ) : Text :=
  "cmd-".toList ++ List.replicate (4 - (Nat.toDigits 10 seq).length) '0' ++ Nat.toDigits 10 seq

/-- `MAX_COMMAND_LINE`. -/
def maxCommandLine : ℕ := 512

/-- `SourceClient._command_line`, or the length of the line that it refuses. -/
def commandLine (runId command commandId : Text) (extra : List (Text × Value)) :
    Except ℕ Text :=
  let payload :=
    [("protocol_version".toList, .int 1), ("command".toList, .str command),
      ("command_id".toList, .str commandId), ("run_id".toList, .str runId)] ++ extra
  let line := "hil ".toList ++ Json.dumps (.obj payload)
  if line.length ≥ maxCommandLine then .error line.length else .ok line

/-- Two hexadecimal digits in upper case. -/
def hexByte (b : UInt8) : Text :=
  [(Nat.digitChar (b.toNat / 16)).toUpper, (Nat.digitChar (b.toNat % 16)).toUpper]

/-- The canonical text of a peer address. -/
def peerAddressText (address : Fin 6 → UInt8) : Text :=
  hexByte (address 0) ++ ':' :: hexByte (address 1) ++ ':' :: hexByte (address 2) ++
    ':' :: hexByte (address 3) ++ ':' :: hexByte (address 4) ++ ':' :: hexByte (address 5)

/-- A command with the arguments of its method of `SourceClient`; the row of `configure` is the one
whose values its caller passes on. -/
inductive Request where
  | hello
  | idle
  | unpair (peerAddress : Fin 6 → UInt8) (peerAddressType : AddressType)
  | configure (peerAddress : Fin 6 → UInt8) (peerAddressType : AddressType) (row : RowSpec)
  | start
  | stop
  | status

namespace Request

/-- The command of a request. -/
def command : Request → SourceCommand
  | hello => .hello
  | idle => .idle
  | unpair .. => .unpair
  | configure .. => .configure
  | start => .start
  | stop => .stop
  | status => .status

/-- The peer among the keyword arguments. -/
def peer (peerAddress : Fin 6 → UInt8) (peerAddressType : AddressType) : List (Text × Value) :=
  [("peer_address".toList, .str (peerAddressText peerAddress)),
    ("peer_address_type".toList, .str peerAddressType.name)]

/-- The keyword arguments, in their order. -/
def extra : Request → List (Text × Value)
  | unpair peerAddress peerAddressType => peer peerAddress peerAddressType
  | configure peerAddress peerAddressType row =>
    peer peerAddress peerAddressType ++
      [("mode".toList, .str row.mode), ("profile".toList, .str row.profile),
        ("scored_sdu_count".toList, .int row.scoredSduCount),
        ("signal_seed".toList, .int row.signalSeed),
        ("reconnect_policy".toList, .str row.reconnectPolicy)]
  | _ => []

/-- The row of a request has passed its own validation. -/
def RowOk : Request → Prop
  | configure _ _ row => row.postInit = .ok ()
  | _ => True

/-- The line of a request. -/
def line (r : Request) (runId : Text) (seq : ℕ) : Except ℕ Text :=
  commandLine runId r.command.name (hostCommandId seq) r.extra

end Request

end Hil

end LeAudioReceiver
