import LeAudioReceiver.Hil.RecordTrip
import LeAudioReceiver.Hil.Transmit

/-!
# The status record of the HIL source

`hil_app_build_status_data` and `hil_app_emit_status_data` of
`src/hil/source/app/src/hil_source_app.c` with `hil_app_submit_record`: the line of the output queue
that a status becomes, or the error that it ends with.
-/

namespace LeAudioReceiver

namespace Hil

open Json (Text)
open Transmit (Stream Tx)

/-! ### What a status shows -/

/-- The answers of the backend that a status shows. -/
structure BackendStatus where
  connPresent : Bool
  securityLevel : UInt8
  securityError : ℤ
  discoveredSinkCount : UInt8
  groupPresent : Bool
  disconnectReason : UInt8
  firstAscsCode : UInt8
  firstAscsReason : UInt8
  bondCount : ℤ

/-- The bookkeeping of a stream is within the types of the code. -/
structure Transmit.Stream.InRange (t : Stream) : Prop where
  outstanding : t.outstanding < 2 ^ 32
  leadMin : Transmit.int32Min ≤ t.leadMin ∧ t.leadMin ≤ Transmit.int32Max
  leadMax : Transmit.int32Min ≤ t.leadMax ∧ t.leadMax ≤ Transmit.int32Max

/-- What a status shows. -/
structure Shown where
  run : State
  stream : Fin 2 → Stream
  backend : BackendStatus
  inRange : ∀ i, (stream i).InRange

/-- The configured streams. -/
def Mode.indices : Mode → List (Fin 2)
  | mono | modeB => [0]
  | modeA => [0, 1]

/-- The outcome of `hil_app_emit_status_data` without a line.  The output answers `eoverflow` to a
line that is too long. -/
inductive EmitError where
  | format (e : FormatError)
  | eoverflow
  deriving DecidableEq, Repr

/-- `HIL_SOURCE_OUTPUT_LINE_SIZE`. -/
def outputLineSize : ℕ := 1024

/-- The size of `streams_json`. -/
def streamsJsonSize : ℕ := 384

/-- The size of `tx_json`. -/
def txJsonSize : ℕ := 320

/-! ### The texts -/

/-- `%d`. -/
def signed (z : ℤ) : Text := Json.decimal z

/-- `true` or `false`. -/
def flag (b : Bool) : Text := if b then "true".toList else "false".toList

/-- An object of `streams`. -/
def streamText (i : Fin 2) (t : Stream) (c : StreamCounter) : Text :=
  (if i = 0 then [] else ",".toList) ++
    "\x7b\"seq\":".toList ++ unsigned t.seq.toNat ++
    ",\"sub\":".toList ++ unsigned c.submittedSdus.toNat ++
    ",\"sc\":".toList ++ unsigned c.submittedScoredSdus.toNat ++
    ",\"sf\":".toList ++ unsigned c.sendFailures.toNat ++
    ",\"cb\":".toList ++ unsigned c.sentCallbacks.toNat ++
    ",\"out\":".toList ++ unsigned t.outstanding ++ "\x7d".toList

/-- A lead, `0` before the first. -/
def shownLead (t : Stream) (lead : ℤ) : ℤ := if t.leadCnt = 0 then 0 else lead

/-- `tx` of a status with two streams. -/
def txTextTwo (t u : Stream) : Text :=
  "\x7b\"anchor\":".toList ++ unsigned t.readback.toNat ++
    ",\"pin\":".toList ++ unsigned t.pinLast.toNat ++
    ",\"skip\":".toList ++ unsigned t.pinAdvances.toNat ++
    ",\"lead\":\x7b\"min\":[".toList ++ signed (shownLead t t.leadMin) ++
    ",".toList ++ signed (shownLead u u.leadMin) ++
    "],\"max\":[".toList ++ signed (shownLead t t.leadMax) ++
    ",".toList ++ signed (shownLead u u.leadMax) ++
    "],\"under\":[".toList ++ unsigned t.leadUnder.toNat ++
    ",".toList ++ unsigned u.leadUnder.toNat ++
    "]\x7d,\"sync\":[[".toList ++ unsigned t.syncLast.toNat ++
    ",".toList ++ unsigned t.syncCnt.toNat ++
    "],[".toList ++ unsigned u.syncLast.toNat ++
    ",".toList ++ unsigned u.syncCnt.toNat ++ "]]\x7d".toList

/-- `tx` of a status with one stream. -/
def txTextOne (t : Stream) : Text :=
  "\x7b\"anchor\":".toList ++ unsigned t.readback.toNat ++
    ",\"pin\":".toList ++ unsigned t.pinLast.toNat ++
    ",\"skip\":".toList ++ unsigned t.pinAdvances.toNat ++
    ",\"lead\":\x7b\"min\":[".toList ++ signed (shownLead t t.leadMin) ++
    "],\"max\":[".toList ++ signed (shownLead t t.leadMax) ++
    "],\"under\":[".toList ++ unsigned t.leadUnder.toNat ++
    "]\x7d,\"sync\":[[".toList ++ unsigned t.syncLast.toNat ++
    ",".toList ++ unsigned t.syncCnt.toNat ++ "]]\x7d".toList

/-- `tx`, which a failed command leaves out. -/
def txText (s : Shown) (ok : Bool) : Text :=
  if ok then
    match s.run.config.mode with
    | .modeA => txTextTwo (s.stream 0) (s.stream 1)
    | _ => txTextOne (s.stream 0)
  else "null".toList

/-- The string of a verdict, `none` without one. -/
def verdictName (v : Verdict) : Text := v.name.getD "none".toList

/-- The text of the format string; `streams` and `tx` are the scratch buffers. -/
def statusText (s : Shown) (cmd : SourceCommand) (ok : Bool) (errorName streams tx : Text) : Text :=
  "\x7b\"command\":\"".toList ++ cmd.name ++ "\",\"ok\":".toList ++ flag ok ++
    ",\"error\":\"".toList ++ errorName ++
    "\",\"active\":".toList ++ flag s.run.active ++
    ",\"state\":\"".toList ++ s.run.currentState.name ++
    "\",\"segment\":".toList ++ unsigned s.run.segment.toNat ++
    ",\"aborted\":".toList ++ flag s.run.aborted ++
    ",\"cause\":\"".toList ++ s.run.abortCause.name ++
    "\",\"stop_requested\":".toList ++ flag s.run.stopRequested ++
    ",\"verdict\":\"".toList ++ verdictName s.run.terminal ++
    "\",\"first_errno\":".toList ++ signed s.run.firstError ++
    ",\"mode\":\"".toList ++ s.run.config.mode.name ++
    "\",\"profile\":\"".toList ++ s.run.config.profile.name ++
    "\",\"reconnect\":\"".toList ++ s.run.config.reconnectPolicy.name ++
    "\",\"scored_target\":".toList ++ unsigned s.run.config.scoredSduCount.toNat ++
    ",\"stream_count\":".toList ++ unsigned s.run.config.mode.streamCount ++
    ",\"streams\":[".toList ++ streams ++ "],\"tx\":".toList ++ tx ++
    ",\"connected\":".toList ++ flag s.backend.connPresent ++
    ",\"security_level\":".toList ++ unsigned s.backend.securityLevel.toNat ++
    ",\"security_error\":".toList ++ signed s.backend.securityError ++
    ",\"sink_ase_count\":".toList ++ unsigned s.backend.discoveredSinkCount.toNat ++
    ",\"group\":".toList ++ flag s.backend.groupPresent ++
    ",\"disconnect_reason\":".toList ++ unsigned s.backend.disconnectReason.toNat ++
    ",\"first_ascs_code\":".toList ++ unsigned s.backend.firstAscsCode.toNat ++
    ",\"first_ascs_reason\":".toList ++ unsigned s.backend.firstAscsReason.toNat ++
    ",\"bond_count\":".toList ++ signed s.backend.bondCount ++ "\x7d".toList

/-! ### The buffers -/

/-- The loop over the streams behind what `streams_json` holds. -/
def appendStreams (s : Shown) : List (Fin 2) → Text → Except FormatError Text
  | [], streams => .ok streams
  | i :: is, streams =>
    let text := streamText i (s.stream i) (s.run.counters i)
    if streamsJsonSize - streams.length ≤ text.length then .error .enobufs
    else appendStreams s is (streams ++ text)

/-- `hil_app_build_status_data`. -/
def buildStatusData (s : Shown) (cap : ℕ) (cmd : SourceCommand) (ok : Bool) (errorName : Text) :
    Except FormatError Text :=
  match appendStreams s s.run.config.mode.indices [] with
  | .error e => .error e
  | .ok streams =>
    let tx := txText s ok
    if txJsonSize ≤ tx.length then .error .enobufs
    else
      let data := statusText s cmd ok errorName streams tx
      if cap ≤ data.length then .error .enobufs else .ok data

/-- `hil_app_submit_record`: the line that is submitted. -/
def submitRecord (record : Text) : Except EmitError Text :=
  if outputLineSize < record.length + 5 then .error .eoverflow else .ok (hil1 ++ record)

/-- `hil_app_emit_status_data`, up to the output queue. -/
def emitStatusData (h : Header) (s : Shown) (cmd : SourceCommand) (ok : Bool) (errorName : Text) :
    Except EmitError Text :=
  match buildStatusData s outputLineSize cmd ok errorName with
  | .error e => .error (.format e)
  | .ok data =>
    match formatLine (List.replicate outputLineSize nul) h "status".toList data with
    | (_, .error e) => .error (.format e)
    | (line, .ok n) => submitRecord (line.take n)

/-- What becomes of the record; `accepted` is the answer of the output queue. -/
def emission (line : Except EmitError Text) (accepted : Bool) : Emission :=
  match line with
  | .error (.format _) => .unformatted
  | .error .eoverflow => .refused
  | .ok _ => if accepted then .queued else .refused

/-- STATUS of the configured run. -/
def statusLine (h : Header) (s : Shown) : Except EmitError Text :=
  emitStatusData h s .status true "ok".toList

end Hil

end LeAudioReceiver
