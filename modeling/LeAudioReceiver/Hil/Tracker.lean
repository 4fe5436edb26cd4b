import LeAudioReceiver.Hil.State

/-!
# The run tracker of the HIL host

A model of `HilRunTracker` in `src/scripts/hil/protocol.py`: the host's view of one run, from the
HIL1 records of the source.  A record is one that `parse_hil1_line` has let through, so the data of
a `state` record is a state or an abort with its cause.  An accept returns the tracker, changed or
not, beside the message of the error it raises.

Other data of a record is left out, and so is the protocol version: the tracker does not read them.
-/

namespace LeAudioReceiver

namespace Hil

/-- The kind of a record and what the tracker reads of its data. -/
inductive RecordData where
  | ack
  /-- A `state` record with exactly the state key. -/
  | state (state : RunState)
  /-- A `state` record with the state `teardown` and a cause. -/
  | abort (cause : AbortCause)
  | terminal (verdict : Verdict)
  | status
  deriving DecidableEq, Repr

/-- `HilRecord`. -/
structure Record where
  data : RecordData
  firmwareId : String
  monotonicMs : ℕ
  commandId : String
  runId : String
  segment : ℕ
  deriving DecidableEq, Repr

/-- `HilRunTracker`. -/
structure Tracker where
  runId : String
  commandId : String
  firmwareId : Option String
  /-- `none` before the first state. -/
  segment : Option ℕ
  /-- The index of the last state record. -/
  stateIndex : ℤ
  lastMonotonic : ℤ
  terminal : Option Record
  aborted : Bool
  abortCause : Option AbortCause
  deriving DecidableEq, Repr

/-- The fields that a `state` record moves. -/
structure Place where
  segment : Option ℕ
  stateIndex : ℤ
  aborted : Bool
  abortCause : Option AbortCause

namespace Tracker

/-- `HilRunTracker(run_id, command_id)`. -/
def new (runId commandId : String) : Tracker :=
  { runId := runId, commandId := commandId, firmwareId := none, segment := none, stateIndex := -1
    lastMonotonic := -1, terminal := none, aborted := false, abortCause := none }

/-- The index of `teardown`: `len(STATES) - 1`. -/
def lastIndex : ℤ := 8

/-- A record of another segment than the current one. -/
def segmentError (segment current : ℕ) : String :=
  if segment < current then "segment regression" else "segment skip"

/-- `_validate_abort`. -/
def validateAbort (t : Tracker) (segment : ℕ) (cause : AbortCause) : Except String Place :=
  match t.segment with
  | none => .error "abort before segment start"
  | some current =>
    if segment ≠ current then .error (segmentError segment current)
    else if t.stateIndex = lastIndex then .error "abort after teardown"
    else if t.aborted then .error "repeat abort"
    else .ok { segment := t.segment, stateIndex := lastIndex, aborted := true
               abortCause := some cause }

/-- `_validate_state`. -/
def validateState (t : Tracker) (segment : ℕ) (state : RunState) : Except String Place :=
  let index : ℤ := state.index
  match t.segment with
  | none =>
    if segment ≠ 0 then .error "segment must start at 0"
    else if state ≠ .idle then .error "first state must be idle"
    else .ok { segment := some 0, stateIndex := index, aborted := t.aborted
               abortCause := t.abortCause }
  | some current =>
    if segment = current then
      if index = t.stateIndex then .error "state repeat"
      else if index < t.stateIndex then .error "state regression"
      else if index ≠ t.stateIndex + 1 then .error "state skip"
      else .ok { segment := t.segment, stateIndex := index, aborted := t.aborted
                 abortCause := t.abortCause }
    else if segment = current + 1 then
      if t.stateIndex ≠ lastIndex then .error "new segment before previous segment teardown"
      else if t.aborted then .error "reconnect after abort"
      else if state ≠ .connecting then .error "new segment must start at connecting"
      else .ok { segment := some segment, stateIndex := index, aborted := t.aborted
                 abortCause := t.abortCause }
    else .error (segmentError segment current)

/-- `_validate_terminal`. -/
def validateTerminal (t : Tracker) : Option String :=
  if t.segment = none ∨ t.stateIndex ≠ lastIndex then some "terminal before teardown" else none

/-- The checks of the identities and of the time. -/
def headerError (t : Tracker) (r : Record) : Option String :=
  if r.runId ≠ t.runId then some "run id mismatch"
  else if t.firmwareId ≠ none ∧ some r.firmwareId ≠ t.firmwareId then some "firmware id mismatch"
  else if (r.monotonicMs : ℤ) < t.lastMonotonic then some "monotonic time regression"
  else none

/-- The segment contract of the records that are not states. -/
def contractError (t : Tracker) (r : Record) : Option String :=
  match t.segment, r.data with
  | none, .ack | none, .status =>
    if r.segment ≠ 0 then some "segment must be 0 before first state" else none
  | none, .terminal _ => some "terminal before teardown"
  | some current, .ack | some current, .status | some current, .terminal _ =>
    if r.segment ≠ current then some (segmentError r.segment current) else none
  | _, .state _ | _, .abort _ => none

/-- The check of the command id. -/
def commandError (t : Tracker) (r : Record) : Option String :=
  match r.data with
  | .status =>
    if r.commandId = t.commandId then some "status must use a different command id" else none
  | _ => if r.commandId ≠ t.commandId then some "command id mismatch" else none

/-- What may not follow a terminal record. -/
def lateError (t : Tracker) (r : Record) : Option String :=
  if t.terminal = none then none
  else
    match r.data with
    | .terminal _ => some "duplicate terminal"
    | .status => none
    | _ => some "post-terminal record"

/-- The checks that the kinds of records share. -/
def sharedError (t : Tracker) (r : Record) : Option String :=
  (((t.headerError r).or (t.contractError r)).or (t.commandError r)).or (t.lateError r)

/-- What a record changes beside the firmware id and the time. -/
inductive Change where
  | place (p : Place)
  | terminal
  | nothing

/-- The validation of a record by its kind. -/
def change (t : Tracker) (r : Record) : Except String Change :=
  match r.data with
  | .abort cause => (t.validateAbort r.segment cause).map .place
  | .state state => (t.validateState r.segment state).map .place
  | .terminal verdict =>
    match t.validateTerminal with
    | some e => .error e
    | none =>
      if t.aborted ∧ verdict = .pass then .error "pass terminal after abort" else .ok .terminal
  | .ack | .status => .ok .nothing

/-- The commit of a record that passed every check. -/
def commit (t : Tracker) (r : Record) (c : Change) : Tracker :=
  let t := { t with firmwareId := some r.firmwareId, lastMonotonic := r.monotonicMs }
  match c with
  | .place p => { t with segment := p.segment, stateIndex := p.stateIndex, aborted := p.aborted
                         abortCause := p.abortCause }
  | .terminal => { t with terminal := some r }
  | .nothing => t

/-- `HilRunTracker.accept`: the tracker afterwards and the error raised. -/
def accept (t : Tracker) (r : Record) : Tracker × Option String :=
  match t.sharedError r with
  | some e => (t, some e)
  | none =>
    match t.change r with
    | .error e => (t, some e)
    | .ok c => (t.commit r c, none)

theorem accept_raised {t : Tracker} {r : Record} {e : String} (h : (t.accept r).2 = some e) :
    (t.accept r).1 = t := by
  unfold accept at h ⊢
  cases hshared : t.sharedError r with
  | some e' => rfl
  | none =>
    simp only [hshared] at h ⊢
    cases hchange : t.change r with
    | error e' => rfl
    | ok c =>
      simp only [hchange] at h
      cases h

theorem accept_ok {t : Tracker} {r : Record} {c : Change} (hshared : t.sharedError r = none)
    (hchange : t.change r = .ok c) : t.accept r = (t.commit r c, none) := by
  simp only [accept, hshared, hchange]

theorem sharedError_eq_none {t : Tracker} {r : Record} :
    t.sharedError r = none ↔ t.headerError r = none ∧ t.contractError r = none ∧
      t.commandError r = none ∧ t.lateError r = none := by
  simp only [sharedError, Option.or_eq_none_iff, and_assoc]

end Tracker

end Hil

end LeAudioReceiver
