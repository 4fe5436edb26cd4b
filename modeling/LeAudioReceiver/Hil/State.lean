import Mathlib.Algebra.Group.Int.Defs
import Mathlib.Algebra.Ring.Nat
import Mathlib.Data.Fin.VecNotation
import Mathlib.Data.Fintype.Basic
import Mathlib.Data.Int.Notation
import Mathlib.Tactic.Common

/-!
# The run state of the HIL source

A model of `src/hil/source/core/hil_source_state.c`: the state object of a run of the source
fixture and its operations, as they are called by the application.  An argument outside of its
enumeration is `none`.  Every operation returns the state object, changed or not, beside its return
value.

The checks for null pointers are left out.
-/

namespace LeAudioReceiver

namespace Hil

/-- The error codes of the state machine. -/
inductive Errno where
  | einval
  | ebusy
  | eoverflow
  deriving DecidableEq, Repr

/-! ### Enumerations -/

/-- `enum hil_source_mode`. -/
inductive Mode where
  | mono
  | modeA
  | modeB
  deriving DecidableEq, Repr

/-- `enum hil_source_profile`. -/
inductive Profile where
  | p48_3_1
  | p48_4_1
  deriving DecidableEq, Repr

/-- `enum hil_source_address_type`. -/
inductive AddressType where
  | pub
  | random
  deriving DecidableEq, Repr

/-- `enum hil_source_reconnect_policy`. -/
inductive ReconnectPolicy where
  | none
  | once
  deriving DecidableEq, Repr

/-- `enum hil_source_run_state`. -/
inductive RunState where
  | idle
  | configured
  | connecting
  | secured
  | discovered
  | qos
  | streaming
  | scoredComplete
  | teardown
  deriving DecidableEq, Repr

/-- `enum hil_source_verdict`. -/
inductive Verdict where
  | none
  | pass
  | fail
  deriving DecidableEq, Repr

/-- `enum hil_source_abort_cause`. -/
inductive AbortCause where
  | stop
  | timeout
  | error
  deriving DecidableEq, Repr

/-- The value of a run state: its place in the order of a segment. -/
def RunState.index : RunState → ℕ
  | idle => 0
  | configured => 1
  | connecting => 2
  | secured => 3
  | discovered => 4
  | qos => 5
  | streaming => 6
  | scoredComplete => 7
  | teardown => 8

theorem RunState.index_inj {a b : RunState} (h : a.index = b.index) : a = b := by
  cases a <;> cases b <;> first | rfl | cases h

theorem RunState.index_le (a : RunState) : a.index ≤ 8 := by
  cases a <;> decide

theorem RunState.index_eq_eight {a : RunState} : a.index = 8 ↔ a = .teardown :=
  ⟨fun h => index_inj h, fun h => h ▸ rfl⟩

/-- The numerals of the two streams. -/
scoped instance neZeroTwo : NeZero 2 := ⟨by decide⟩

/-- `hil_source_mode_stream_count`. -/
def Mode.streamCount : Mode → ℕ
  | mono | modeB => 1
  | modeA => 2

/-- The loops over the configured streams. -/
def Mode.allStreams (m : Mode) (p : Fin 2 → Bool) : Bool :=
  match m with
  | mono | modeB => p 0
  | modeA => p 0 && p 1

theorem Mode.allStreams_iff {m : Mode} {p : Fin 2 → Bool} :
    m.allStreams p = true ↔ ∀ i : Fin 2, i.val < m.streamCount → p i = true := by
  cases m with
  | mono =>
    refine ⟨fun h i hi => ?_, fun h => h 0 (by decide)⟩
    have h0 : i = 0 := Fin.ext (Nat.lt_one_iff.1 hi)
    rwa [h0]
  | modeB =>
    refine ⟨fun h i hi => ?_, fun h => h 0 (by decide)⟩
    have h0 : i = 0 := Fin.ext (Nat.lt_one_iff.1 hi)
    rwa [h0]
  | modeA =>
    rw [allStreams, Bool.and_eq_true]
    refine ⟨fun h i _ => ?_, fun h => ⟨h 0 (by decide), h 1 (by decide)⟩⟩
    match i with
    | 0 => exact h.1
    | 1 => exact h.2

/-! ### The state object -/

/-- `HIL_SOURCE_MAX_SCORED_SDUS`. -/
def maxScoredSdus : UInt32 := 20000

/-- `UINT32_MAX`. -/
def uint32Max : UInt32 := 0xffffffff

/-- `struct hil_source_config`. -/
structure Config where
  mode : Mode
  profile : Profile
  peerAddress : Fin 6 → UInt8
  peerAddressType : AddressType
  /-- Per segment and per stream. -/
  scoredSduCount : UInt32
  signalSeed : UInt32
  reconnectPolicy : ReconnectPolicy

/-- A configuration as it is passed in, with enumerations that may be out of range. -/
structure ConfigArg where
  mode : Option Mode
  profile : Option Profile
  peerAddress : Fin 6 → UInt8
  peerAddressType : Option AddressType
  scoredSduCount : UInt32
  signalSeed : UInt32
  reconnectPolicy : Option ReconnectPolicy

/-- `struct hil_source_stream_counter`. -/
structure StreamCounter where
  submittedSdus : UInt32
  submittedScoredSdus : UInt32
  sendFailures : UInt32
  sentCallbacks : UInt32

/-- `struct hil_source_state`. -/
structure State where
  config : Config
  hasConfig : Bool
  active : Bool
  stopRequested : Bool
  reconnectUsed : Bool
  aborted : Bool
  /-- Meaningful only when aborted. -/
  abortCause : AbortCause
  segment : UInt32
  currentState : RunState
  terminal : Verdict
  /-- The first negative errno; `0` is none. -/
  firstError : ℤ
  counters : Fin 2 → StreamCounter
  /-- Scored submissions before the segment. -/
  scoredBaseline : Fin 2 → UInt32

/-- Zeroed memory. -/
def State.zero : State :=
  { config := { mode := .mono, profile := .p48_3_1, peerAddress := fun _ => 0
                peerAddressType := .pub, scoredSduCount := 0, signalSeed := 0
                reconnectPolicy := .none }
    hasConfig := false, active := false, stopRequested := false, reconnectUsed := false
    aborted := false, abortCause := .stop, segment := 0, currentState := .idle, terminal := .none
    firstError := 0, counters := fun _ => ⟨0, 0, 0, 0⟩, scoredBaseline := fun _ => 0 }

/-! ### Operations -/

/-- The state object after an operation and its return value, `none` for `0`. -/
abbrev Outcome := State × Option Errno

/-- The checks of `hil_source_state_configure`, and the configuration they admit. -/
def ConfigArg.check (cfg : ConfigArg) : Option Config :=
  match cfg.mode, cfg.profile, cfg.peerAddressType, cfg.reconnectPolicy with
  | some mode, some profile, some peerAddressType, some reconnectPolicy =>
    if cfg.scoredSduCount < 1 ∨ cfg.scoredSduCount > maxScoredSdus then none
    else if cfg.signalSeed = 0 then none
    else some { mode := mode, profile := profile, peerAddress := cfg.peerAddress
                peerAddressType := peerAddressType, scoredSduCount := cfg.scoredSduCount
                signalSeed := cfg.signalSeed, reconnectPolicy := reconnectPolicy }
  | _, _, _, _ => none

namespace State

/-- The start of a run: everything but the configuration is cleared. -/
def started (s : State) : State :=
  { s with counters := fun _ => ⟨0, 0, 0, 0⟩, scoredBaseline := fun _ => 0, firstError := 0
           stopRequested := false, reconnectUsed := false, terminal := .none, aborted := false
           abortCause := .stop, segment := 0, currentState := .idle, active := true }

/-- The start of the next segment. -/
def reconnected (s : State) : State :=
  { s with
      scoredBaseline := fun i =>
        if i.val < s.config.mode.streamCount then (s.counters i).submittedScoredSdus
        else s.scoredBaseline i
      reconnectUsed := true, segment := s.segment + 1, currentState := .connecting }

/-- A counter of a stream changes. -/
def counted (s : State) (i : Fin 2) (c : StreamCounter) : State :=
  { s with counters := fun j => if j = i then c else s.counters j }

@[simp] theorem counted_self (s : State) (i : Fin 2) (c : StreamCounter) :
    (s.counted i c).counters i = c := if_pos rfl

theorem counted_of_ne (s : State) {i j : Fin 2} (h : j ≠ i) (c : StreamCounter) :
    (s.counted i c).counters j = s.counters j := if_neg h

/-- `hil_source_state_reset`. -/
def reset (_ : State) : Outcome := (zero, none)

/-- `hil_source_state_configure`. -/
def configure (s : State) (cfg : ConfigArg) : Outcome :=
  if s.active then (s, some .ebusy)
  else if s.terminal ≠ .none then (s, some .ebusy)
  else
    match cfg.check with
    | none => (s, some .einval)
    | some config => ({ s with config := config, hasConfig := true }, none)

/-- `hil_source_state_start`. -/
def start (s : State) : Outcome :=
  if !s.hasConfig then (s, some .einval)
  else if s.active then (s, some .ebusy)
  else (s.started, none)

/-- The scored target of the segment is met by a stream. -/
def segmentDone (s : State) (i : Fin 2) : Bool :=
  (s.counters i).submittedScoredSdus - s.scoredBaseline i = s.config.scoredSduCount

/-- `hil_source_state_advance`. -/
def advance (s : State) (next : Option RunState) : Outcome :=
  if !s.active then (s, some .einval)
  else
    match next with
    | none => (s, some .einval)
    | some next =>
      if next.index ≤ s.currentState.index then (s, some .einval)
      else if next.index ≠ s.currentState.index + 1 then (s, some .einval)
      else if next = .scoredComplete ∧ s.config.mode.allStreams s.segmentDone = false then
        (s, some .einval)
      else ({ s with currentState := next }, none)

/-- `hil_source_state_next_segment`. -/
def nextSegment (s : State) : Outcome :=
  if !s.active then (s, some .einval)
  else if s.currentState ≠ .teardown then (s, some .einval)
  else if s.aborted then (s, some .einval)
  else if s.config.reconnectPolicy ≠ .once then (s, some .einval)
  else if s.reconnectUsed then (s, some .einval)
  else (s.reconnected, none)

/-- `hil_source_state_stop_request`. -/
def stopRequest (s : State) : Outcome :=
  if !s.active then (s, some .einval) else ({ s with stopRequested := true }, none)

/-- `hil_state_prepare_counter`. -/
def prepareCounter (s : State) (stream : ℕ) : Option (Fin 2) :=
  if !s.active then none
  else if s.config.mode.streamCount = 0 ∨ stream ≥ s.config.mode.streamCount then none
  else some (.ofNat 2 stream)

/-- A counter operation: `full` is the overflow check, `count` the increment. -/
def counterOp (s : State) (stream : ℕ) (full : StreamCounter → Bool)
    (count : StreamCounter → StreamCounter) : Outcome :=
  match s.prepareCounter stream with
  | none => (s, some .einval)
  | some i =>
    if full (s.counters i) then (s, some .eoverflow)
    else (s.counted i (count (s.counters i)), none)

/-- `hil_source_state_counter_submit`. -/
def counterSubmit (s : State) (stream : ℕ) : Outcome :=
  s.counterOp stream (fun c => c.submittedSdus = uint32Max)
    fun c => { c with submittedSdus := c.submittedSdus + 1 }

/-- `hil_source_state_counter_submit_scored`. -/
def counterSubmitScored (s : State) (stream : ℕ) : Outcome :=
  s.counterOp stream (fun c => c.submittedSdus = uint32Max || c.submittedScoredSdus = uint32Max)
    fun c => { c with submittedSdus := c.submittedSdus + 1
                      submittedScoredSdus := c.submittedScoredSdus + 1 }

/-- `hil_source_state_counter_send_failure`. -/
def counterSendFailure (s : State) (stream : ℕ) : Outcome :=
  s.counterOp stream (fun c => c.sendFailures = uint32Max)
    fun c => { c with sendFailures := c.sendFailures + 1 }

/-- `hil_source_state_counter_sent_callback`. -/
def counterSentCallback (s : State) (stream : ℕ) : Outcome :=
  s.counterOp stream (fun c => c.sentCallbacks = uint32Max)
    fun c => { c with sentCallbacks := c.sentCallbacks + 1 }

/-- `hil_source_state_error_report`: the first error stays. -/
def errorReport (s : State) (err : ℤ) : Outcome :=
  if !s.active then (s, some .einval)
  else if err ≥ 0 then (s, some .einval)
  else if s.firstError ≠ 0 then (s, none)
  else ({ s with firstError := err }, none)

/-- What `hil_source_state_terminal` demands of a pass. -/
def passes (s : State) : Bool :=
  !s.aborted && s.firstError = 0 &&
    s.config.mode.allStreams (fun i => (s.counters i).sendFailures = 0) &&
    match s.config.reconnectPolicy with
    | .none =>
      s.config.mode.allStreams fun i =>
        (s.counters i).submittedScoredSdus = s.config.scoredSduCount
    | .once =>
      s.segment = 1 && s.config.mode.allStreams fun i =>
        (s.counters i).submittedScoredSdus = 2 * s.config.scoredSduCount

/-- `hil_source_state_terminal`. -/
def acceptTerminal (s : State) (verdict : Option Verdict) : Outcome :=
  if !s.active then (s, some .einval)
  else if s.currentState ≠ .teardown then (s, some .einval)
  else if s.terminal ≠ .none then (s, some .einval)
  else
    match verdict with
    | some .pass =>
      if s.passes then ({ s with terminal := .pass, active := false }, none)
      else (s, some .einval)
    | some .fail => ({ s with terminal := .fail, active := false }, none)
    | _ => (s, some .einval)

/-- `hil_source_state_abort_to_teardown`. -/
def abortToTeardown (s : State) (cause : Option AbortCause) : Outcome :=
  if !s.active then (s, some .einval)
  else
    match cause with
    | none => (s, some .einval)
    | some cause =>
      if s.currentState = .teardown then (s, some .einval)
      else if s.aborted then (s, some .einval)
      else ({ s with currentState := .teardown, aborted := true, abortCause := cause }, none)

end State

/-! ### Sequences of operations -/

/-- A call of an operation. -/
inductive Op where
  | reset
  | configure (cfg : ConfigArg)
  | start
  | advance (next : Option RunState)
  | nextSegment
  | stopRequest
  | counterSubmit (stream : ℕ)
  | counterSubmitScored (stream : ℕ)
  | counterSendFailure (stream : ℕ)
  | counterSentCallback (stream : ℕ)
  | errorReport (err : ℤ)
  | terminal (verdict : Option Verdict)
  | abortToTeardown (cause : Option AbortCause)

/-- The call made in a state. -/
def State.call (s : State) : Op → Outcome
  | .reset => s.reset
  | .configure cfg => s.configure cfg
  | .start => s.start
  | .advance next => s.advance next
  | .nextSegment => s.nextSegment
  | .stopRequest => s.stopRequest
  | .counterSubmit stream => s.counterSubmit stream
  | .counterSubmitScored stream => s.counterSubmitScored stream
  | .counterSendFailure stream => s.counterSendFailure stream
  | .counterSentCallback stream => s.counterSentCallback stream
  | .errorReport err => s.errorReport err
  | .terminal verdict => s.acceptTerminal verdict
  | .abortToTeardown cause => s.abortToTeardown cause

/-- What the accepted calls do. -/
inductive State.Accepts (s : State) : Op → State → Prop
  | reset : Accepts s .reset .zero
  | configure {cfg : ConfigArg} {config : Config} : s.active = false → s.terminal = .none →
      cfg.check = some config → Accepts s (.configure cfg) { s with config, hasConfig := true }
  | start : s.hasConfig = true → s.active = false → Accepts s .start s.started
  | advance {next : RunState} : s.active = true → next.index = s.currentState.index + 1 →
      (next = .scoredComplete → s.config.mode.allStreams s.segmentDone = true) →
      Accepts s (.advance (some next)) { s with currentState := next }
  | nextSegment : s.active = true → s.currentState = .teardown → s.aborted = false →
      s.config.reconnectPolicy = .once → s.reconnectUsed = false →
      Accepts s .nextSegment s.reconnected
  | stopRequest : s.active = true → Accepts s .stopRequest { s with stopRequested := true }
  | counterSubmit {i : Fin 2} : s.active = true → i.val < s.config.mode.streamCount →
      (s.counters i).submittedSdus ≠ uint32Max →
      Accepts s (.counterSubmit i) (s.counted i
        { s.counters i with submittedSdus := (s.counters i).submittedSdus + 1 })
  | counterSubmitScored {i : Fin 2} : s.active = true → i.val < s.config.mode.streamCount →
      (s.counters i).submittedSdus ≠ uint32Max →
      (s.counters i).submittedScoredSdus ≠ uint32Max →
      Accepts s (.counterSubmitScored i) (s.counted i
        { s.counters i with
            submittedSdus := (s.counters i).submittedSdus + 1
            submittedScoredSdus := (s.counters i).submittedScoredSdus + 1 })
  | counterSendFailure {i : Fin 2} : s.active = true → i.val < s.config.mode.streamCount →
      (s.counters i).sendFailures ≠ uint32Max →
      Accepts s (.counterSendFailure i) (s.counted i
        { s.counters i with sendFailures := (s.counters i).sendFailures + 1 })
  | counterSentCallback {i : Fin 2} : s.active = true → i.val < s.config.mode.streamCount →
      (s.counters i).sentCallbacks ≠ uint32Max →
      Accepts s (.counterSentCallback i) (s.counted i
        { s.counters i with sentCallbacks := (s.counters i).sentCallbacks + 1 })
  | laterError {err : ℤ} : s.active = true → err < 0 → s.firstError ≠ 0 →
      Accepts s (.errorReport err) s
  | firstError {err : ℤ} : s.active = true → err < 0 → s.firstError = 0 →
      Accepts s (.errorReport err) { s with firstError := err }
  | pass : s.active = true → s.currentState = .teardown → s.terminal = .none →
      s.passes = true →
      Accepts s (.terminal (some .pass)) { s with terminal := .pass, active := false }
  | fail : s.active = true → s.currentState = .teardown → s.terminal = .none →
      Accepts s (.terminal (some .fail)) { s with terminal := .fail, active := false }
  | abortToTeardown {cause : AbortCause} : s.active = true → s.currentState ≠ .teardown →
      s.aborted = false → Accepts s (.abortToTeardown (some cause))
        { s with currentState := .teardown, aborted := true, abortCause := cause }

namespace State

theorem prepareCounter_some {s : State} {stream : ℕ} {i : Fin 2}
    (h : s.prepareCounter stream = some i) :
    stream = i ∧ s.active = true ∧ i.val < s.config.mode.streamCount := by
  unfold prepareCounter at h
  split_ifs at h with hactive hstream
  have hi := Option.some.inj h
  have hlt : stream < s.config.mode.streamCount := not_le.1 fun hle => hstream (.inr hle)
  have htwo : stream < 2 := lt_of_lt_of_le hlt (by cases s.config.mode <;> decide)
  have hval : i.val = stream := hi ▸ Nat.mod_eq_of_lt htwo
  exact ⟨hval.symm, by simpa using hactive, hval ▸ hlt⟩

theorem counterOp_cases (s : State) (stream : ℕ) (full : StreamCounter → Bool)
    (count : StreamCounter → StreamCounter) :
    (∃ e, s.counterOp stream full count = (s, some e)) ∨
      ∃ i : Fin 2, stream = i ∧ s.active = true ∧ i.val < s.config.mode.streamCount ∧
        full (s.counters i) = false ∧
        s.counterOp stream full count = (s.counted i (count (s.counters i)), none) := by
  unfold counterOp
  cases hi : s.prepareCounter stream with
  | none => exact .inl ⟨_, rfl⟩
  | some i =>
    obtain ⟨hstream, hactive, hlt⟩ := prepareCounter_some hi
    dsimp only
    cases hfull : full (s.counters i) with
    | true => exact .inl ⟨_, rfl⟩
    | false => exact .inr ⟨i, hstream, hactive, hlt, hfull, rfl⟩

theorem active_of_not {s : State} (h : ¬(!s.active) = true) : s.active = true := by
  simpa using h

/-- A call is rejected and changes nothing, or it is accepted. -/
theorem call_cases (s : State) (op : Op) :
    (∃ e, s.call op = (s, some e)) ∨ ∃ s', s.call op = (s', none) ∧ s.Accepts op s' := by
  -- the checks of an operation in their order; behind the last one it is accepted
  cases op with
  | reset => exact .inr ⟨_, rfl, .reset⟩
  | configure cfg =>
    simp only [call]
    unfold configure
    split_ifs with hactive hterminal
    · exact .inl ⟨_, rfl⟩
    · exact .inl ⟨_, rfl⟩
    · cases hcheck : cfg.check with
      | none => exact .inl ⟨_, rfl⟩
      | some config =>
        exact .inr ⟨_, rfl, .configure (Bool.eq_false_iff.2 hactive) (not_not.1 hterminal) hcheck⟩
  | start =>
    simp only [call]
    unfold start
    split_ifs with hconfig hactive
    · exact .inl ⟨_, rfl⟩
    · exact .inl ⟨_, rfl⟩
    · exact .inr ⟨_, rfl, .start (by simpa using hconfig) (Bool.eq_false_iff.2 hactive)⟩
  | advance next =>
    simp only [call]
    unfold advance
    cases next with
    | none => split_ifs <;> exact .inl ⟨_, rfl⟩
    | some next =>
      dsimp only
      split_ifs with hactive hle hne hdone
      · exact .inl ⟨_, rfl⟩
      · exact .inl ⟨_, rfl⟩
      · exact .inl ⟨_, rfl⟩
      · exact .inl ⟨_, rfl⟩
      · refine .inr ⟨_, rfl, .advance (active_of_not hactive) (not_not.1 hne) fun h => ?_⟩
        exact eq_true_of_ne_false fun hfalse => hdone ⟨h, hfalse⟩
  | nextSegment =>
    simp only [call]
    unfold nextSegment
    split_ifs with hactive hstate habort hpolicy hused
    · exact .inl ⟨_, rfl⟩
    · exact .inl ⟨_, rfl⟩
    · exact .inl ⟨_, rfl⟩
    · exact .inl ⟨_, rfl⟩
    · exact .inl ⟨_, rfl⟩
    · exact .inr ⟨_, rfl, .nextSegment (active_of_not hactive) (not_not.1 hstate)
        (Bool.eq_false_iff.2 habort) (not_not.1 hpolicy) (Bool.eq_false_iff.2 hused)⟩
  | stopRequest =>
    simp only [call]
    unfold stopRequest
    split_ifs with hactive
    · exact .inl ⟨_, rfl⟩
    · exact .inr ⟨_, rfl, .stopRequest (active_of_not hactive)⟩
  | counterSubmit stream =>
    simp only [call]
    unfold counterSubmit
    rcases s.counterOp_cases stream _ _ with ⟨e, he⟩ | ⟨i, rfl, hactive, hi, hfull, heq⟩
    · exact .inl ⟨e, he⟩
    · exact .inr ⟨_, heq, .counterSubmit hactive hi (of_decide_eq_false hfull)⟩
  | counterSubmitScored stream =>
    simp only [call]
    unfold counterSubmitScored
    rcases s.counterOp_cases stream _ _ with ⟨e, he⟩ | ⟨i, rfl, hactive, hi, hfull, heq⟩
    · exact .inl ⟨e, he⟩
    · obtain ⟨h₁, h₂⟩ := Bool.or_eq_false_iff.1 hfull
      exact .inr ⟨_, heq, .counterSubmitScored hactive hi (of_decide_eq_false h₁)
        (of_decide_eq_false h₂)⟩
  | counterSendFailure stream =>
    simp only [call]
    unfold counterSendFailure
    rcases s.counterOp_cases stream _ _ with ⟨e, he⟩ | ⟨i, rfl, hactive, hi, hfull, heq⟩
    · exact .inl ⟨e, he⟩
    · exact .inr ⟨_, heq, .counterSendFailure hactive hi (of_decide_eq_false hfull)⟩
  | counterSentCallback stream =>
    simp only [call]
    unfold counterSentCallback
    rcases s.counterOp_cases stream _ _ with ⟨e, he⟩ | ⟨i, rfl, hactive, hi, hfull, heq⟩
    · exact .inl ⟨e, he⟩
    · exact .inr ⟨_, heq, .counterSentCallback hactive hi (of_decide_eq_false hfull)⟩
  | errorReport err =>
    simp only [call]
    unfold errorReport
    split_ifs with hactive hpos hfirst
    · exact .inl ⟨_, rfl⟩
    · exact .inl ⟨_, rfl⟩
    · exact .inr ⟨_, rfl, .laterError (active_of_not hactive) (not_le.1 hpos) hfirst⟩
    · exact .inr ⟨_, rfl, .firstError (active_of_not hactive) (not_le.1 hpos) (not_not.1 hfirst)⟩
  | terminal verdict =>
    simp only [call]
    unfold acceptTerminal
    -- without a verdict, or with NONE, no state accepts it
    match verdict with
    | none => split_ifs <;> exact .inl ⟨_, rfl⟩
    | some .none => split_ifs <;> exact .inl ⟨_, rfl⟩
    | some .fail =>
      dsimp only
      split_ifs with hactive hstate hterminal
      · exact .inl ⟨_, rfl⟩
      · exact .inl ⟨_, rfl⟩
      · exact .inl ⟨_, rfl⟩
      · exact .inr ⟨_, rfl, .fail (active_of_not hactive) (not_not.1 hstate) (not_not.1 hterminal)⟩
    | some .pass =>
      dsimp only
      split_ifs with hactive hstate hterminal hpass
      · exact .inl ⟨_, rfl⟩
      · exact .inl ⟨_, rfl⟩
      · exact .inl ⟨_, rfl⟩
      · exact .inr ⟨_, rfl, .pass (active_of_not hactive) (not_not.1 hstate)
          (not_not.1 hterminal) hpass⟩
      · exact .inl ⟨_, rfl⟩
  | abortToTeardown cause =>
    simp only [call]
    unfold abortToTeardown
    cases cause with
    | none => split_ifs <;> exact .inl ⟨_, rfl⟩
    | some cause =>
      dsimp only
      split_ifs with hactive hstate habort
      · exact .inl ⟨_, rfl⟩
      · exact .inl ⟨_, rfl⟩
      · exact .inl ⟨_, rfl⟩
      · exact .inr ⟨_, rfl, .abortToTeardown (active_of_not hactive) hstate
          (Bool.eq_false_iff.2 habort)⟩

theorem call_rejected {s : State} {op : Op} (h : (s.call op).2 ≠ none) : (s.call op).1 = s := by
  rcases s.call_cases op with ⟨e, he⟩ | ⟨s', hs', -⟩
  · rw [he]
  · exact absurd (congrArg Prod.snd hs') h

theorem call_accepted {s : State} {op : Op} (h : (s.call op).2 = none) :
    s.Accepts op (s.call op).1 := by
  rcases s.call_cases op with ⟨e, he⟩ | ⟨s', hs', hacc⟩
  · rw [he] at h
    cases h
  · exact hs' ▸ hacc

end State

end Hil

end LeAudioReceiver
