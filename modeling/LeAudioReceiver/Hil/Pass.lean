import LeAudioReceiver.Hil.State

/-!
# What a PASS of a HIL run says

Any sequence of operations on the run state of `Hil.State`, beside the record of the calls accepted
since the last accepted start.  The verdict is decided from the counters of the whole run and one
baseline for each stream; the record says what those numbers stand for.

* `Segment` : how far a segment has come, and that its scored target was met when it was left;
* `Running` : the invariant of an active run, with `Running.accepts` for one accepted call;
* `pass_sound` : **a PASS stands for complete segments with exact scored counts**.
-/

namespace LeAudioReceiver

namespace Hil

/-! ### The record of a run -/

/-- The state object beside the calls accepted since the last accepted start. -/
structure History where
  state : State
  log : List Op

/-- A call of an operation. -/
def History.call (h : History) (op : Op) : History :=
  let r := h.state.call op
  { state := r.1
    log := if r.2 ≠ none then h.log else match op with
      | .start => []
      | op => h.log ++ [op] }

/-- A sequence of calls from zeroed memory on. -/
def History.run (ops : List Op) : History := ops.foldl History.call ⟨.zero, []⟩

namespace Op

/-- A scored submission of a stream. -/
def scoredOn (i : Fin 2) : Op → Bool
  | counterSubmitScored stream => stream == i.val
  | _ => false

/-- The state that a call advances to. -/
def entered : Op → Option RunState
  | advance next => next
  | _ => none

/-- A call that rules a PASS out: an abort, an error or a failed send. -/
def spoils : Op → Bool
  | abortToTeardown _ | errorReport _ | counterSendFailure _ => true
  | _ => false

end Op

/-! ### What a PASS stands for -/

/-- A segment that went through the states `states`, with the scored target of every configured
stream met exactly, and before the target was declared met. -/
structure SegmentPassed (c : Config) (states : List RunState) (seg : List Op) : Prop where
  states : seg.filterMap Op.entered = states
  scored : ∃ pre post, seg = pre ++ .advance (some .scoredComplete) :: post ∧
    ∀ i : Fin 2, i.val < c.mode.streamCount →
      pre.countP (Op.scoredOn i) = c.scoredSduCount.toNat ∧ post.countP (Op.scoredOn i) = 0

/-- The states of the first segment after `idle`. -/
def firstStates : List RunState :=
  [.configured, .connecting, .secured, .discovered, .qos, .streaming, .scoredComplete, .teardown]

/-- The states of the second segment after `connecting`. -/
def secondStates : List RunState :=
  [.secured, .discovered, .qos, .streaming, .scoredComplete, .teardown]

/-- What a PASS stands for. -/
structure Passed (c : Config) (log : List Op) : Prop where
  clean : ∀ op ∈ log, op.spoils = false
  segments : match c.reconnectPolicy with
    | .none => SegmentPassed c firstStates log
    | .once => ∃ first second, log = first ++ .nextSegment :: second ∧
        SegmentPassed c firstStates first ∧ SegmentPassed c secondStates second

/-! ### Segments in progress -/

/-- A segment that began at `a` and has come to `b`. -/
structure Segment (c : Config) (a b : RunState) (seg : List Op) : Prop where
  le : a.index ≤ b.index
  states : (seg.filterMap Op.entered).map RunState.index =
    List.range' (a.index + 1) (b.index - a.index)
  scored : a.index < 7 → 7 ≤ b.index →
    ∃ pre post, seg = pre ++ .advance (some .scoredComplete) :: post ∧
      ∀ i : Fin 2, i.val < c.mode.streamCount →
        pre.countP (Op.scoredOn i) = c.scoredSduCount.toNat

namespace Segment

variable {c : Config} {a b : RunState} {seg : List Op}

theorem nil (c : Config) (a : RunState) : Segment c a a [] where
  le := le_rfl
  states := by simp
  scored h h' := absurd h (not_lt.2 h')

theorem stay (h : Segment c a b seg) {op : Op} (hop : op.entered = none) :
    Segment c a b (seg ++ [op]) where
  le := h.le
  states := by
    have hnone : [op].filterMap Op.entered = [] := by simp [hop]
    rw [List.filterMap_append, hnone, List.append_nil, h.states]
  scored ha hb := by
    obtain ⟨pre, post, rfl, hpre⟩ := h.scored ha hb
    exact ⟨pre, post ++ [op], by simp, hpre⟩

/-- A call that advances. -/
theorem advance (h : Segment c a b seg) {next : RunState} (hnext : next.index = b.index + 1)
    (hscored : next = .scoredComplete → ∀ i : Fin 2, i.val < c.mode.streamCount →
      seg.countP (Op.scoredOn i) = c.scoredSduCount.toNat) :
    Segment c a next (seg ++ [.advance (some next)]) where
  le := by have := h.le; omega
  states := by
    have hle := h.le
    have hlen : next.index - a.index = (b.index - a.index) + 1 := by omega
    have hlast : a.index + 1 + 1 * (b.index - a.index) = next.index := by omega
    have hone : [Op.advance (some next)].filterMap Op.entered = [next] := rfl
    rw [List.filterMap_append, hone, List.map_append, h.states, hlen, List.range'_concat, hlast]
    rfl
  scored ha hb := by
    by_cases hbefore : 7 ≤ b.index
    · obtain ⟨pre, post, rfl, hpre⟩ := h.scored ha hbefore
      exact ⟨pre, post ++ [.advance (some next)], by simp, hpre⟩
    · have hcomplete : next = .scoredComplete := RunState.index_inj (by
        change next.index = 7
        omega)
      exact ⟨seg, [], by rw [hcomplete], hscored hcomplete⟩

theorem states_eq (h : Segment c a .teardown seg) {states : List RunState}
    (hstates : states.map RunState.index = List.range' (a.index + 1) (8 - a.index)) :
    seg.filterMap Op.entered = states := by
  have hinj : Function.Injective RunState.index := fun _ _ => RunState.index_inj
  exact List.map_injective_iff.2 hinj (h.states.trans hstates.symm)

theorem passed (h : Segment c a .teardown seg) {states : List RunState}
    (hstates : states.map RunState.index = List.range' (a.index + 1) (8 - a.index))
    (ha : a.index < 7)
    (hcount : ∀ i : Fin 2, i.val < c.mode.streamCount →
      seg.countP (Op.scoredOn i) ≤ c.scoredSduCount.toNat) :
    SegmentPassed c states seg where
  states := h.states_eq hstates
  scored := by
    obtain ⟨pre, post, hseg, hpre⟩ := h.scored ha (by decide)
    refine ⟨pre, post, hseg, fun i hi => ⟨hpre i hi, ?_⟩⟩
    have hle := hcount i hi
    rw [hseg, List.countP_append, List.countP_cons, hpre i hi] at hle
    omega

/-- A segment at its end holds at least its target. -/
theorem le_count (h : Segment c a .teardown seg) (ha : a.index < 7) {i : Fin 2}
    (hi : i.val < c.mode.streamCount) :
    c.scoredSduCount.toNat ≤ seg.countP (Op.scoredOn i) := by
  obtain ⟨pre, post, hseg, hpre⟩ := h.scored ha (by decide)
  rw [hseg, List.countP_append, hpre i hi]
  exact Nat.le_add_right _ _

end Segment

/-! ### Runs in progress -/

/-- Where a run that was not aborted stands: in its first segment, or in the second one behind a
complete first one. -/
structure Shape (s : State) (log before seg : List Op) (a : RunState) : Prop where
  split : log = before ++ seg
  baseline : ∀ i : Fin 2, i.val < s.config.mode.streamCount →
    (s.scoredBaseline i).toNat = before.countP (Op.scoredOn i)
  segment : Segment s.config a s.currentState seg
  first : s.reconnectUsed = false → s.segment = 0 ∧ before = [] ∧ a = .idle
  second : s.reconnectUsed = true → s.segment = 1 ∧ a = .connecting ∧
    s.config.reconnectPolicy = .once ∧
    ∃ seg₀, before = seg₀ ++ [.nextSegment] ∧ Segment s.config .idle .teardown seg₀

/-- The invariant of an active run. -/
structure Running (s : State) (log : List Op) : Prop where
  hasConfig : s.hasConfig = true
  bounded : s.config.scoredSduCount ≤ maxScoredSdus
  terminal : s.terminal = .none
  scored : ∀ i, (s.counters i).submittedScoredSdus.toNat = log.countP (Op.scoredOn i)
  failures : (∀ i : Fin 2, i.val < s.config.mode.streamCount → (s.counters i).sendFailures = 0) →
    ∀ stream, .counterSendFailure stream ∉ log
  errors : s.firstError = 0 → ∀ err, .errorReport err ∉ log
  aborts : s.aborted = false → ∀ cause, .abortToTeardown cause ∉ log
  shape : s.aborted = false → ∃ before seg a, Shape s log before seg a

/-- The invariant: of the run while it is active, and of what is stored. -/
structure History.Inv (h : History) : Prop where
  config : h.state.hasConfig = true → h.state.config.scoredSduCount ≤ maxScoredSdus
  ended : h.state.terminal ≠ .none → h.state.active = false
  running : h.state.active = true → Running h.state h.log

/-- What the shape of a run depends on. -/
structure SamePlace (s s' : State) : Prop where
  config : s'.config = s.config
  scoredBaseline : s'.scoredBaseline = s.scoredBaseline
  currentState : s'.currentState = s.currentState
  segment : s'.segment = s.segment
  reconnectUsed : s'.reconnectUsed = s.reconnectUsed

namespace Shape

variable {s s' : State} {log before seg : List Op} {a : RunState}

theorem stay (h : Shape s log before seg a) (hsame : SamePlace s s') {op : Op}
    (hop : op.entered = none) : Shape s' (log ++ [op]) before (seg ++ [op]) a where
  split := by rw [h.split, List.append_assoc]
  baseline i hi := by
    rw [hsame.config] at hi
    rw [hsame.scoredBaseline, h.baseline i hi]
  segment := by
    rw [hsame.config, hsame.currentState]
    exact h.segment.stay hop
  first hused := by
    rw [hsame.reconnectUsed] at hused
    rw [hsame.segment]
    exact h.first hused
  second hused := by
    rw [hsame.reconnectUsed] at hused
    rw [hsame.segment, hsame.config]
    exact h.second hused

theorem segment_count (h : Shape s log before seg a)
    (hscored : ∀ i, (s.counters i).submittedScoredSdus.toNat = log.countP (Op.scoredOn i))
    {i : Fin 2} (hi : i.val < s.config.mode.streamCount) (hdone : s.segmentDone i = true) :
    seg.countP (Op.scoredOn i) = s.config.scoredSduCount.toNat := by
  have hsub : (s.counters i).submittedScoredSdus - s.scoredBaseline i = s.config.scoredSduCount :=
    of_decide_eq_true hdone
  have htotal := hscored i
  rw [h.split, List.countP_append, ← h.baseline i hi] at htotal
  have hle : s.scoredBaseline i ≤ (s.counters i).submittedScoredSdus := by
    rw [UInt32.le_iff_toNat_le]
    omega
  have hnat := congrArg UInt32.toNat hsub
  rw [UInt32.toNat_sub_of_le _ _ hle] at hnat
  omega

/-- A call that advances within the segment. -/
theorem advance (h : Shape s log before seg a)
    (hscored : ∀ i, (s.counters i).submittedScoredSdus.toNat = log.countP (Op.scoredOn i))
    {next : RunState} (hnext : next.index = s.currentState.index + 1)
    (hdone : next = .scoredComplete → s.config.mode.allStreams s.segmentDone = true) :
    Shape { s with currentState := next } (log ++ [.advance (some next)]) before
      (seg ++ [.advance (some next)]) a where
  split := by rw [h.split, List.append_assoc]
  baseline := h.baseline
  segment := h.segment.advance hnext fun hcomplete i hi =>
    h.segment_count hscored hi (Mode.allStreams_iff.1 (hdone hcomplete) i hi)
  first := h.first
  second := h.second

/-- The second segment begins behind a complete first one. -/
theorem reconnect (h : Shape s log before seg a)
    (hscored : ∀ i, (s.counters i).submittedScoredSdus.toNat = log.countP (Op.scoredOn i))
    (hstate : s.currentState = .teardown) (hpolicy : s.config.reconnectPolicy = .once)
    (hused : s.reconnectUsed = false) :
    Shape s.reconnected (log ++ [.nextSegment]) (log ++ [.nextSegment]) [] .connecting := by
  obtain ⟨hsegment, rfl, rfl⟩ := h.first hused
  refine ⟨by rw [List.append_nil], fun i hi => ?_, .nil _ _, fun h' => absurd h' (by
    simp [State.reconnected]), fun _ => ⟨?_, rfl, hpolicy, log, rfl, ?_⟩⟩
  · have hbase : s.reconnected.scoredBaseline i = (s.counters i).submittedScoredSdus := if_pos hi
    rw [hbase, hscored i, List.countP_append]
    rfl
  · change s.segment + 1 = 1
    rw [hsegment]
    rfl
  · have hseg := h.segment
    rw [hstate] at hseg
    rw [h.split, List.nil_append]
    exact hseg

end Shape

namespace Running

variable {s s' : State} {log : List Op} {op : Op}

theorem append (h : Running s log) (hconfig : s'.config = s.config)
    (hhas : s'.hasConfig = s.hasConfig) (hterminal : s'.terminal = s.terminal)
    (hscored : ∀ i, (s'.counters i).submittedScoredSdus.toNat =
      (s.counters i).submittedScoredSdus.toNat + [op].countP (Op.scoredOn i))
    (hfailures : (∀ i : Fin 2, i.val < s.config.mode.streamCount →
        (s'.counters i).sendFailures = 0) →
      (∀ i : Fin 2, i.val < s.config.mode.streamCount → (s.counters i).sendFailures = 0) ∧
        ∀ stream, .counterSendFailure stream ≠ op)
    (herrors : s'.firstError = 0 → s.firstError = 0 ∧ ∀ err, .errorReport err ≠ op)
    (haborts : s'.aborted = false → s.aborted = false ∧ ∀ cause, .abortToTeardown cause ≠ op)
    (hshape : s'.aborted = false → ∃ before seg a, Shape s' (log ++ [op]) before seg a) :
    Running s' (log ++ [op]) where
  hasConfig := hhas.trans h.hasConfig
  bounded := hconfig ▸ h.bounded
  terminal := hterminal.trans h.terminal
  scored i := by rw [hscored i, h.scored i, List.countP_append]
  failures hzero stream hmem := by
    rw [hconfig] at hzero
    obtain ⟨hold, hop⟩ := hfailures hzero
    rcases List.mem_append.1 hmem with hmem | hmem
    · exact h.failures hold stream hmem
    · exact hop stream (List.mem_singleton.1 hmem)
  errors hzero err hmem := by
    obtain ⟨hold, hop⟩ := herrors hzero
    rcases List.mem_append.1 hmem with hmem | hmem
    · exact h.errors hold err hmem
    · exact hop err (List.mem_singleton.1 hmem)
  aborts hfalse cause hmem := by
    obtain ⟨hold, hop⟩ := haborts hfalse
    rcases List.mem_append.1 hmem with hmem | hmem
    · exact h.aborts hold cause hmem
    · exact hop cause (List.mem_singleton.1 hmem)
  shape := hshape

theorem stay (h : Running s log) (hsame : SamePlace s s') (hop : op.entered = none)
    (hhas : s'.hasConfig = s.hasConfig) (hterminal : s'.terminal = s.terminal)
    (haborted : s'.aborted = s.aborted) (hnoabort : ∀ cause, .abortToTeardown cause ≠ op)
    (hscored : ∀ i, (s'.counters i).submittedScoredSdus.toNat =
      (s.counters i).submittedScoredSdus.toNat + [op].countP (Op.scoredOn i))
    (hfailures : (∀ i : Fin 2, i.val < s.config.mode.streamCount →
        (s'.counters i).sendFailures = 0) →
      (∀ i : Fin 2, i.val < s.config.mode.streamCount → (s.counters i).sendFailures = 0) ∧
        ∀ stream, .counterSendFailure stream ≠ op)
    (herrors : s'.firstError = 0 → s.firstError = 0 ∧ ∀ err, .errorReport err ≠ op) :
    Running s' (log ++ [op]) := by
  refine h.append hsame.config hhas hterminal hscored hfailures herrors
    (fun hf => ⟨haborted ▸ hf, hnoabort⟩) fun hf => ?_
  obtain ⟨before, seg, a, hshape⟩ := h.shape (haborted ▸ hf)
  exact ⟨before, seg ++ [op], a, hshape.stay hsame hop⟩

theorem started (hhas : s.hasConfig = true) (hbounded : s.config.scoredSduCount ≤ maxScoredSdus) :
    Running s.started [] where
  hasConfig := hhas
  bounded := hbounded
  terminal := rfl
  scored _ := rfl
  failures _ _ hmem := absurd hmem List.not_mem_nil
  errors _ _ hmem := absurd hmem List.not_mem_nil
  aborts _ _ hmem := absurd hmem List.not_mem_nil
  shape _ := ⟨[], [], .idle, rfl, fun _ _ => rfl, .nil _ _, fun _ => ⟨rfl, rfl, rfl⟩,
    fun h => absurd h (by simp [State.started])⟩

/-! ### One accepted call -/

theorem counted_scored {i : Fin 2} {c : StreamCounter}
    (hc : c.submittedScoredSdus = (s.counters i).submittedScoredSdus) (j : Fin 2) :
    ((s.counted i c).counters j).submittedScoredSdus = (s.counters j).submittedScoredSdus := by
  by_cases hj : j = i
  · rw [hj, State.counted_self, hc]
  · rw [State.counted_of_ne s hj]

theorem counted_failures {i : Fin 2} {c : StreamCounter}
    (hc : c.sendFailures = (s.counters i).sendFailures) (j : Fin 2) :
    ((s.counted i c).counters j).sendFailures = (s.counters j).sendFailures := by
  by_cases hj : j = i
  · rw [hj, State.counted_self, hc]
  · rw [State.counted_of_ne s hj]

theorem counted (h : Running s log) {i : Fin 2} {c : StreamCounter}
    (hscored : c.submittedScoredSdus = (s.counters i).submittedScoredSdus)
    (hfailures : c.sendFailures = (s.counters i).sendFailures) (hop : op.entered = none)
    (hplain : ∀ j, op.scoredOn j = false) (hspoils : op.spoils = false) :
    Running (s.counted i c) (log ++ [op]) := by
  refine h.stay ⟨rfl, rfl, rfl, rfl, rfl⟩ hop rfl rfl rfl ?_ (fun j => ?_) (fun hzero => ?_)
    fun hzero => ⟨hzero, ?_⟩
  · rintro cause rfl
    cases hspoils
  · rw [counted_scored hscored, List.countP_singleton, hplain j]
    rfl
  · refine ⟨fun j hj => counted_failures hfailures j ▸ hzero j hj, ?_⟩
    rintro stream rfl
    cases hspoils
  · rintro err rfl
    cases hspoils

theorem countedScored (h : Running s log) {i : Fin 2} {n : UInt32}
    (hfull : (s.counters i).submittedScoredSdus ≠ uint32Max) :
    Running (s.counted i { s.counters i with
      submittedSdus := n, submittedScoredSdus := (s.counters i).submittedScoredSdus + 1 })
      (log ++ [.counterSubmitScored i]) := by
  refine h.stay ⟨rfl, rfl, rfl, rfl, rfl⟩ rfl rfl rfl rfl (fun _ => by simp) (fun j => ?_)
    (fun hzero => ⟨fun j hj => ?_, fun _ => by simp⟩) fun hzero => ⟨hzero, fun _ => by simp⟩
  · have hlt : (s.counters i).submittedScoredSdus.toNat + 1 < 2 ^ 32 := by
      have hbound := (s.counters i).submittedScoredSdus.toNat_lt
      have hne : (s.counters i).submittedScoredSdus.toNat ≠ 0xffffffff := fun heq =>
        hfull (UInt32.toNat.inj heq)
      omega
    by_cases hj : j = i
    · have hone : [Op.counterSubmitScored i].countP (Op.scoredOn j) = 1 := by
        simp [Op.scoredOn, hj]
      rw [hone, hj, State.counted_self]
      rw [UInt32.toNat_add, UInt32.toNat_one, Nat.mod_eq_of_lt hlt]
    · have hzero : [Op.counterSubmitScored i].countP (Op.scoredOn j) = 0 := by
        have hne : i.val ≠ j.val := fun heq => hj (Fin.ext heq.symm)
        simp [Op.scoredOn, hne]
      rw [State.counted_of_ne s hj, hzero, Nat.add_zero]
  · exact (counted_failures (by rfl) j).symm.trans (hzero j hj)

theorem countedFailure (h : Running s log) {i : Fin 2} (hi : i.val < s.config.mode.streamCount)
    (hfull : (s.counters i).sendFailures ≠ uint32Max) :
    Running (s.counted i
      { s.counters i with sendFailures := (s.counters i).sendFailures + 1 })
      (log ++ [.counterSendFailure i]) := by
  refine h.stay ⟨rfl, rfl, rfl, rfl, rfl⟩ rfl rfl rfl rfl (fun _ => by simp) (fun j => ?_)
    (fun hzero => ?_) fun hzero => ⟨hzero, fun _ => by simp⟩
  · exact congrArg UInt32.toNat (counted_scored (by rfl) j)
  · have hone := hzero i hi
    rw [State.counted_self] at hone
    have hnat := congrArg UInt32.toNat hone
    have hbound := (s.counters i).sendFailures.toNat_lt
    have hne : (s.counters i).sendFailures.toNat ≠ 0xffffffff := fun heq =>
      hfull (UInt32.toNat.inj heq)
    rw [UInt32.toNat_add, UInt32.toNat_one, Nat.mod_eq_of_lt (by omega)] at hnat
    cases hnat

/-- Every accepted call keeps an active run going, or ends it. -/
theorem accepts (h : Running s log) (hactive : s.active = true) (hacc : s.Accepts op s')
    (hactive' : s'.active = true) : Running s' (log ++ [op]) := by
  cases hacc with
  | reset => cases hactive'
  | configure hidle => exact absurd (hactive.symm.trans hidle) (by decide)
  | start _ hidle => exact absurd (hactive.symm.trans hidle) (by decide)
  | advance _ hnext hdone =>
    refine h.append rfl rfl rfl (fun _ => rfl) (fun hzero => ⟨hzero, by simp⟩)
      (fun hzero => ⟨hzero, by simp⟩) (fun hf => ⟨hf, by simp⟩) fun hf => ?_
    obtain ⟨before, seg, a, hshape⟩ := h.shape hf
    exact ⟨before, _, a, hshape.advance h.scored hnext hdone⟩
  | nextSegment _ hstate _ hpolicy hused =>
    refine h.append rfl rfl rfl (fun _ => rfl) (fun hzero => ⟨hzero, by simp⟩)
      (fun hzero => ⟨hzero, by simp⟩) (fun hf => ⟨hf, by simp⟩) fun hf => ?_
    obtain ⟨before, seg, a, hshape⟩ := h.shape hf
    exact ⟨_, _, _, hshape.reconnect h.scored hstate hpolicy hused⟩
  | stopRequest =>
    exact h.stay ⟨rfl, rfl, rfl, rfl, rfl⟩ rfl rfl rfl rfl (by simp) (fun _ => rfl)
      (fun hzero => ⟨hzero, by simp⟩) fun hzero => ⟨hzero, by simp⟩
  | counterSubmit => exact h.counted rfl rfl rfl (fun _ => rfl) rfl
  | counterSubmitScored _ _ _ hfull => exact h.countedScored hfull
  | counterSendFailure _ hi hfull => exact h.countedFailure hi hfull
  | counterSentCallback => exact h.counted rfl rfl rfl (fun _ => rfl) rfl
  | laterError _ _ hfirst =>
    exact h.stay ⟨rfl, rfl, rfl, rfl, rfl⟩ rfl rfl rfl rfl (by simp) (fun _ => rfl)
      (fun hzero => ⟨hzero, by simp⟩) fun hzero => absurd hzero hfirst
  | firstError _ hneg =>
    exact h.stay ⟨rfl, rfl, rfl, rfl, rfl⟩ rfl rfl rfl rfl (by simp) (fun _ => rfl)
      (fun hzero => ⟨hzero, by simp⟩) fun hzero => absurd hzero hneg.ne
  | pass => cases hactive'
  | fail => cases hactive'
  | abortToTeardown =>
    exact h.append rfl rfl rfl (fun _ => rfl) (fun hzero => ⟨hzero, by simp⟩)
      (fun hzero => ⟨hzero, by simp⟩) (fun hf => absurd hf (by simp)) fun hf =>
      absurd hf (by simp)

/-- What `hil_source_state_terminal` checks of a PASS. -/
theorem passes_iff : s.passes = true ↔ s.aborted = false ∧ s.firstError = 0 ∧
    (∀ i : Fin 2, i.val < s.config.mode.streamCount → (s.counters i).sendFailures = 0) ∧
    match s.config.reconnectPolicy with
    | .none => ∀ i : Fin 2, i.val < s.config.mode.streamCount →
        (s.counters i).submittedScoredSdus = s.config.scoredSduCount
    | .once => s.segment = 1 ∧ ∀ i : Fin 2, i.val < s.config.mode.streamCount →
        (s.counters i).submittedScoredSdus = 2 * s.config.scoredSduCount := by
  unfold State.passes
  cases s.config.reconnectPolicy with
  | none => simp [Mode.allStreams_iff, and_assoc]
  | once => simp [Mode.allStreams_iff, and_assoc]

theorem clean (h : Running s log) (hpass : s.passes = true) : ∀ op ∈ log, op.spoils = false := by
  obtain ⟨haborted, herror, hfailures, -⟩ := passes_iff.1 hpass
  intro op hmem
  cases op with
  | abortToTeardown cause => exact absurd hmem (h.aborts haborted cause)
  | errorReport err => exact absurd hmem (h.errors herror err)
  | counterSendFailure stream => exact absurd hmem (h.failures hfailures stream)
  | _ => rfl

/-- A PASS is accepted of a run with complete segments only. -/
theorem passed (h : Running s log) (hstate : s.currentState = .teardown)
    (hpass : s.passes = true) : Passed s.config log := by
  refine ⟨h.clean hpass, ?_⟩
  obtain ⟨haborted, -, -, hcounts⟩ := passes_iff.1 hpass
  obtain ⟨before, seg, a, hshape⟩ := h.shape haborted
  have hseg := hshape.segment
  rw [hstate] at hseg
  cases hpolicy : s.config.reconnectPolicy with
  | none =>
    rw [hpolicy] at hcounts
    have hfirst : s.reconnectUsed = false := by
      refine Bool.eq_false_iff.2 fun hused => ?_
      exact absurd (hpolicy.symm.trans (hshape.second hused).2.2.1) (by decide)
    obtain ⟨-, rfl, rfl⟩ := hshape.first hfirst
    rw [hshape.split, List.nil_append]
    refine hseg.passed rfl (by decide) fun i hi => ?_
    have htotal := h.scored i
    rw [hshape.split, List.nil_append, hcounts i hi] at htotal
    exact htotal.ge
  | once =>
    rw [hpolicy] at hcounts
    obtain ⟨hsecond, hcounts⟩ := hcounts
    have hused : s.reconnectUsed = true := by
      refine eq_true_of_ne_false fun hused => ?_
      exact absurd ((hshape.first hused).1.symm.trans hsecond) (by decide)
    obtain ⟨-, rfl, -, seg₀, rfl, hseg₀⟩ := hshape.second hused
    -- two targets are met, and nothing is left over
    have htotal : ∀ i : Fin 2, i.val < s.config.mode.streamCount →
        seg₀.countP (Op.scoredOn i) + seg.countP (Op.scoredOn i) =
          2 * s.config.scoredSduCount.toNat := by
      intro i hi
      have hsum := h.scored i
      have htwo : (2 * s.config.scoredSduCount).toNat = 2 * s.config.scoredSduCount.toNat := by
        have hbound : s.config.scoredSduCount.toNat ≤ 20000 := h.bounded
        rw [UInt32.toNat_mul]
        exact Nat.mod_eq_of_lt (by simp; omega)
      have hnone : [Op.nextSegment].countP (Op.scoredOn i) = 0 := rfl
      rw [hcounts i hi, htwo, hshape.split, List.countP_append, List.countP_append, hnone] at hsum
      omega
    refine ⟨seg₀, seg, ?_, hseg₀.passed rfl (by decide) fun i hi => ?_,
      hseg.passed rfl (by decide) fun i hi => ?_⟩
    · rw [hshape.split, List.append_assoc]
      rfl
    · have hle := hseg.le_count (by decide) hi
      have hsum := htotal i hi
      omega
    · have hle := hseg₀.le_count (by decide) hi
      have hsum := htotal i hi
      omega

end Running

/-! ### Sequences of calls -/

/-- A configuration that passes its checks has a bounded target. -/
theorem check_bounded {cfg : ConfigArg} {config : Config} (h : cfg.check = some config) :
    config.scoredSduCount ≤ maxScoredSdus := by
  unfold ConfigArg.check at h
  split at h
  · split_ifs at h with hcount hseed
    cases h
    exact UInt32.not_lt.1 fun hlt => hcount (.inr hlt)
  · cases h

namespace History

/-- An accepted call of an active run. -/
theorem Inv.accepts {h : History} (hinv : h.Inv) {op : Op} {s' : State}
    (hactive : h.state.active = true) (hacc : h.state.Accepts op s') : Inv ⟨s', h.log ++ [op]⟩ := by
  have hrun := hinv.running hactive
  have hkeep := fun hactive' => hrun.accepts hactive hacc hactive'
  have hnone : ∀ {P : Prop}, h.state.terminal ≠ .none → P := fun hne => absurd hrun.terminal hne
  cases hacc with
  | reset => exact ⟨by simp [State.zero], fun _ => rfl, hkeep⟩
  | configure hidle => exact absurd (hactive.symm.trans hidle) (by decide)
  | start _ hidle => exact absurd (hactive.symm.trans hidle) (by decide)
  | pass => exact ⟨hinv.config, fun _ => rfl, hkeep⟩
  | fail => exact ⟨hinv.config, fun _ => rfl, hkeep⟩
  | _ => exact ⟨hinv.config, fun hne => hnone hne, hkeep⟩

theorem Inv.call {h : History} (hinv : h.Inv) (op : Op) : (h.call op).Inv := by
  unfold History.call
  rcases h.state.call_cases op with ⟨e, he⟩ | ⟨s', hs', hacc⟩
  · rw [he]
    exact hinv
  · rw [hs']
    cases hactive : h.state.active with
    | true =>
      have hstart : op ≠ .start := by
        rintro rfl
        cases hacc with
        | start _ hidle => exact absurd (hactive.symm.trans hidle) (by decide)
      cases op <;> first | exact absurd rfl hstart | exact hinv.accepts hactive hacc
    | false =>
      cases hacc with
      | reset => exact ⟨by simp [State.zero], by simp [State.zero], by simp [State.zero]⟩
      | configure _ _ hcheck =>
        exact ⟨fun _ => check_bounded hcheck, fun _ => hactive, fun ha =>
          absurd (ha.symm.trans hactive) (by decide)⟩
      | start hhas =>
        exact ⟨hinv.config, fun hne => absurd rfl hne, fun _ =>
          .started hhas (hinv.config hhas)⟩
      | _ => exact absurd (hactive.symm.trans ‹_›) (by decide)

theorem inv_run (ops : List Op) : (run ops).Inv := by
  unfold run
  have hzero : Inv ⟨.zero, []⟩ := ⟨by simp [State.zero], by simp [State.zero], by simp [State.zero]⟩
  generalize (⟨.zero, []⟩ : History) = h at hzero
  induction ops generalizing h with
  | nil => exact hzero
  | cons op ops ih => exact ih _ (hzero.call op)

end History

theorem ended_accepts {s s' : State} {op : Op} (hended : s.terminal ≠ .none)
    (hidle : s.active = false) (hacc : s.Accepts op s') : op = .reset ∨ op = .start := by
  cases hacc with
  | reset => exact .inl rfl
  | start => exact .inr rfl
  | configure _ hnone => exact absurd hnone hended
  | _ => exact absurd (hidle.symm.trans ‹_›) (by decide)

/-- **A PASS is sound.**  It is accepted only if nothing since the last accepted start rules it
out and every segment of the policy went through all of its states, with exactly the scored target
of every configured stream submitted before it was declared met.  A rejected call changes nothing,
and after a verdict only a reset or an accepted start changes anything. -/
theorem pass_sound :
    (∀ ops : List Op, let h := History.run ops
      (h.state.call (.terminal (some .pass))).2 = none → Passed h.state.config h.log) ∧
    (∀ (s : State) (op : Op), (s.call op).2 ≠ none → (s.call op).1 = s) ∧
    (∀ (ops : List Op) (op : Op), let s := (History.run ops).state
      s.terminal ≠ .none → op ≠ .reset → ¬(op = .start ∧ (s.call op).2 = none) →
        (s.call op).1 = s) := by
  refine ⟨fun ops => ?_, fun s op => State.call_rejected, fun ops op => ?_⟩
  · intro h haccepted
    have hinv : h.Inv := History.inv_run ops
    have hacc := State.call_accepted haccepted
    generalize (h.state.call (.terminal (some .pass))).1 = s' at hacc
    cases hacc with
    | pass hactive hstate _ hpass => exact (hinv.running hactive).passed hstate hpass
  · intro s hended hreset hstart
    have hinv : (History.run ops).Inv := History.inv_run ops
    refine State.call_rejected fun haccepted => ?_
    rcases ended_accepts hended (hinv.ended hended) (State.call_accepted haccepted) with h | h
    · exact hreset h
    · exact hstart ⟨h, haccepted⟩

/-- A run of two streams over two segments with one scored submission each. -/
def twoSegments : List Op :=
  let scored : List Op := [.advance (some .streaming), .counterSubmit 0, .counterSubmit 1,
    .counterSubmitScored 0, .counterSubmitScored 1, .advance (some .scoredComplete),
    .advance (some .teardown)]
  let enter : List Op :=
    [.advance (some .secured), .advance (some .discovered), .advance (some .qos)]
  [.configure ⟨some .modeA, some .p48_3_1, fun _ => 0, some .pub, 1, 1, some .once⟩, .start,
    .advance (some .configured), .advance (some .connecting)] ++ enter ++ scored ++
    [.nextSegment] ++ enter ++ scored

theorem pass_sound_twoSegments :
    Passed (History.run twoSegments).state.config (History.run twoSegments).log :=
  pass_sound.1 twoSegments (by decide +kernel)

end Hil

end LeAudioReceiver
