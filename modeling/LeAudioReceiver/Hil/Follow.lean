import LeAudioReceiver.Hil.Tracker

/-!
# The run tracker follows the run state

The run state of the source (`Hil.State`) and the tracker of the host (`Hil.Tracker`), connected by
the records of the accepted transitions.  A tracker follows one run: an accepted start begins a new
one.

* `Mirrors` : the tracker shows the run state;
* `Follows.accepts` : the record of one accepted call is accepted;
* `tracker_follows` : **every record is accepted and the tracker mirrors the run state**;
* `restart_rejected` : a tracker that is kept over a second start rejects its first record.
-/

namespace LeAudioReceiver

namespace Hil

/-- The identities that the records of a run carry. -/
structure Ids where
  runId : String
  commandId : String
  firmwareId : String

/-- What the record of an accepted call says, where there is one. -/
def Op.emitted (s' : State) : Op → Option RecordData
  | start | advance _ | nextSegment => some (.state s'.currentState)
  | abortToTeardown _ => some (.abort s'.abortCause)
  | terminal _ => some (.terminal s'.terminal)
  | _ => none

/-- A record about a state. -/
def Ids.record (ids : Ids) (s : State) (now : ℕ) (data : RecordData) : Record :=
  { data := data, firmwareId := ids.firmwareId, monotonicMs := now, commandId := ids.commandId
    runId := ids.runId, segment := s.segment.toNat }

/-- The run state and the tracker at the other end. -/
structure Link where
  state : State
  tracker : Tracker

/-- The tracker that the record of an accepted call goes to: a start begins a new one, if `renew`
says so. -/
def Link.trackerFor (ids : Ids) (renew : Bool) (l : Link) : Op → Tracker
  | .start => if renew then .new ids.runId ids.commandId else l.tracker
  | _ => l.tracker

/-- A call at a time.  The record of an accepted call goes to the tracker; `none` is a record that
is not accepted. -/
def Link.step (ids : Ids) (renew : Bool) (l : Link) (call : Op × ℕ) : Option Link :=
  let r := l.state.call call.1
  if r.2 ≠ none then some l
  else
    let tracker := l.trackerFor ids renew call.1
    match call.1.emitted r.1 with
    | none => some ⟨r.1, tracker⟩
    | some data =>
      match tracker.accept (ids.record r.1 call.2 data) with
      | (tracker, none) => some ⟨r.1, tracker⟩
      | (_, some _) => none

/-- The verdict of a state, where there is one. -/
def State.verdict (s : State) : Option RecordData :=
  if s.terminal = .none then none else some (.terminal s.terminal)

/-- The tracker shows the run state. -/
structure Mirrors (t : Tracker) (s : State) : Prop where
  segment : t.segment = some s.segment.toNat
  stateIndex : t.stateIndex = s.currentState.index
  aborted : t.aborted = s.aborted
  abortCause : t.abortCause = if s.aborted then some s.abortCause else none
  terminal : t.terminal.map Record.data = s.verdict

/-- The tracker of a run at a time, and what the run state keeps for it. -/
structure Follows (ids : Ids) (now : ℕ) (l : Link) : Prop where
  runId : l.tracker.runId = ids.runId
  commandId : l.tracker.commandId = ids.commandId
  firmwareId : l.tracker.firmwareId = none ∨ l.tracker.firmwareId = some ids.firmwareId
  time : l.tracker.lastMonotonic ≤ now
  mirrors : Mirrors l.tracker l.state
  running : l.state.active = true → l.state.terminal = .none
  first : l.state.reconnectUsed = false → l.state.segment = 0

namespace Follows

variable {ids : Ids} {now : ℕ} {l : Link}

theorem later (h : Follows ids now l) {t : ℕ} (ht : now ≤ t) : Follows ids t l :=
  { h with time := h.time.trans (Int.ofNat_le.2 ht) }

theorem headerError (h : Follows ids now l) (s : State) {t : ℕ} (ht : now ≤ t)
    (data : RecordData) : l.tracker.headerError (ids.record s t data) = none := by
  have htime : ¬((t : ℤ) < l.tracker.lastMonotonic) :=
    not_lt.2 (h.time.trans (Int.ofNat_le.2 ht))
  have hfirmware : ¬(l.tracker.firmwareId ≠ none ∧
      some ids.firmwareId ≠ l.tracker.firmwareId) := by
    rintro ⟨hne, hother⟩
    rcases h.firmwareId with hid | hid
    · exact hne hid
    · exact hother hid.symm
  exact (if_neg (not_not.2 h.runId.symm)).trans ((if_neg hfirmware).trans (if_neg htime))

/-- No record has been terminal while the run is active. -/
theorem not_terminal (h : Follows ids now l) (hactive : l.state.active = true) :
    l.tracker.terminal = none := by
  have hnone := h.mirrors.terminal
  rw [State.verdict, if_pos (h.running hactive)] at hnone
  exact Option.map_eq_none_iff.1 hnone

theorem sharedError (h : Follows ids now l) (hactive : l.state.active = true) (s : State) {t : ℕ}
    (ht : now ≤ t) {data : RecordData} (hstatus : data ≠ .status)
    (hcontract : l.tracker.contractError (ids.record s t data) = none) :
    l.tracker.sharedError (ids.record s t data) = none := by
  refine Tracker.sharedError_eq_none.2 ⟨h.headerError s ht data, hcontract, ?_, ?_⟩
  · have hid : ¬ids.commandId ≠ l.tracker.commandId := not_not.2 h.commandId.symm
    cases data with
    | status => exact absurd rfl hstatus
    | _ => exact if_neg hid
  · exact if_pos (h.not_terminal hactive)

theorem commit (h : Follows ids now l) {s : State} {t : ℕ} {data : RecordData}
    {c : Tracker.Change}
    (hmirrors : Mirrors (l.tracker.commit (ids.record s t data) c) s)
    (hrunning : s.active = true → s.terminal = .none)
    (hfirst : s.reconnectUsed = false → s.segment = 0) :
    Follows ids t ⟨s, l.tracker.commit (ids.record s t data) c⟩ := by
  have hrun : (l.tracker.commit (ids.record s t data) c).runId = l.tracker.runId := by
    cases c <;> rfl
  have hcommand : (l.tracker.commit (ids.record s t data) c).commandId = l.tracker.commandId := by
    cases c <;> rfl
  have hfirmware : (l.tracker.commit (ids.record s t data) c).firmwareId =
      some ids.firmwareId := by
    cases c <;> rfl
  have htime : (l.tracker.commit (ids.record s t data) c).lastMonotonic = t := by
    cases c <;> rfl
  exact ⟨hrun.trans h.runId, hcommand.trans h.commandId, .inr hfirmware, htime.le, hmirrors,
    hrunning, hfirst⟩

theorem state (h : Follows ids now l) (hactive : l.state.active = true) {s : State} {t : ℕ}
    (ht : now ≤ t) {p : Place}
    (hvalid : l.tracker.validateState s.segment.toNat s.currentState = .ok p) :
    l.tracker.accept (ids.record s t (.state s.currentState)) =
      (l.tracker.commit (ids.record s t (.state s.currentState)) (.place p), none) := by
  refine Tracker.accept_ok (h.sharedError hactive s ht (by simp) ?_) ?_
  · unfold Tracker.contractError
    rw [h.mirrors.segment]
    rfl
  · change (l.tracker.validateState s.segment.toNat s.currentState).map _ = _
    rw [hvalid]
    rfl

/-- The record of an advance. -/
theorem advance (h : Follows ids now l) (hactive : l.state.active = true) {next : RunState}
    (hnext : next.index = l.state.currentState.index + 1) {t : ℕ} (ht : now ≤ t) :
    ∃ tracker, l.tracker.accept
        (ids.record { l.state with currentState := next } t (.state next)) = (tracker, none) ∧
      Follows ids t ⟨{ l.state with currentState := next }, tracker⟩ := by
  have hvalid : l.tracker.validateState l.state.segment.toNat next =
      .ok { segment := l.tracker.segment, stateIndex := next.index, aborted := l.tracker.aborted
            abortCause := l.tracker.abortCause } := by
    have hindex := h.mirrors.stateIndex
    -- the same segment, and the next index: no repeat, no regression, no skip
    unfold Tracker.validateState
    rw [h.mirrors.segment]
    dsimp only
    rw [if_pos rfl, if_neg (by omega), if_neg (by omega), if_neg (by omega)]
  refine ⟨_, h.state hactive (s := { l.state with currentState := next }) ht hvalid,
    h.commit ⟨h.mirrors.segment, rfl, h.mirrors.aborted, h.mirrors.abortCause, h.mirrors.terminal⟩
      h.running h.first⟩

theorem reconnect (h : Follows ids now l) (hactive : l.state.active = true)
    (hstate : l.state.currentState = .teardown) (haborted : l.state.aborted = false)
    (hused : l.state.reconnectUsed = false) {t : ℕ} (ht : now ≤ t) :
    ∃ tracker, l.tracker.accept
        (ids.record l.state.reconnected t (.state .connecting)) = (tracker, none) ∧
      Follows ids t ⟨l.state.reconnected, tracker⟩ := by
  have hone : l.state.reconnected.segment = 1 := by
    change l.state.segment + 1 = 1
    rw [h.first hused]
    rfl
  have hcurrent : l.tracker.segment = some 0 := by
    rw [h.mirrors.segment, h.first hused]
    rfl
  have hvalid : l.tracker.validateState l.state.reconnected.segment.toNat .connecting =
      .ok { segment := some 1, stateIndex := RunState.connecting.index
            aborted := l.tracker.aborted, abortCause := l.tracker.abortCause } := by
    have hindex : l.tracker.stateIndex = Tracker.lastIndex := by
      rw [h.mirrors.stateIndex, hstate]
      rfl
    have hab : ¬l.tracker.aborted = true := by rw [h.mirrors.aborted, haborted]; decide
    -- the first segment is at its teardown and was not aborted
    unfold Tracker.validateState
    rw [hcurrent, hone]
    dsimp only
    rw [if_neg (by decide), if_pos (by decide), if_neg (not_not.2 hindex), if_neg hab,
      if_neg (by decide)]
    rfl
  refine ⟨_, h.state hactive (s := l.state.reconnected) ht hvalid, h.commit
    ⟨?_, rfl, h.mirrors.aborted, h.mirrors.abortCause, h.mirrors.terminal⟩ h.running
    fun hf => absurd hf (by simp [State.reconnected])⟩
  rw [hone]
  rfl

theorem abort (h : Follows ids now l) (hactive : l.state.active = true)
    (hstate : l.state.currentState ≠ .teardown) (haborted : l.state.aborted = false)
    (cause : AbortCause) {t : ℕ} (ht : now ≤ t) :
    let s' := { l.state with currentState := .teardown, aborted := true, abortCause := cause }
    ∃ tracker, l.tracker.accept (ids.record s' t (.abort cause)) = (tracker, none) ∧
      Follows ids t ⟨s', tracker⟩ := by
  intro s'
  have hvalid : l.tracker.validateAbort l.state.segment.toNat cause =
      .ok { segment := l.tracker.segment, stateIndex := Tracker.lastIndex, aborted := true
            abortCause := some cause } := by
    have hindex : l.tracker.stateIndex ≠ Tracker.lastIndex := by
      rw [h.mirrors.stateIndex]
      intro heq
      exact hstate (RunState.index_eq_eight.1 (Int.ofNat.inj heq))
    have hab : ¬l.tracker.aborted = true := by rw [h.mirrors.aborted, haborted]; decide
    unfold Tracker.validateAbort
    rw [h.mirrors.segment]
    dsimp only
    rw [if_neg (not_not.2 rfl), if_neg hindex, if_neg hab]
  have haccept : l.tracker.accept (ids.record s' t (.abort cause)) =
      (l.tracker.commit (ids.record s' t (.abort cause)) (.place
        { segment := l.tracker.segment, stateIndex := Tracker.lastIndex, aborted := true
          abortCause := some cause }), none) := by
    refine Tracker.accept_ok (h.sharedError hactive s' ht (by simp) ?_) ?_
    · unfold Tracker.contractError
      rw [h.mirrors.segment]
      rfl
    · change (l.tracker.validateAbort l.state.segment.toNat cause).map _ = _
      rw [hvalid]
      rfl
  exact ⟨_, haccept, h.commit ⟨h.mirrors.segment, rfl, rfl, rfl, h.mirrors.terminal⟩ h.running
    h.first⟩

theorem terminal (h : Follows ids now l) (hactive : l.state.active = true)
    (hstate : l.state.currentState = .teardown) (verdict : Verdict) (hverdict : verdict ≠ .none)
    (hpass : verdict = .pass → l.state.aborted = false) {t : ℕ} (ht : now ≤ t) :
    let s' := { l.state with terminal := verdict, active := false }
    ∃ tracker, l.tracker.accept (ids.record s' t (.terminal verdict)) = (tracker, none) ∧
      Follows ids t ⟨s', tracker⟩ := by
  intro s'
  have hvalid : l.tracker.validateTerminal = none := by
    have hindex : l.tracker.stateIndex = Tracker.lastIndex := by
      rw [h.mirrors.stateIndex, hstate]
      rfl
    unfold Tracker.validateTerminal
    rw [h.mirrors.segment, if_neg]
    rintro (hnone | hne)
    · cases hnone
    · exact hne hindex
  have hab : ¬(l.tracker.aborted = true ∧ verdict = .pass) := by
    rintro ⟨habort, hv⟩
    rw [h.mirrors.aborted, hpass hv] at habort
    cases habort
  have haccept : l.tracker.accept (ids.record s' t (.terminal verdict)) =
      (l.tracker.commit (ids.record s' t (.terminal verdict)) .terminal, none) := by
    refine Tracker.accept_ok (h.sharedError hactive s' ht (by simp) ?_) ?_
    · unfold Tracker.contractError
      rw [h.mirrors.segment]
      exact if_neg (not_not.2 rfl)
    · simp only [Tracker.change, Ids.record, hvalid]
      exact if_neg hab
  refine ⟨_, haccept, h.commit ⟨h.mirrors.segment, h.mirrors.stateIndex, h.mirrors.aborted,
    h.mirrors.abortCause, ?_⟩ (fun hf => absurd hf (by simp [s'])) h.first⟩
  exact (if_neg hverdict).symm

theorem quiet (h : Follows ids now l) {s : State} (hsegment : s.segment = l.state.segment)
    (hstate : s.currentState = l.state.currentState) (haborted : s.aborted = l.state.aborted)
    (hcause : s.abortCause = l.state.abortCause) (hterminal : s.terminal = l.state.terminal)
    (hactive : s.active = l.state.active) (hused : s.reconnectUsed = l.state.reconnectUsed) :
    Follows ids now ⟨s, l.tracker⟩ where
  runId := h.runId
  commandId := h.commandId
  firmwareId := h.firmwareId
  time := h.time
  mirrors := by
    refine ⟨?_, ?_, ?_, ?_, ?_⟩
    · rw [h.mirrors.segment, hsegment]
    · rw [h.mirrors.stateIndex, hstate]
    · rw [h.mirrors.aborted, haborted]
    · rw [h.mirrors.abortCause, haborted, hcause]
    · rw [h.mirrors.terminal, State.verdict, State.verdict, hterminal]
  running hf := by
    rw [hterminal]
    exact h.running (hactive ▸ hf)
  first hf := by
    rw [hsegment]
    exact h.first (hused ▸ hf)

end Follows

theorem start_follows (ids : Ids) (s : State) (t : ℕ) :
    ∃ tracker, (Tracker.new ids.runId ids.commandId).accept
        (ids.record s.started t (.state .idle)) = (tracker, none) ∧
      Follows ids t ⟨s.started, tracker⟩ := by
  have hshared : (Tracker.new ids.runId ids.commandId).sharedError
      (ids.record s.started t (.state .idle)) = none := by
    refine Tracker.sharedError_eq_none.2 ⟨?_, rfl, ?_, rfl⟩
    · have htime : ¬(t : ℤ) < -1 := by omega
      exact (if_neg (not_not.2 rfl)).trans ((if_neg fun h => h.1 rfl).trans (if_neg htime))
    · exact if_neg (not_not.2 rfl)
  refine ⟨_, Tracker.accept_ok hshared rfl, rfl, rfl, .inr rfl, le_rfl,
    ⟨rfl, rfl, rfl, rfl, rfl⟩, fun _ => rfl, fun _ => rfl⟩

/-! ### Calls -/

namespace Link

variable {ids : Ids} {renew : Bool} {l : Link} {s' : State} {op : Op} {t : ℕ}

theorem step_rejected {e : Errno} (h : l.state.call op = (l.state, some e)) :
    l.step ids renew (op, t) = some l := by
  simp only [step, h]
  exact if_pos (by simp)

theorem trackerFor_of_ne (hop : op ≠ .start) : l.trackerFor ids renew op = l.tracker := by
  cases op <;> first | rfl | exact absurd rfl hop

theorem step_quiet (h : l.state.call op = (s', none)) (hop : op.emitted s' = none) :
    l.step ids renew (op, t) = some ⟨s', l.tracker⟩ := by
  have hstart : op ≠ .start := by
    rintro rfl
    cases hop
  simp only [step, h, ne_eq, not_true_eq_false, if_false, hop, trackerFor_of_ne hstart]

theorem step_record (h : l.state.call op = (s', none)) {data : RecordData}
    (hop : op.emitted s' = some data) {tracker : Tracker}
    (haccept : (l.trackerFor ids renew op).accept (ids.record s' t data) = (tracker, none)) :
    l.step ids renew (op, t) = some ⟨s', tracker⟩ := by
  simp only [step, h, ne_eq, not_true_eq_false, if_false, hop, haccept]

/-- During a run and after its verdict the tracker follows. -/
def Good (ids : Ids) (now : ℕ) (l : Link) : Prop :=
  l.state.active = true ∨ l.state.terminal ≠ .none → Follows ids now l

/-- One call. -/
theorem Good.step {now : ℕ} (h : Good ids now l) (op : Op) (ht : now ≤ t) :
    ∃ l', l.step ids true (op, t) = some l' ∧ Good ids t l' := by
  rcases l.state.call_cases op with ⟨e, he⟩ | ⟨s', hs', hacc⟩
  · exact ⟨l, step_rejected he, fun hrun => (h hrun).later ht⟩
  cases hacc with
  | reset => exact ⟨_, step_quiet hs' rfl, fun hrun => absurd hrun (by simp [State.zero])⟩
  | configure hidle hnone =>
    refine ⟨_, step_quiet hs' rfl, fun hrun => ?_⟩
    rcases hrun with hrun | hrun
    · exact absurd (hidle.symm.trans hrun) (by decide)
    · exact absurd hnone hrun
  | start =>
    obtain ⟨tracker, haccept, hfollows⟩ := start_follows ids l.state t
    exact ⟨_, step_record hs' rfl haccept, fun _ => hfollows⟩
  | advance hactive hnext =>
    obtain ⟨tracker, haccept, hfollows⟩ := (h (.inl hactive)).advance hactive hnext ht
    exact ⟨_, step_record hs' rfl haccept, fun _ => hfollows⟩
  | nextSegment hactive hstate haborted _ hused =>
    obtain ⟨tracker, haccept, hfollows⟩ :=
      (h (.inl hactive)).reconnect hactive hstate haborted hused ht
    exact ⟨_, step_record hs' rfl haccept, fun _ => hfollows⟩
  | pass hactive hstate _ hpass =>
    have haborted : l.state.aborted = false := by
      unfold State.passes at hpass
      simp only [Bool.and_eq_true, Bool.not_eq_true'] at hpass
      exact hpass.1.1.1
    obtain ⟨tracker, haccept, hfollows⟩ := (h (.inl hactive)).terminal hactive hstate .pass
      (by decide) (fun _ => haborted) ht
    exact ⟨_, step_record hs' rfl haccept, fun _ => hfollows⟩
  | fail hactive hstate =>
    obtain ⟨tracker, haccept, hfollows⟩ := (h (.inl hactive)).terminal hactive hstate .fail
      (by decide) (fun hv => absurd hv (by decide)) ht
    exact ⟨_, step_record hs' rfl haccept, fun _ => hfollows⟩
  | abortToTeardown hactive hstate haborted =>
    obtain ⟨tracker, haccept, hfollows⟩ := (h (.inl hactive)).abort hactive hstate haborted _ ht
    exact ⟨_, step_record hs' rfl haccept, fun _ => hfollows⟩
  | _ =>
    have hfollows := (h (.inl ‹_›)).later ht
    exact ⟨_, step_quiet hs' rfl, fun _ => hfollows.quiet rfl rfl rfl rfl rfl rfl rfl⟩

/-- A sequence of calls at times that do not go back. -/
theorem Good.run {now : ℕ} (h : Good ids now l) {calls : List (Op × ℕ)}
    (htimes : ((now :: calls.map Prod.snd).Pairwise (· ≤ ·))) :
    ∃ l' t, calls.foldlM (Link.step ids true) l = some l' ∧ Good ids t l' := by
  induction calls generalizing l now with
  | nil => exact ⟨l, now, rfl, h⟩
  | cons call calls ih =>
    obtain ⟨hfirst, hrest⟩ := List.pairwise_cons.1 htimes
    obtain ⟨l', hstep, hgood⟩ := h.step call.1 (hfirst call.2 List.mem_cons_self)
    obtain ⟨l'', t, hrun, hgood'⟩ := ih hgood hrest
    refine ⟨l'', t, ?_, hgood'⟩
    rw [List.foldlM_cons, hstep]
    exact hrun

end Link

/-- **The tracker follows the run state.**  Whatever operations are called from zeroed memory on,
at times that do not go back, every record of an accepted transition is accepted by the tracker of
its run, and during a run and after its verdict the tracker mirrors the run state.  An accept that
raises leaves the tracker as it is. -/
theorem tracker_follows :
    (∀ (ids : Ids) (t₀ : Tracker) (calls : List (Op × ℕ)),
      (calls.map Prod.snd).Pairwise (· ≤ ·) →
      ∃ l, calls.foldlM (Link.step ids true) ⟨.zero, t₀⟩ = some l ∧
        (l.state.active = true ∨ l.state.terminal ≠ .none → Mirrors l.tracker l.state)) ∧
    (∀ (t : Tracker) (r : Record) (e : String), (t.accept r).2 = some e → (t.accept r).1 = t) := by
  refine ⟨fun ids t₀ calls htimes => ?_, fun t r e => Tracker.accept_raised⟩
  have hzero : Link.Good ids 0 ⟨.zero, t₀⟩ := fun hrun => absurd hrun (by simp [State.zero])
  obtain ⟨l, t, hrun, hgood⟩ :=
    hzero.run (List.pairwise_cons.2 ⟨fun _ _ => Nat.zero_le _, htimes⟩)
  exact ⟨l, hrun, fun h => (hgood h).mirrors⟩

/-- A run that is stopped at once and ends in FAIL. -/
def stoppedRun : List (Op × ℕ) :=
  [(.configure ⟨some .mono, some .p48_3_1, fun _ => 0, some .pub, 1, 1, some .none⟩, 1),
    (.start, 2), (.stopRequest, 3), (.abortToTeardown (some .stop), 3),
    (.terminal (some .fail), 4)]

theorem tracker_follows_stopped :
    ∃ l, stoppedRun.foldlM (Link.step ⟨"run", "cmd-0001", "fw"⟩ true)
        ⟨.zero, .new "run" "cmd-0001"⟩ = some l ∧
      l.tracker.aborted = true ∧ Mirrors l.tracker l.state := by
  obtain ⟨l, hrun, hmirrors⟩ := tracker_follows.1 ⟨"run", "cmd-0001", "fw"⟩
    (.new "run" "cmd-0001") stoppedRun (by decide)
  have hend : (stoppedRun.foldlM (Link.step ⟨"run", "cmd-0001", "fw"⟩ true)
      ⟨.zero, .new "run" "cmd-0001"⟩).map (fun l => (l.tracker.aborted, l.state.terminal)) =
      some (true, .fail) := by decide +kernel
  rw [hrun, Option.map_some, Option.some.injEq, Prod.mk.injEq] at hend
  refine ⟨l, hrun, hend.1, hmirrors (.inr ?_)⟩
  rw [hend.2]
  decide

/-- A tracker that is kept over a second start of the same run rejects its first record. -/
theorem restart_rejected :
    ¬∀ (ids : Ids) (calls : List (Op × ℕ)), (calls.map Prod.snd).Pairwise (· ≤ ·) →
      ∃ l, calls.foldlM (Link.step ids false) ⟨.zero, .new ids.runId ids.commandId⟩ =
        some l := by
  intro h
  obtain ⟨l, hrun⟩ := h ⟨"run", "cmd-0001", "fw"⟩ (stoppedRun ++ [(Op.start, 5)]) (by decide)
  have hnone : ((stoppedRun ++ [(Op.start, 5)]).foldlM (Link.step ⟨"run", "cmd-0001", "fw"⟩ false)
      ⟨.zero, .new "run" "cmd-0001"⟩).isSome = false := by decide +kernel
  rw [hrun] at hnone
  cases hnone

end Hil

end LeAudioReceiver
