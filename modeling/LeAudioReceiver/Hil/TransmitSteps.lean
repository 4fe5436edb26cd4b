import LeAudioReceiver.Hil.Steps
import LeAudioReceiver.Hil.TransmitLog

/-!
# The steps of the transmit stage

What one step of `Transmit.Tx` can do, said once: the steps of the worker by what they change and
what they do to the record beside the stage.

* `State.call_counter` : a counter operation changes counters only;
* `Pc.Moves`, `Pc.Checks`, `Pc.Waits` : the moves that change nothing else;
* `Works` : the steps of the worker;
* `works` : **every step of the worker is one of them**;
* `Tx.sent_eq` : the sent callback where nothing is stale.
-/

namespace LeAudioReceiver

namespace Hil

/-- The counter operations. -/
def Op.counter : Op → Bool
  | counterSubmit _ | counterSubmitScored _ | counterSendFailure _ | counterSentCallback _ => true
  | _ => false

/-- A counter operation changes counters only. -/
theorem State.call_counter (s : State) {op : Op} (hop : op.counter = true) :
    ∃ counters, (s.call op).1 = { s with counters := counters } := by
  rcases s.call_cases op with ⟨e, he⟩ | ⟨s', hs', hacc⟩
  · exact ⟨s.counters, by rw [he]⟩
  · rw [hs']
    cases hacc <;> first | exact ⟨_, rfl⟩ | cases hop

theorem State.counterOp_eq {s : State} {i : Fin 2} {full : StreamCounter → Bool}
    {count : StreamCounter → StreamCounter} (hactive : s.active = true)
    (hi : i.val < s.config.mode.streamCount) (hfull : full (s.counters i) = false) :
    s.counterOp i full count = (s.counted i (count (s.counters i)), none) := by
  have hprepare : s.prepareCounter i = some i := by
    unfold State.prepareCounter
    rw [hactive, if_neg (by decide), if_neg (by omega)]
    exact congrArg some (Fin.ext (Nat.mod_eq_of_lt i.isLt))
  unfold State.counterOp
  rw [hprepare]
  dsimp only
  rw [hfull]
  rfl

theorem State.counterOp_ok {s r : State} {i : Fin 2} {full : StreamCounter → Bool}
    {count : StreamCounter → StreamCounter} (h : s.counterOp i full count = (r, none)) :
    full (s.counters i) = false ∧ r = s.counted i (count (s.counters i)) := by
  rcases s.counterOp_cases i full count with ⟨e, he⟩ | ⟨j, hij, -, -, hfull, hcounted⟩
  · rw [he] at h
    cases h
  · obtain rfl : i = j := Fin.ext hij
    rw [hcounted] at h
    exact ⟨hfull, (congrArg Prod.fst h).symm⟩

/-- The error codes are positive. -/
theorem Errno.value_pos (e : Errno) : 0 < e.value := by
  cases e <;> decide

namespace Transmit

open Signal (Stage)

/-! ### Moves -/

/-- The moves that change nothing else. -/
inductive Pc.Moves : Pc → Pc → Prop
  | anchorEncoded : Moves .anchorEncode .anchorCheck
  | encodedFirst {pin : UInt32} : Moves (.encode 0 pin) (.encode 1 pin)
  | encodedLast {i : Fin 2} {pin : UInt32} : Moves (.encode i pin) (.batch pin)
  | batch {pin : UInt32} {deadline : ℕ} : Moves (.batch pin) (.pinCheck pin deadline)
  | peer {pin now : UInt32} : Moves (.peer pin) (.send 1 pin now)
  | syncedFirst : Moves (.sync 0) (.sync 1)
  | syncedLast {i : Fin 2} : Moves (.sync i) (.returned 0)

/-- The moves behind a sample of the stop and error flags. -/
inductive Pc.Checks : Pc → Pc → Prop
  | anchor : Checks .anchorCheck .anchorAccount
  | poll {deadline : ℕ} : Checks (.anchorPoll deadline) (.anchorDue deadline)
  | pin {pin : UInt32} {deadline : ℕ} : Checks (.pinCheck pin deadline) (.pinRead pin deadline)

/-- The waits, and where they lead. -/
inductive Pc.Waits : Pc → Pc → Prop
  | anchor {deadline : ℕ} : Waits (.anchorWait deadline) (.anchorPoll deadline)
  | space {deadline : Option ℕ} : Waits (.spaceWait deadline) .top
  | pin {pin : UInt32} {deadline : ℕ} : Waits (.pinWait pin deadline) (.pinCheck pin deadline)
  | drain {deadline : ℕ} : Waits (.drainWait deadline) (.drain deadline)

/-- An error that the worker returns at once, which leaves the bookkeeping of the streams alone. -/
structure Ends (s s' : Tx) : Prop where
  worker : ∃ ret, ret ≠ 0 ∧ s'.worker = .returned ret
  started : s.worker ≠ .entry ∧ s.worker ≠ .anchorSend
  active : s'.active = s.active
  outstanding : ∀ i, (s'.stream i).outstanding = (s.stream i).outstanding
  run : ∃ counters, s'.run = { s.run with counters := counters } ∨
    s'.run = { s.run with currentState := .scoredComplete, counters := counters }

/-- The steps of the worker, with what they do to the record. -/
inductive Works (target : ℕ) (s : Tx) : Tx → (History → History) → Prop
  | enter : s.worker = .entry → Works target s s.reset id
  | encoders {again : Bool} : s.worker = .encoders again →
      Works target s ({ s with encStage := .preamble }.goto (if again then .top else .anchorEncode))
        id
  | ends {s' : Tx} : Ends s s' → Works target s s' id
  | endsBehind {s' : Tx} : Ends s s' → Works target s s' (·.enter .scoredComplete)
  | moves {pc : Pc} : s.worker.Moves pc → Works target s (s.goto pc) id
  | checked {pc : Pc} : s.worker.Checks pc → s.stopPending = false → Works target s (s.goto pc) id
  | woken {pc : Pc} : s.worker.Waits pc → Works target s { s with wake := false, worker := pc } id
  | expired {pc : Pc} : s.worker.Waits pc → Works target s (s.goto pc) id
  | account : s.worker = .anchorAccount →
      Works target s (s.accountAnchor.goto .anchorSend) id
  | anchorAccepted : s.worker = .anchorSend → Works target s (s.goto .anchorSent) (·.accept 0)
  | anchorRefused {ret : ℤ} {counters : Fin 2 → StreamCounter} : s.worker = .anchorSend → ret ≠ 0 →
      Works target s
        ({ s.modify 0 Stream.drop with
            anchorPending := false, run := { s.run with counters := counters } }.goto
          (.returned ret)) id
  | anchorSequence {deadline : ℕ} : s.worker = .anchorSent →
      Works target s ((s.modify 0 fun t => { t with seq := 1 }).goto (.anchorPoll deadline)) id
  | due {deadline : ℕ} : s.worker = .anchorDue deadline → s.readbackDue = true →
      Works target s { s with readbackDue := false, worker := .readback } id
  | notDue {deadline : ℕ} : s.worker = .anchorDue deadline → s.readbackDue = false →
      Works target s (s.goto (.anchorWait deadline)) id
  | anchored {ts : UInt32} : s.worker = .readback →
      Works target s (s.anchored ts) fun h => { h with anchor := ts, event := 1 }
  | finished {deadline : ℕ} : s.worker = .top → s.finished = true →
      Works target s (s.goto (.drain deadline)) id
  | noSpace : s.worker = .top → s.stopPending = false → s.canSend target = false →
      Works target s (s.goto (.spaceWait (s.spaceDeadline target))) id
  | staged : s.worker = .top → s.finished = false → s.canSend target = true →
      (s.run.config.mode.allStreams fun i => s.stageOf i = s.stageOf 0) = true →
      (s.stageOf 0 = s.encStage ∨ s.stageOf 0 ≠ .tail ∨ s.scoredCompleteEmitted = true) →
      Works target s ({ s with encStage := s.stageOf 0 }.goto (.encode 0 (s.stream 0).next)) id
  | boundary : s.worker = .top → s.finished = false → s.canSend target = true →
      (s.run.config.mode.allStreams fun i => s.stageOf i = s.stageOf 0) = true →
      s.stageOf 0 ≠ s.encStage → s.stageOf 0 = .tail → s.scoredCompleteEmitted = false →
      Works target s
        ({ s with run := { s.run with currentState := .scoredComplete }, encStage := s.stageOf 0
                  scoredCompleteEmitted := true }.goto (.encode 0 (s.stream 0).next))
        (·.enter .scoredComplete)
  | caught {pin now : UInt32} {deadline : ℕ} : s.worker = .pinRead pin deadline →
      Works target s (s.goto (.pinAdvance (catchUpPin pin now s.interval).1
        (catchUpPin pin now s.interval).2 deadline)) (·.read now (catchUpPin pin now s.interval).2)
  | inTime {pin now : UInt32} {deadline : ℕ} {pc : Pc} : s.worker = .pinRead pin deadline →
      (catchUpPin pin now s.interval).2 = 0 → pc = .gate pin ∨ pc = .pinWait pin deadline →
      Works target s (s.goto pc) (·.read now 0)
  | caughtAtGate {pin now : UInt32} : s.worker = .gate pin →
      Works target s (s.goto (.gateAdvance (catchUpPin pin now s.interval).1
        (catchUpPin pin now s.interval).2)) (·.read now (catchUpPin pin now s.interval).2)
  | passed {pin now : UInt32} : s.worker = .gate pin → (catchUpPin pin now s.interval).2 = 0 →
      Works target s (s.goto (.send 0 pin now)) (·.read now 0)
  | advanced {pin : UInt32} {skipped deadline : ℕ} :
      (∃ d, s.worker = .pinAdvance pin skipped d) ∨ s.worker = .gateAdvance pin skipped →
      Works target s (s.advancePin pin skipped deadline) id
  | sent {i : Fin 2} {pin now : UInt32} {counters : Fin 2 → StreamCounter} :
      s.worker = .send i pin now → minAheadUs ≤ pinAhead pin now → s.isLast i = false →
      s.run.call (s.submitOp i) = ({ s.run with counters := counters }, none) →
      Works target s
        ({ s.modify i (·.accepted s.uptime pin (pinAhead pin now)) with
            run := { s.run with counters := counters } }.goto (.peer pin))
        (s.noteSent i pin now)
  | sentLast {i : Fin 2} {pin now : UInt32} {counters : Fin 2 → StreamCounter} :
      s.worker = .send i pin now → minAheadUs ≤ pinAhead pin now → s.isLast i = true →
      s.run.call (s.submitOp i) = ({ s.run with counters := counters }, none) →
      Works target s
        (({ s.modify i (·.accepted s.uptime pin (pinAhead pin now)) with
            run := { s.run with counters := counters } }.modifyAll
              fun t => { t with next := movePin pin 1 s.interval }).goto .top)
        (s.noteSent i pin now)
  | overflow {i : Fin 2} {pin now : UInt32} {ret : ℤ} :
      s.worker = .send i pin now → minAheadUs ≤ pinAhead pin now → ret ≠ 0 →
      Works target s
        ((s.modify i (·.accepted s.uptime pin (pinAhead pin now))).goto (.returned ret))
        (s.noteSent i pin now)
  | drained {deadline : ℕ} : s.worker = .drain deadline →
      (s.run.config.mode.allStreams fun i => (s.stream i).outstanding = 0) = true →
      Works target s (s.goto (.sync 0)) id
  | undrained {deadline : ℕ} : s.worker = .drain deadline → s.stopPending = false →
      (s.run.config.mode.allStreams fun i => (s.stream i).outstanding = 0) = false →
      Works target s (s.goto (.drainWait deadline)) id
  | synced {i : Fin 2} {ts : UInt32} {pc : Pc} : s.worker = .sync i → s.worker.Moves pc →
      Works target s
        ((s.modify i fun t => { t with syncLast := ts, syncCnt := t.syncCnt + 1 }).goto pc) id

/-! ### Every step -/

section Works

variable {target : ℕ} {s s' : Tx}

theorem Ends.goto {ret : ℤ} (hret : ret ≠ 0) (hentry : s.worker ≠ .entry)
    (hsend : s.worker ≠ .anchorSend) : Ends s (s.goto (.returned ret)) where
  worker := ⟨ret, hret, rfl⟩
  started := ⟨hentry, hsend⟩
  active := rfl
  outstanding _ := rfl
  run := ⟨s.run.counters, .inl rfl⟩

theorem neg_ne_zero_of_pos {n : ℤ} (h : 0 < n) : -n ≠ 0 := by omega

theorem Works.cancelled (hentry : s.worker ≠ .entry) (hsend : s.worker ≠ .anchorSend) :
    Works target s s.cancelled id := by
  unfold Tx.cancelled
  split_ifs <;> exact .ends (.goto (by decide) hentry hsend)

theorem Works.checkStop {pc : Pc} (h : s.worker.Checks pc) :
    Works target s (s.checkStop pc) id := by
  unfold Tx.checkStop
  split_ifs with hstop
  · cases hw : s.worker <;> rw [hw] at h <;> first | cases h; done | skip
    all_goals exact .cancelled (by rw [hw]; rintro ⟨⟩) (by rw [hw]; rintro ⟨⟩)
  · exact .checked h (Bool.eq_false_iff.2 hstop)

/-- The worker reads a counter's overflow as an error. -/
theorem Works.accepted {i : Fin 2} {pin now : UInt32} (hw : s.worker = .send i pin now)
    (hahead : minAheadUs ≤ pinAhead pin now) :
    Works target s (s.accepted i pin now) (s.noteSent i pin now) := by
  have hop : (s.submitOp i).counter = true := by
    unfold Tx.submitOp
    split_ifs <;> rfl
  obtain ⟨counters, hcounters⟩ := s.run.call_counter hop
  unfold Tx.accepted
  cases hcall : s.run.call (s.submitOp i) with
  | mk run ret =>
    rw [hcall] at hcounters
    dsimp only at hcounters
    subst hcounters
    cases ret with
    | some e => exact .overflow hw hahead (neg_ne_zero_of_pos e.value_pos)
    | none =>
      dsimp only
      split_ifs with hlast
      · exact .sentLast hw hahead hlast hcall
      · exact .sent hw hahead (Bool.eq_false_iff.2 hlast) hcall

theorem Works.refused {i : Fin 2} {pin now : UInt32} {ret : ℤ} (hw : s.worker = .send i pin now)
    (hret : ret ≠ 0) : Works target s (s.refused i ret) id := by
  obtain ⟨counters, hcounters⟩ := @State.call_counter
    (s.modify i fun t => { t with lastActivity := s.uptime }).run (.counterSendFailure i) rfl
  refine .ends ⟨⟨ret, hret, rfl⟩, ⟨by rw [hw]; rintro ⟨⟩, by rw [hw]; rintro ⟨⟩⟩, rfl,
    fun j => ?_, counters, .inl hcounters⟩
  show (if j = i then _ else _ : Stream).outstanding = _
  split_ifs <;> rfl

theorem Works.late {i : Fin 2} {pin now : UInt32} (hw : s.worker = .send i pin now) :
    Works target s (s.late i) id := by
  refine .ends ⟨⟨-etime, by decide, rfl⟩, ⟨by rw [hw]; rintro ⟨⟩, by rw [hw]; rintro ⟨⟩⟩, rfl,
    fun j => ?_, s.run.counters, .inl rfl⟩
  show (if j = i then _ else _ : Stream).outstanding = _
  split_ifs <;> rfl

theorem Works.refuseAnchor {ret : ℤ} (hw : s.worker = .anchorSend) (hret : ret ≠ 0) :
    Works target s (s.refuseAnchor.goto (.returned ret)) id := by
  obtain ⟨counters, hcounters⟩ := @State.call_counter
    ({ s with anchorPending := false }.modify 0 Stream.drop : Tx).run (.counterSendFailure 0) rfl
  have heq : s.refuseAnchor.goto (.returned ret) =
      ({ s.modify 0 Stream.drop with
          anchorPending := false, run := { s.run with counters := counters } }.goto
        (.returned ret) : Tx) := by
    unfold Tx.refuseAnchor Tx.count
    rw [hcounters]
    rfl
  rw [heq]
  exact .anchorRefused hw hret

theorem Works.timePin {pin now : UInt32} {deadline : ℕ} (hw : s.worker = .pinRead pin deadline) :
    ∃ f, Works target s (s.timePin pin deadline now) f ∧
      ∀ g, s.noteWork (.clock now) (s.timePin pin deadline now) g = f g := by
  unfold Tx.timePin Tx.noteWork
  rw [hw]
  dsimp only
  split_ifs with hexpired hcaught hlead
  · exact ⟨id, .ends (.goto (by decide) (by rw [hw]; rintro ⟨⟩) (by rw [hw]; rintro ⟨⟩)),
      fun _ => rfl⟩
  · exact ⟨_, .caught hw, fun _ => rfl⟩
  · have hzero : (catchUpPin pin now s.interval).2 = 0 := not_not.1 hcaught
    rw [catchUpPin_fst hzero, hzero]
    exact ⟨_, .inTime hw hzero (.inl rfl), fun _ => rfl⟩
  · have hzero : (catchUpPin pin now s.interval).2 = 0 := not_not.1 hcaught
    rw [catchUpPin_fst hzero, hzero]
    exact ⟨_, .inTime hw hzero (.inr rfl), fun _ => rfl⟩

theorem Works.passGate {pin now : UInt32} (hw : s.worker = .gate pin) :
    ∃ f, Works target s (s.passGate pin now) f ∧
      ∀ g, s.noteWork (.clock now) (s.passGate pin now) g = f g := by
  unfold Tx.passGate Tx.noteWork
  rw [hw]
  dsimp only
  split_ifs with hzero
  · rw [catchUpPin_fst hzero, hzero]
    exact ⟨_, .passed hw hzero, fun _ => rfl⟩
  · exact ⟨_, .caughtAtGate hw, fun _ => rfl⟩

theorem Works.ensureStage {e : Emission} {staged : Bool} (hw : s.worker = .top)
    (hfinished : s.finished = false) (hspace : s.canSend target = true)
    (hstages : (s.run.config.mode.allStreams fun i => s.stageOf i = s.stageOf 0) = true) :
    ∃ f, Works target s (s.ensureStage e staged) f ∧
      ∀ g, s.noteWork (.emitted e staged) (s.ensureStage e staged) g = f g := by
  have hentry : s.worker ≠ .entry := by rw [hw]; rintro ⟨⟩
  have hsend : s.worker ≠ .anchorSend := by rw [hw]; rintro ⟨⟩
  have heio : -eio ≠ 0 := by decide
  have hquiet (s' : Tx) (hrun : s'.run = s.run) (g : History) :
      s.noteWork (.emitted e staged) s' g = g := by
    unfold Tx.noteWork Tx.completes
    rw [hw, hrun]
    cases s.run.currentState <;> rfl
  unfold Tx.ensureStage
  -- the encoders are in the stage of the batch already
  by_cases hsame : s.stageOf 0 = s.encStage
  · rw [if_pos hsame]
    refine ⟨id, ?_, hquiet _ rfl⟩
    have hstage : s.goto (.encode 0 (s.stream 0).next) =
        { s with encStage := s.stageOf 0 }.goto (.encode 0 (s.stream 0).next) := by
      rw [hsame]
    rw [hstage]
    exact .staged hw hfinished hspace hstages (.inl hsame)
  rw [if_neg hsame]
  -- behind the last scored SDU the boundary is recorded first
  by_cases htail : s.stageOf 0 = .tail ∧ s.scoredCompleteEmitted = false
  · obtain ⟨hstage, hemitted⟩ := htail
    rw [if_pos (by rw [hstage, hemitted]; rfl)]
    dsimp only
    rcases s.run.advance_cases .scoredComplete with ⟨err, herr⟩ | ⟨hactive, hindex, hadvance⟩
    · rw [herr]
      exact ⟨id, .ends ⟨⟨-eio, heio, rfl⟩, ⟨hentry, hsend⟩, rfl, fun _ => rfl, s.run.counters,
        .inl rfl⟩, hquiet _ rfl⟩
    · rw [hadvance]
      dsimp only
      have hstreaming : s.run.currentState = .streaming :=
        RunState.index_inj (Nat.succ.inj hindex).symm
      -- a record that is lost ends the stage
      by_cases hqueued : e = .queued
      · have hnote (s' : Tx) (hstate : s'.run.currentState = .scoredComplete) (g : History) :
            s.noteWork (.emitted e staged) s' g = g.enter .scoredComplete := by
          unfold Tx.noteWork Tx.completes
          rw [hw, hstate, hstreaming, hqueued]
          rfl
        rw [if_pos hqueued]
        cases staged with
        | true =>
          exact ⟨_, .boundary hw hfinished hspace hstages hsame hstage hemitted, hnote _ rfl⟩
        | false =>
          exact ⟨_, .endsBehind ⟨⟨-eio, heio, rfl⟩, ⟨hentry, hsend⟩, rfl, fun _ => rfl,
            s.run.counters, .inr rfl⟩, hnote _ rfl⟩
      · rw [if_neg hqueued]
        refine ⟨id, .ends ⟨⟨-eio, heio, rfl⟩, ⟨hentry, hsend⟩, rfl, fun _ => rfl,
          s.run.counters, .inr rfl⟩, fun g => ?_⟩
        simp only [Tx.noteWork, hw, Tx.completes, hqueued, decide_false, Bool.and_false,
          Bool.false_eq_true, if_false, id]
  · rw [if_neg (by simpa using htail)]
    cases staged with
    | true =>
      refine ⟨id, .staged hw hfinished hspace hstages (.inr ?_), hquiet _ rfl⟩
      exact (not_and_or.1 htail).imp id fun h => by simpa using h
    | false => exact ⟨id, .ends (.goto heio hentry hsend), hquiet _ rfl⟩

theorem Works.turn {e : Emission} {staged : Bool} (hw : s.worker = .top) :
    ∃ f, Works target s (s.turn target e staged) f ∧
      ∀ g, s.noteWork (.emitted e staged) (s.turn target e staged) g = f g := by
  have hentry : s.worker ≠ .entry := by rw [hw]; rintro ⟨⟩
  have hsend : s.worker ≠ .anchorSend := by rw [hw]; rintro ⟨⟩
  have hquiet (pc : Pc) (g : History) : s.noteWork (.emitted e staged) (s.goto pc) g = g := by
    unfold Tx.noteWork Tx.completes
    rw [hw]
    show (if (_ && decide (s.run.currentState = _) && _) = true then _ else _) = _
    cases s.run.currentState <;> rfl
  unfold Tx.turn
  split_ifs with hstop hfinished hspace hstuck hstages
  · exact ⟨id, .cancelled hentry hsend, hquiet _⟩
  · exact ⟨id, .finished hw hfinished, hquiet _⟩
  · exact ⟨id, .noSpace hw (Bool.eq_false_iff.2 hstop) (by simpa using hspace), hquiet _⟩
  · exact ⟨id, .ends (.goto (by decide) hentry hsend), hquiet _⟩
  · exact Works.ensureStage hw (Bool.eq_false_iff.2 hfinished) (by simpa using hspace) hstages
  · exact ⟨id, .ends (.goto (by decide) hentry hsend), hquiet _⟩

theorem Works.drain {deadline : ℕ} (hw : s.worker = .drain deadline) :
    Works target s (Tx.drained s deadline) id := by
  have hentry : s.worker ≠ .entry := by rw [hw]; rintro ⟨⟩
  have hsend : s.worker ≠ .anchorSend := by rw [hw]; rintro ⟨⟩
  unfold Tx.drained
  split_ifs with hstop hdrained hexpired
  · exact .cancelled hentry hsend
  · exact .drained hw hdrained
  · exact .ends (.goto (by decide) hentry hsend)
  · exact .undrained hw (Bool.eq_false_iff.2 hstop) (Bool.eq_false_iff.2 hdrained)

theorem Works.wokenTo {pc : Pc} (hpc : s.worker.Waits pc) (h : s.woken pc = some s') :
    Works target s s' id := by
  unfold Tx.woken at h
  split_ifs at h
  obtain rfl := Option.some.inj h
  exact .woken hpc

theorem Works.expiredTo {pc : Pc} {p : Prop} [Decidable p] (hpc : s.worker.Waits pc)
    (h : (if p then some (s.goto pc) else none) = some s') : Works target s s' id := by
  split_ifs at h
  obtain rfl := Option.some.inj h
  exact .expired hpc

theorem Works.refusedTo {ret : ℤ}
    (hworks : ret ≠ 0 → Works target s (s.goto (.returned ret)) id)
    (h : (if ret = 0 then none else some (s.goto (.returned ret))) = some s') :
    Works target s s' id := by
  split_ifs at h with hret
  obtain rfl := Option.some.inj h
  exact hworks hret

theorem Tx.streams_pos (s : Tx) : 0 < s.streams := by
  unfold Tx.streams
  cases s.run.config.mode <;> decide

theorem Tx.streams_le (s : Tx) : s.streams ≤ 2 := by
  unfold Tx.streams
  cases s.run.config.mode <;> decide

/-- Only the first stream may have a successor. -/
theorem Tx.eq_zero_of_not_last (s : Tx) {i : Fin 2} (h : ¬s.isLast i = true) : i = 0 := by
  have hstreams := s.streams_le
  unfold Tx.isLast at h
  rw [decide_eq_true_eq] at h
  exact Fin.ext (by omega)

theorem Tx.moves_sync (s : Tx) (i : Fin 2) :
    Pc.Moves (.sync i) (if s.isLast i then .returned 0 else .sync 1) := by
  split_ifs with hlast
  · exact .syncedLast
  · obtain rfl := s.eq_zero_of_not_last hlast
    exact .syncedFirst

theorem Works.syncedTo {i : Fin 2} {ts : UInt32} (hw : s.worker = .sync i) :
    Works target s (s.synced i ts) id :=
  .synced hw (hw ▸ s.moves_sync i)

/-- The places from which a step may enter something into the record. -/
def Pc.notes : Pc → Bool
  | .anchorSend | .readback | .top | .pinRead _ _ | .gate _ | .send _ _ _ => true
  | _ => false

theorem noteWork_eq {a : Answer} (h : s.worker.notes = false) (g : History) :
    s.noteWork a s' g = g := by
  unfold Tx.noteWork
  cases hw : s.worker <;> first | rfl | (rw [hw] at h; cases h)

/-- **Every step of the worker.** -/
theorem works {a : Answer} (h : s.work target a = some s') :
    ∃ f, Works target s s' f ∧ ∀ g, s.noteWork a s' g = f g := by
  -- what most places give: a step without a note, or an error that ends the call
  have quiet (hnotes : s.worker.notes = false) (hworks : Works target s s' id) :
      ∃ f, Works target s s' f ∧ ∀ g, s.noteWork a s' g = f g :=
    ⟨id, hworks, noteWork_eq hnotes⟩
  have fails {ret : ℤ} (hentry : s.worker ≠ .entry) (hsend : s.worker ≠ .anchorSend)
      (hret : ret ≠ 0) : Works target s (s.goto (.returned ret)) id :=
    .ends (.goto hret hentry hsend)
  unfold Tx.work at h
  -- one case for each place; an answer that the place does not take gives no step
  cases hw : s.worker with
  | entry =>
    rw [hw] at h quiet
    cases a with
    | go =>
      obtain rfl := Option.some.inj h
      exact quiet rfl (.enter hw)
    | _ => cases h
  | encoders again =>
    rw [hw] at h quiet fails
    cases a with
    | returned ret =>
      obtain rfl := Option.some.inj h
      refine quiet rfl ?_
      unfold Tx.initEncoders
      -- behind the encoders the bootstrap SDU comes, or the batches
      split_ifs with hret hagain
      · exact .ends ⟨⟨ret, hret, rfl⟩, ⟨by rw [hw]; rintro ⟨⟩, by rw [hw]; rintro ⟨⟩⟩, rfl,
          fun _ => rfl, s.run.counters, .inl rfl⟩
      · obtain rfl := hagain
        exact .encoders hw
      · obtain rfl := Bool.eq_false_iff.2 hagain
        exact .encoders hw
    | _ => cases h
  | anchorEncode =>
    rw [hw] at h quiet fails
    cases a with
    | returned ret =>
      obtain rfl := Option.some.inj h
      refine quiet rfl ?_
      split_ifs with hret
      · exact fails (by rintro ⟨⟩) (by rintro ⟨⟩) (Int.ne_of_lt hret)
      · exact .moves (by rw [hw]; exact .anchorEncoded)
    | _ => cases h
  | anchorCheck =>
    rw [hw] at h quiet
    cases a with
    | go =>
      obtain rfl := Option.some.inj h
      exact quiet rfl (.checkStop (by rw [hw]; exact .anchor))
    | _ => cases h
  | anchorAccount =>
    rw [hw] at h quiet
    cases a with
    | go =>
      obtain rfl := Option.some.inj h
      exact quiet rfl (.account hw)
    | _ => cases h
  | anchorSend =>
    rw [hw] at h
    cases a with
    | returned ret =>
      obtain rfl := Option.some.inj h
      unfold Tx.noteWork
      rw [hw]
      dsimp only
      split_ifs with hret
      · exact ⟨_, .anchorAccepted hw, fun _ => rfl⟩
      · exact ⟨id, .refuseAnchor hw hret, fun _ => rfl⟩
    | _ => cases h
  | anchorSent =>
    rw [hw] at h quiet
    cases a with
    | go =>
      obtain rfl := Option.some.inj h
      exact quiet rfl (.anchorSequence hw)
    | _ => cases h
  | anchorPoll deadline =>
    rw [hw] at h quiet
    cases a with
    | go =>
      obtain rfl := Option.some.inj h
      exact quiet rfl (.checkStop (by rw [hw]; exact .poll))
    | _ => cases h
  | anchorDue deadline =>
    rw [hw] at h quiet fails
    cases a with
    | go =>
      obtain rfl := Option.some.inj h
      refine quiet rfl ?_
      unfold Tx.pollAnchor
      -- the readback is due, or the poll has run out, or it goes on
      split_ifs with hdue hexpired
      · exact .due hw hdue
      · exact fails (by rintro ⟨⟩) (by rintro ⟨⟩) (by decide)
      · exact .notDue hw (Bool.eq_false_iff.2 hdue)
    | _ => cases h
  | anchorWait deadline =>
    rw [hw] at h quiet
    cases a with
    | go => exact quiet rfl (.wokenTo (by rw [hw]; exact .anchor) h)
    | timeout => exact quiet rfl (.expiredTo (by rw [hw]; exact .anchor) h)
    | _ => cases h
  | readback =>
    rw [hw] at h fails
    cases a with
    | returned ret =>
      exact ⟨id, .refusedTo (fails (by rintro ⟨⟩) (by rintro ⟨⟩)) h,
        fun g => by simp only [Tx.noteWork, hw, id]⟩
    | stamp ts =>
      obtain rfl := Option.some.inj h
      exact ⟨_, .anchored hw, fun g => by simp only [Tx.noteWork, hw]⟩
    | _ => cases h
  | top =>
    rw [hw] at h
    cases a with
    | emitted e staged =>
      obtain rfl := Option.some.inj h
      exact Works.turn hw
    | _ => cases h
  | spaceWait deadline =>
    rw [hw] at h quiet
    cases a with
    | go => exact quiet rfl (.wokenTo (by rw [hw]; exact .space) h)
    | timeout => exact quiet rfl (.expiredTo (by rw [hw]; exact .space) h)
    | _ => cases h
  | encode i pin =>
    rw [hw] at h quiet fails
    cases a with
    | returned ret =>
      obtain rfl := Option.some.inj h
      refine quiet rfl ?_
      unfold Tx.encoded
      -- behind the last stream the batch is complete
      split_ifs with hret hlast
      · exact fails (by rintro ⟨⟩) (by rintro ⟨⟩) (Int.ne_of_lt hret)
      · exact .moves (by rw [hw]; exact .encodedLast)
      · obtain rfl := s.eq_zero_of_not_last hlast
        exact .moves (by rw [hw]; exact .encodedFirst)
    | _ => cases h
  | batch pin =>
    rw [hw] at h quiet
    cases a with
    | go =>
      obtain rfl := Option.some.inj h
      exact quiet rfl (.moves (by rw [hw]; exact .batch))
    | _ => cases h
  | pinCheck pin deadline =>
    rw [hw] at h quiet fails
    cases a with
    | go =>
      obtain rfl := Option.some.inj h
      refine quiet rfl ?_
      split_ifs with hexpired
      · exact fails (by rintro ⟨⟩) (by rintro ⟨⟩) (by decide)
      · exact .checkStop (by rw [hw]; exact .pin)
    | _ => cases h
  | pinRead pin deadline =>
    rw [hw] at h fails
    cases a with
    | returned ret =>
      exact ⟨id, .refusedTo (fails (by rintro ⟨⟩) (by rintro ⟨⟩)) h,
        fun g => by simp only [Tx.noteWork, hw, id]⟩
    | clock now =>
      obtain rfl := Option.some.inj h
      exact Works.timePin hw
    | _ => cases h
  | pinAdvance pin skipped deadline =>
    rw [hw] at h quiet
    cases a with
    | go =>
      obtain rfl := Option.some.inj h
      exact quiet rfl (.advanced (.inl ⟨deadline, hw⟩))
    | _ => cases h
  | pinWait pin deadline =>
    rw [hw] at h quiet
    cases a with
    | go => exact quiet rfl (.wokenTo (by rw [hw]; exact .pin) h)
    | timeout =>
      obtain rfl := Option.some.inj h
      exact quiet rfl (.expired (by rw [hw]; exact .pin))
    | _ => cases h
  | gate pin =>
    rw [hw] at h fails
    cases a with
    | returned ret =>
      exact ⟨id, .refusedTo (fails (by rintro ⟨⟩) (by rintro ⟨⟩)) h,
        fun g => by simp only [Tx.noteWork, hw, id]⟩
    | clock now =>
      obtain rfl := Option.some.inj h
      exact Works.passGate hw
    | _ => cases h
  | gateAdvance pin skipped =>
    rw [hw] at h quiet
    cases a with
    | go =>
      obtain rfl := Option.some.inj h
      exact quiet rfl (.advanced (.inr hw))
    | _ => cases h
  | send i pin now =>
    rw [hw] at h
    cases a with
    | go =>
      dsimp only at h
      split_ifs at h with hlate
      obtain rfl := Option.some.inj h
      exact ⟨id, .late hw, fun g => by simp only [Tx.noteWork, hw, id]⟩
    | returned ret =>
      dsimp only at h
      -- a stream that is late is not handed to the backend
      by_cases hlate : pinAhead pin now < minAheadUs
      · rw [if_pos hlate] at h
        cases h
      rw [if_neg hlate] at h
      obtain rfl := Option.some.inj h
      unfold Tx.noteWork
      rw [hw]
      dsimp only
      split_ifs with hret
      · exact ⟨_, .accepted hw (Int.not_lt.1 hlate), fun _ => rfl⟩
      · exact ⟨id, .refused hw hret, fun _ => rfl⟩
    | _ => cases h
  | peer pin =>
    rw [hw] at h quiet fails
    cases a with
    | returned ret => exact quiet rfl (.refusedTo (fails (by rintro ⟨⟩) (by rintro ⟨⟩)) h)
    | clock now =>
      obtain rfl := Option.some.inj h
      exact quiet rfl (.moves (by rw [hw]; exact .peer))
    | _ => cases h
  | drain deadline =>
    rw [hw] at h quiet
    cases a with
    | go =>
      obtain rfl := Option.some.inj h
      exact quiet rfl (.drain hw)
    | _ => cases h
  | drainWait deadline =>
    rw [hw] at h quiet
    cases a with
    | go => exact quiet rfl (.wokenTo (by rw [hw]; exact .drain) h)
    | timeout => exact quiet rfl (.expiredTo (by rw [hw]; exact .drain) h)
    | _ => cases h
  | sync i =>
    rw [hw] at h quiet
    cases a with
    | stamp ts =>
      obtain rfl := Option.some.inj h
      exact quiet rfl (.syncedTo hw)
    | returned ret =>
      dsimp only at h
      split_ifs at h
      obtain rfl := Option.some.inj h
      exact quiet rfl (.moves (by rw [hw]; exact s.moves_sync i))
    | _ => cases h
  | returned ret =>
    rw [hw] at h
    cases a <;> cases h

end Works

/-! ### The run state -/

/-- The configuration and the flags stay, and the state moves to the boundary at most. -/
structure Keeps (r r' : State) : Prop where
  config : r'.config = r.config
  active : r'.active = r.active
  stop : r'.stopRequested = r.stopRequested
  state : r'.currentState = r.currentState ∨ r'.currentState = .scoredComplete

theorem Ends.keeps {s s' : Tx} (h : Ends s s') : Keeps s.run s'.run := by
  obtain ⟨counters, hrun | hrun⟩ := h.run
  · rw [hrun]
    exact ⟨rfl, rfl, rfl, .inl rfl⟩
  · rw [hrun]
    exact ⟨rfl, rfl, rfl, .inr rfl⟩

theorem Works.keeps {target : ℕ} {s s' : Tx} {f : History → History} (h : Works target s s' f) :
    Keeps s.run s'.run := by
  cases h with
  | ends hends => exact hends.keeps
  | endsBehind hends => exact hends.keeps
  | boundary => exact ⟨rfl, rfl, rfl, .inr rfl⟩
  | _ => exact ⟨rfl, rfl, rfl, .inl rfl⟩

/-! ### The other threads -/

/-- The sent callback where nothing is stale and an SDU is outstanding. -/
theorem Tx.sent_eq {s : Tx} (hactive : s.run.active = true)
    (hstate : s.run.currentState ≠ .teardown) (htx : s.active = true) {i : Fin 2}
    (hout : (s.stream i).outstanding ≠ 0) :
    ∃ counters pending due,
      s.sent i =
        { s.modify i fun t => { t.drop with lastActivity := s.uptime } with
          run := { s.run with counters := counters }, anchorPending := pending
          readbackDue := due, wake := true } := by
  have hstale : s.stale = false := by
    unfold Tx.stale
    rw [hactive, htx, decide_eq_false hstate]
    rfl
  have hcounted (b : Bool) : ∃ counters, (if b then s.count (.counterSentCallback i) else s) =
      { s with run := { s.run with counters := counters } } := by
    cases b with
    | true =>
      obtain ⟨counters, hcounters⟩ := @State.call_counter s.run (.counterSentCallback i) rfl
      refine ⟨counters, ?_⟩
      unfold Tx.count
      rw [if_pos rfl, hcounters]
    | false => exact ⟨s.run.counters, rfl⟩
  obtain ⟨counters, hcounters⟩ :=
    hcounted (s.run.active && !(!s.stale && decide (i = 0) && s.anchorPending))
  unfold Tx.sent
  dsimp only
  rw [hcounters, hstale]
  simp only [Bool.false_eq_true, if_false, if_neg hout]
  exact ⟨counters, _, _, rfl⟩

/-- What the sent callback does: nothing but counting, an error, or an SDU less and a token. -/
theorem Tx.sent_cases (s : Tx) (i : Fin 2) :
    ∃ counters,
      s.sent i = { s with run := { s.run with counters := counters } } ∨
      s.sent i = ({ s with run := { s.run with counters := counters } } : Tx).raise ∨
      ∃ pending due,
        s.sent i =
          { s.modify i fun t => { t.drop with lastActivity := s.uptime } with
            run := { s.run with counters := counters }, anchorPending := pending
            readbackDue := due, wake := true } := by
  have hcounted (b : Bool) : ∃ counters, (if b then s.count (.counterSentCallback i) else s) =
      { s with run := { s.run with counters := counters } } := by
    cases b with
    | true =>
      obtain ⟨counters, hcounters⟩ := @State.call_counter s.run (.counterSentCallback i) rfl
      refine ⟨counters, ?_⟩
      unfold Tx.count
      rw [if_pos rfl, hcounters]
    | false => exact ⟨s.run.counters, rfl⟩
  obtain ⟨counters, hcounters⟩ :=
    hcounted (s.run.active && !(!s.stale && decide (i = 0) && s.anchorPending))
  refine ⟨counters, ?_⟩
  unfold Tx.sent
  dsimp only
  rw [hcounters]
  split_ifs
  · exact .inl rfl
  · exact .inr (.inl rfl)
  · exact .inr (.inr ⟨_, _, rfl⟩)

/-- A status is answered, or the error flag is raised. -/
theorem Tx.emitStatus_cases (s : Tx) (e : Emission) :
    s.emitStatus e = s ∨ s.emitStatus e = s.raise := by
  cases e with
  | queued => exact .inl rfl
  | refused => exact .inr rfl
  | unformatted =>
    unfold Tx.emitStatus
    split_ifs
    · exact .inr rfl
    · exact .inl rfl

theorem Tx.stop_eq {s : Tx} (hactive : s.run.active = true) (e : Emission) :
    s.stop e =
      ({ s with run := { s.run with stopRequested := true }, wake := true } : Tx).emitStatus e := by
  have hcall : (s.run.call .stopRequest).1 = { s.run with stopRequested := true } := by
    simp [State.call, State.stopRequest, hactive]
  unfold Tx.stop
  rw [if_pos hactive, hcall]

/-! ### Steps that go well -/

section Steps

variable {s : Tx} {pin now : UInt32} {deadline : ℕ}

theorem Tx.timePin_caught {pin' : UInt32} {skipped : ℕ} (hdeadline : s.uptime < deadline)
    (hcaught : catchUpPin pin now s.interval = (pin', skipped)) (hskipped : skipped ≠ 0) :
    s.timePin pin deadline now = s.goto (.pinAdvance pin' skipped deadline) := by
  unfold Tx.timePin
  rw [if_neg (Nat.not_le.2 hdeadline), hcaught]
  exact if_pos hskipped

theorem Tx.timePin_inTime (hdeadline : s.uptime < deadline)
    (hcaught : catchUpPin pin now s.interval = (pin, 0)) (hlead : pinAhead pin now ≤ leadTargetUs) :
    s.timePin pin deadline now = s.goto (.gate pin) := by
  unfold Tx.timePin
  rw [if_neg (Nat.not_le.2 hdeadline), hcaught]
  exact if_pos hlead

theorem Tx.passGate_inTime (hcaught : catchUpPin pin now s.interval = (pin, 0)) :
    s.passGate pin now = s.goto (.send 0 pin now) := by
  unfold Tx.passGate
  rw [hcaught]
  rfl

theorem Tx.checkStop_eq {pc : Pc} (hstop : s.stopPending = false) : s.checkStop pc = s.goto pc := by
  unfold Tx.checkStop
  rw [hstop]
  rfl

theorem Tx.accepted_first {i : Fin 2} {run : State} {lead : ℤ}
    (hcall : s.run.call (s.submitOp i) = (run, none)) (hlast : s.isLast i = false)
    (hlead : pinAhead pin now = lead) :
    s.accepted i pin now =
      ({ s.modify i (·.accepted s.uptime pin lead) with run := run } : Tx).goto (.peer pin) := by
  unfold Tx.accepted
  rw [hcall, hlead]
  dsimp only
  rw [hlast]
  rfl

theorem Tx.accepted_last {i : Fin 2} {run : State} {lead : ℤ}
    (hcall : s.run.call (s.submitOp i) = (run, none)) (hlast : s.isLast i = true)
    (hlead : pinAhead pin now = lead) :
    s.accepted i pin now =
      (({ s.modify i (·.accepted s.uptime pin lead) with run := run } : Tx).modifyAll
        fun t => { t with next := movePin pin 1 s.interval }).goto .top := by
  unfold Tx.accepted
  rw [hcall, hlead]
  dsimp only
  rw [if_pos hlast]

theorem Tx.send_accepted {target : ℕ} {i : Fin 2} {s' : Tx} (hw : s.worker = .send i pin now)
    (hahead : minAheadUs ≤ pinAhead pin now) (haccepted : s.accepted i pin now = s') :
    s.next target (.work (.returned 0)) = some s' := by
  change s.work target (.returned 0) = some s'
  unfold Tx.work
  rw [hw]
  exact (if_neg (Int.not_lt.2 hahead)).trans (congrArg some haccepted)

theorem Tx.sent_batch {i : Fin 2} {run : State} (hactive : s.run.active = true)
    (hstate : s.run.currentState ≠ .teardown) (htx : s.active = true)
    (hpending : s.anchorPending = false) (hout : (s.stream i).outstanding ≠ 0)
    (hcall : s.run.call (.counterSentCallback i) = (run, none)) :
    s.sent i =
      { s.modify i fun t => { t.drop with lastActivity := s.uptime } with
        run := run, anchorPending := false, wake := true } := by
  have hstale : s.stale = false := by
    unfold Tx.stale
    rw [hactive, htx, decide_eq_false hstate]
    rfl
  have hcount : s.count (.counterSentCallback i) = { s with run := run } := by
    unfold Tx.count
    rw [hcall]
  unfold Tx.sent
  simp only [hstale, hpending, hactive, hcount, Bool.and_false, Bool.not_false, Bool.and_true,
    Bool.or_false, if_true, Bool.false_eq_true, if_false, if_neg hout]
  rfl

end Steps

end Transmit

end Hil

end LeAudioReceiver
