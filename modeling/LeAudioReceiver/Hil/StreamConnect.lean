import LeAudioReceiver.Hil.App
import Mathlib.Data.List.Forall2

/-!
# Connecting the streams one at a time

A model of `hil_app_op_stream_connect` in `src/hil/source/app/src/hil_source_app.c` with
`hil_app_wait_event` and `hil_app_retry_state`, and of what it uses of `hil_source_bap.c`:
`bap_kick_stream_connect`, `bap_stream_connect_outcome` and the callbacks `stream_connected_cb` and
`stream_disconnected_cb`.

The worker and the thread of the callbacks interleave at every lock and every semaphore.  A callback
may name either stream or none at any time, the stack may answer a connect request with anything,
and other callbacks may record an error; `log` notes the attempts and what ended them.

* `StreamConnect.Block` : what is noted while a stream is connected.
* `StreamConnect.connect_ok` : **if the operation succeeds, the log is one block for each stream, in
  order**: every stream had an attempt of its own that was ended by its own completion, after at
  most one attempt that failed, and no attempt began before the one before it was over.

The time that passes is in the answers to the waits.
-/

namespace LeAudioReceiver

namespace Hil

/-- `EALREADY`. -/
def ealready : ℤ := 114

/-- `HIL_SOURCE_MAX_STREAMS`. -/
def maxStreams : ℕ := 2

/-- `HIL_SOURCE_OP_TIMEOUT_STREAM_MS`. -/
def opTimeoutStreamMs : ℕ := 10000

/-- `HIL_APP_STREAM_CONNECT_MAX_RETRIES`. -/
def streamConnectMaxRetries : ℕ := 1

namespace StreamConnect

/-- `enum hil_source_stream_connect_outcome`. -/
inductive Outcome where
  | connected
  | retryableFailure
  | error
  deriving DecidableEq, Repr

/-- What the log notes about a stream. -/
inductive Event where
  /-- An attempt begins. -/
  | kicked (i : ℕ)
  /-- A callback for the stream ends the attempt: it is connected. -/
  | connected (i : ℕ)
  /-- A callback for the stream ends the attempt: it failed. -/
  | dropped (i : ℕ)
  /-- A callback for another stream ends the attempt. -/
  | confused (i : ℕ)
  /-- The stack says that the stream is connected already. -/
  | already (i : ℕ)
  deriving DecidableEq, Repr

/-- Where the worker stands, with the stream and the retries so far. -/
inductive Pc where
  /-- The head of the loop over the streams. -/
  | loop (i : ℕ)
  | kick (i retries : ℕ)
  /-- In `bt_bap_stream_connect`. -/
  | call (i retries : ℕ)
  /-- It returned `-EALREADY`. -/
  | already (i retries : ℕ)
  /-- The completion is stored and not given. -/
  | give (i retries : ℕ)
  /-- It returned another error. -/
  | failed (i : ℕ) (err : ℤ)
  /-- The head of the loop of `hil_app_wait_event`. -/
  | wait (i retries waited : ℕ)
  /-- In `k_sem_take`. -/
  | take (i retries waited : ℕ)
  /-- In `stream_connect_outcome`. -/
  | outcome (i retries : ℕ)
  /-- The stream is connected; the error is to be read. -/
  | check (i retries : ℕ)
  /-- In the first `hil_app_retry_state`. -/
  | retry (i retries : ℕ)
  /-- In the second one, behind the delay. -/
  | retryDelayed (i retries : ℕ)
  /-- The attempt went wrong; the error is to be read. -/
  | report
  | done (ret : ℤ)
  deriving DecidableEq, Repr

/-- What the worker and the callbacks share, and where they stand. -/
structure St where
  worker : Pc
  opError : ℤ
  /-- `stream_connect_pending_idx`; `none` is `UINT8_MAX`. -/
  pending : Option ℕ
  /-- `stream_connect_completion_idx`. -/
  completion : Option ℕ
  /-- `stream_connect_completion_outcome`. -/
  outcome : Outcome
  /-- `sem_stream_connected`. -/
  sem : ℕ
  /-- A callback has left the lock and gives the semaphore next. -/
  giving : Bool
  stopRequested : Bool
  runtimeError : Bool
  log : List Event
  deriving DecidableEq

namespace St

/-- `k_sem_give(&sem_stream_connected)`. -/
def semGive (s : St) : St := { s with sem := min (s.sem + 1) 4 }

/-- The first error is kept. -/
def recordError (s : St) (err : ℤ) : St := if s.opError = 0 then { s with opError := err } else s

/-- `hil_app_retry_state`. -/
def retryState (s : St) : ℤ :=
  if s.stopRequested then -ecanceled else if s.runtimeError then -eio else 0

/-- `bap_stream_connect_outcome`. -/
def streamConnectOutcome (s : St) (i : ℕ) : Outcome :=
  if s.completion = some i then s.outcome else .error

/-- What ends a step of the worker. -/
inductive Answer where
  | go
  /-- `bt_bap_stream_connect` returns. -/
  | returned (ret : ℤ)
  /-- `k_sem_take` gets the token. -/
  | taken
  /-- `k_sem_take` times out. -/
  | expired
  deriving DecidableEq, Repr

/-- One step of the worker, up to the next place where another thread may come in between. -/
def work (streams : ℕ) (s : St) (a : Answer) : Option St :=
  match s.worker, a with
  | .loop i, .go => some { s with worker := if i < streams then .kick i 0 else .done 0 }
  | .kick i retries, .go =>
    if i ≥ streams ∨ i ≥ maxStreams then some { s with worker := .done (-einval) }
    else
      some { s with
        worker := .call i retries
        opError := 0
        pending := some i
        completion := none
        outcome := .error
        log := s.log ++ [.kicked i] }
  | .call i retries, .returned ret =>
    if ret = -ealready then some { s with worker := .already i retries }
    else if ret ≠ 0 then some { s with worker := .failed i ret }
    else some { s with worker := .wait i retries 0 }
  | .already i retries, .go =>
    some { s with
      worker := .give i retries
      completion := some i
      outcome := .connected
      pending := none
      log := s.log ++ [.already i] }
  | .give i retries, .go => some { s.semGive with worker := .wait i retries 0 }
  | .failed i err, .go =>
    if s.pending = some i then
      some { s with worker := .done err, pending := none, completion := none, outcome := .error }
    else some { s with worker := .done err }
  | .wait i retries waited, .go =>
    if waited < opTimeoutStreamMs then
      if s.stopRequested ∨ s.runtimeError then
        some { s with worker := .done (if s.stopRequested then -ecanceled else -eio) }
      else some { s with worker := .take i retries waited }
    else some { s with worker := .done (-etimedout) }
  | .take i retries _, .taken =>
    if 0 < s.sem then some { s with worker := .outcome i retries, sem := s.sem - 1 } else none
  | .take i retries waited, .expired =>
    some { s with worker := .wait i retries (waited + min 100 (opTimeoutStreamMs - waited)) }
  | .outcome i retries, .go =>
    match s.streamConnectOutcome i with
    | .connected => some { s with worker := .check i retries }
    | .retryableFailure =>
      if retries ≥ streamConnectMaxRetries then some { s with worker := .done (-eio) }
      else some { s with worker := .retry i (retries + 1) }
    | .error => some { s with worker := .report }
  | .check i _, .go =>
    some { s with worker := if s.opError ≠ 0 then .done s.opError else .loop (i + 1) }
  | .retry i retries, .go =>
    some { s with
      worker := if s.retryState ≠ 0 then .done s.retryState else .retryDelayed i retries }
  | .retryDelayed i retries, .go =>
    some { s with worker := if s.retryState ≠ 0 then .done s.retryState else .kick i retries }
  | .report, .go =>
    some { s with worker := .done (if s.opError ≠ 0 then s.opError else -eio) }
  | _, _ => none

/-- What ends the attempt on a stream, by the stream that the callback names. -/
def ended (matching : Event) (p : ℕ) (idx : Option ℕ) : Event :=
  if idx = some p then matching else .confused p

/-- The end of a pending attempt, as both callbacks store it. -/
def complete (s : St) (p : ℕ) (idx : Option ℕ) (outcome : Outcome) (matching : Event) : St :=
  { if idx = some p then { s with outcome }
    else { s.recordError (-eio) with outcome := .error } with
    completion := some p
    pending := none
    giving := true
    log := s.log ++ [ended matching p idx] }

/-- `stream_connected_cb`, up to the semaphore; `none` is a stream that is not of the source. -/
def connectedCb (s : St) (idx : Option ℕ) : St :=
  match s.pending with
  | some p => s.complete p idx .connected (.connected p)
  | none => if idx = none then s.recordError (-eio) else s

/-- `stream_disconnected_cb`, up to the semaphore. -/
def disconnectedCb (s : St) (idx : Option ℕ) : St :=
  match s.pending with
  | some p => s.complete p idx .retryableFailure (.dropped p)
  | none => s

end St

/-- What happens while the streams are connected. -/
inductive Action where
  | work (a : St.Answer)
  | connected (idx : Option ℕ)
  | disconnected (idx : Option ℕ)
  /-- The callback gives the semaphore. -/
  | given
  /-- Another callback records an error. -/
  | fails (err : ℤ)
  | stop
  | breaks
  deriving DecidableEq

/-- One action; `none` where it cannot happen. -/
def next (streams : ℕ) (s : St) : Action → Option St
  | .work a => s.work streams a
  | .connected idx => if s.giving then none else some (s.connectedCb idx)
  | .disconnected idx => if s.giving then none else some (s.disconnectedCb idx)
  | .given => if s.giving then some { s.semGive with giving := false } else none
  | .fails err => some (s.recordError err)
  | .stop => some { s with stopRequested := true }
  | .breaks => some { s with runtimeError := true }

/-- The operation on a number of streams, from a segment in which none is pending. -/
def machine (streams : ℕ) : Machine St Action where
  init s := s.worker = .loop 0 ∧ s.pending = none ∧ s.log = []
  next := next streams

/-! ### What the log of a stream looks like -/

/-- How an attempt ends after which the stream is connected. -/
inductive Ends (i : ℕ) : List Event → Prop
  | connected : Ends i [.connected i]
  | already : Ends i [.already i]
  /-- A callback came between the request and its answer. -/
  | connectedAlready : Ends i [.connected i, .already i]
  | droppedAlready : Ends i [.dropped i, .already i]

/-- The attempts on a stream that failed. -/
def failures (i retries : ℕ) : List Event :=
  (List.replicate retries [.kicked i, .dropped i]).flatten

/-- The log of a stream that was connected. -/
def Block (i : ℕ) (es : List Event) : Prop :=
  ∃ retries last, retries ≤ streamConnectMaxRetries ∧ Ends i last ∧
    es = failures i retries ++ .kicked i :: last

/-- The log of the first streams. -/
def Blocks (n : ℕ) (log : List Event) : Prop :=
  ∃ blocks, List.Forall₂ Block (List.range n) blocks ∧ log = blocks.flatten

/-- The log where an attempt may begin: the streams before are connected, and what was tried on this
one is over. -/
def Ready (i : ℕ) (log : List Event) : Prop :=
  ∃ before retries, Blocks i before ∧ retries ≤ streamConnectMaxRetries ∧
    log = before ++ failures i retries

/-- Every attempt of the log began where it may. -/
def Ordered (log : List Event) : Prop :=
  ∀ before i, before ++ [.kicked i] <+: log → Ready i before

theorem Blocks.zero : Blocks 0 [] := ⟨[], .nil, rfl⟩

theorem Blocks.succ {n : ℕ} {log es : List Event} (h : Blocks n log) (hes : Block n es) :
    Blocks (n + 1) (log ++ es) := by
  obtain ⟨blocks, hblocks, rfl⟩ := h
  refine ⟨blocks ++ [es], ?_, by simp⟩
  rw [List.range_succ]
  exact List.rel_append hblocks (.cons hes .nil)

theorem Ordered.nil : Ordered [] := by
  intro before i h
  exact absurd (List.prefix_nil.1 h) (by simp)

/-- What ends an attempt is no attempt. -/
theorem Ordered.append {log : List Event} (h : Ordered log) {e : Event}
    (he : ∀ i, e ≠ .kicked i) : Ordered (log ++ [e]) := by
  intro before i hprefix
  rcases List.prefix_concat_iff.1 hprefix with heq | hprefix
  · exact absurd (List.append_inj_right' heq rfl) (by simpa using (he i).symm)
  · exact h before i hprefix

theorem Ordered.kicked {log : List Event} (h : Ordered log) {i : ℕ} (hi : Ready i log) :
    Ordered (log ++ [.kicked i]) := by
  intro before j hprefix
  rcases List.prefix_concat_iff.1 hprefix with heq | hprefix
  · obtain ⟨rfl, hj⟩ := List.append_inj' heq rfl
    cases hj
    exact hi
  · exact h before j hprefix

/-! ### Where the attempt stands -/

/-- What is noted of an attempt, as the callbacks left it. -/
inductive Attempt (s : St) (i : ℕ) : List Event → Prop
  | pending : s.pending = some i → s.completion = none → Attempt s i []
  | connected : s.pending = none → s.completion = some i → s.outcome = .connected →
      Attempt s i [.connected i]
  | dropped : s.pending = none → s.completion = some i → s.outcome = .retryableFailure →
      Attempt s i [.dropped i]
  | confused : s.pending = none → s.completion = some i → s.outcome = .error → s.opError ≠ 0 →
      Attempt s i [.confused i]

/-- The attempt is over and the stream is connected, unless an error is recorded. -/
structure Won (s : St) (i : ℕ) (last : List Event) : Prop where
  pending : s.pending = none
  ends : s.opError = 0 → Ends i last

/-- What is noted of an attempt that the stack answered at once. -/
structure Answered (s : St) (i : ℕ) (last : List Event) : Prop extends Won s i last where
  completion : s.completion = some i
  outcome : s.outcome = .connected

/-- The worker is leaving the operation with an error. -/
def Failing (pc : Pc) : Prop :=
  pc = .report ∨ (∃ i err, err ≠ 0 ∧ pc = .failed i err) ∨ ∃ ret, ret ≠ 0 ∧ pc = .done ret

/-- Where the worker stands with a stream, and what is noted of the stream. -/
inductive Now (streams : ℕ) (s : St) : ℕ → List Event → Prop
  | loop {i : ℕ} : s.worker = .loop i → i ≤ streams → s.pending = none → Now streams s i []
  | ready {i retries : ℕ} : retries ≤ streamConnectMaxRetries →
      s.worker = .kick i retries ∨ s.worker = .retry i retries ∨
        s.worker = .retryDelayed i retries → i < streams → s.pending = none →
      Now streams s i (failures i retries)
  | called {i retries : ℕ} {last : List Event} : retries ≤ streamConnectMaxRetries →
      s.worker = .call i retries ∨ s.worker = .already i retries → i < streams →
      Attempt s i last → Now streams s i (failures i retries ++ .kicked i :: last)
  | answered {i retries : ℕ} {last : List Event} : retries ≤ streamConnectMaxRetries →
      s.worker = .give i retries → i < streams → Answered s i last →
      Now streams s i (failures i retries ++ .kicked i :: last)
  | waiting {i retries waited : ℕ} {last : List Event} : retries ≤ streamConnectMaxRetries →
      s.worker = .wait i retries waited ∨ s.worker = .take i retries waited ∨
        s.worker = .outcome i retries → i < streams → Attempt s i last ∨ Answered s i last →
      Now streams s i (failures i retries ++ .kicked i :: last)
  | check {i retries : ℕ} {last : List Event} : retries ≤ streamConnectMaxRetries →
      s.worker = .check i retries → i < streams → Won s i last →
      Now streams s i (failures i retries ++ .kicked i :: last)
  | done : s.worker = .done 0 → s.pending = none → Now streams s streams []

/-- What holds in every state. -/
structure Inv (streams : ℕ) (s : St) : Prop where
  ordered : Ordered s.log
  now : Failing s.worker ∨
    ∃ i before es, Blocks i before ∧ s.log = before ++ es ∧ Now streams s i es

variable {streams : ℕ} {s s' : St}

/-! ### What other threads do -/

/-- Nothing changes for the attempts, and an error that is recorded stays. -/
structure Same (s s' : St) : Prop where
  worker : s'.worker = s.worker
  pending : s'.pending = s.pending
  completion : s'.completion = s.completion
  outcome : s'.outcome = s.outcome
  log : s'.log = s.log
  opError : s'.opError = 0 → s.opError = 0

theorem Attempt.same {i : ℕ} {last : List Event} (h : Attempt s i last) (hs : Same s s') :
    Attempt s' i last := by
  cases h with
  | pending hp hc => exact .pending (hs.pending.trans hp) (hs.completion.trans hc)
  | connected hp hc ho =>
    exact .connected (hs.pending.trans hp) (hs.completion.trans hc) (hs.outcome.trans ho)
  | dropped hp hc ho =>
    exact .dropped (hs.pending.trans hp) (hs.completion.trans hc) (hs.outcome.trans ho)
  | confused hp hc ho he =>
    exact .confused (hs.pending.trans hp) (hs.completion.trans hc) (hs.outcome.trans ho)
      fun h => he (hs.opError h)

theorem Won.same {i : ℕ} {last : List Event} (h : Won s i last) (hs : Same s s') : Won s' i last :=
  ⟨hs.pending.trans h.pending, fun he => h.ends (hs.opError he)⟩

theorem Answered.same {i : ℕ} {last : List Event} (h : Answered s i last) (hs : Same s s') :
    Answered s' i last :=
  ⟨h.toWon.same hs, hs.completion.trans h.completion, hs.outcome.trans h.outcome⟩

theorem Now.same {i : ℕ} {es : List Event} (h : Now streams s i es) (hs : Same s s') :
    Now streams s' i es := by
  have hw := hs.worker
  have hp := hs.pending
  cases h with
  | loop hworker hi hpending => exact .loop (hw.trans hworker) hi (hp.trans hpending)
  | ready hr hworker hi hpending => exact .ready hr (hw ▸ hworker) hi (hp.trans hpending)
  | called hr hworker hi ha => exact .called hr (hw ▸ hworker) hi (ha.same hs)
  | answered hr hworker hi ha => exact .answered hr (hw.trans hworker) hi (ha.same hs)
  | waiting hr hworker hi ha =>
    exact .waiting hr (hw ▸ hworker) hi (ha.imp (fun h => h.same hs) fun h => h.same hs)
  | check hr hworker hi ha => exact .check hr (hw.trans hworker) hi (ha.same hs)
  | done hworker hpending => exact .done (hw.trans hworker) (hp.trans hpending)

theorem Inv.same (h : Inv streams s) (hs : Same s s') : Inv streams s' := by
  constructor
  · rw [hs.log]
    exact h.ordered
  · rcases h.now with hfail | ⟨i, before, es, hbefore, hlog, hnow⟩
    · rw [hs.worker]
      exact .inl hfail
    · exact .inr ⟨i, before, es, hbefore, hs.log.trans hlog, hnow.same hs⟩

theorem Same.recordError (s : St) (err : ℤ) : Same s (s.recordError err) := by
  unfold St.recordError
  split_ifs with h
  · exact ⟨rfl, rfl, rfl, rfl, rfl, fun _ => h⟩
  · exact ⟨rfl, rfl, rfl, rfl, rfl, id⟩

/-- A pending attempt is the one of the stream that the worker is at, and the worker asked for
it. -/
theorem Now.pending {i p : ℕ} {es : List Event} (h : Now streams s i es)
    (hp : s.pending = some p) :
    i = p ∧ i < streams ∧ s.completion = none ∧ ∃ retries, retries ≤ streamConnectMaxRetries ∧
      es = failures i retries ++ [.kicked i] ∧
      (s.worker = .call i retries ∨ s.worker = .already i retries ∨
        ∃ waited, s.worker = .wait i retries waited ∨ s.worker = .take i retries waited ∨
          s.worker = .outcome i retries) := by
  cases h with
  | loop _ _ hpending => cases hp.symm.trans hpending
  | ready _ _ _ hpending => cases hp.symm.trans hpending
  | @called _ retries _ hr hworker hi ha =>
    cases ha with
    | pending hpending hc =>
      obtain rfl := Option.some.inj (hp.symm.trans hpending)
      exact ⟨rfl, hi, hc, retries, hr, rfl, hworker.imp id .inl⟩
    | connected hpending => cases hp.symm.trans hpending
    | dropped hpending => cases hp.symm.trans hpending
    | confused hpending => cases hp.symm.trans hpending
  | answered _ _ _ ha => cases hp.symm.trans ha.pending
  | @waiting _ retries waited _ hr hworker hi ha =>
    rcases ha with ha | ha
    · cases ha with
      | pending hpending hc =>
        obtain rfl := Option.some.inj (hp.symm.trans hpending)
        exact ⟨rfl, hi, hc, retries, hr, rfl, .inr (.inr ⟨waited, hworker⟩)⟩
      | connected hpending => cases hp.symm.trans hpending
      | dropped hpending => cases hp.symm.trans hpending
      | confused hpending => cases hp.symm.trans hpending
    · cases hp.symm.trans ha.pending
  | check _ _ _ ha => cases hp.symm.trans ha.pending
  | done _ hpending => cases hp.symm.trans hpending

/-- A callback ends the pending attempt. -/
theorem Inv.complete (h : Inv streams s) {p : ℕ} (hp : s.pending = some p) (idx : Option ℕ)
    {outcome : Outcome} {matching : Event} (hmatching : ∀ i, matching ≠ .kicked i)
    (hattempt : ∀ t : St, t.pending = none → t.completion = some p → t.outcome = outcome →
      Attempt t p [matching]) :
    Inv streams (s.complete p idx outcome matching) := by
  have hevent : ∀ i, St.ended matching p idx ≠ .kicked i := by
    intro i
    unfold St.ended
    split_ifs
    · exact hmatching i
    · nofun
  have hworker : (s.complete p idx outcome matching).worker = s.worker := by
    unfold St.complete St.recordError
    split_ifs <;> rfl
  have hattempt' : Attempt (s.complete p idx outcome matching) p [St.ended matching p idx] := by
    unfold St.complete St.ended
    by_cases hidx : idx = some p
    · simp only [if_pos hidx]
      exact hattempt _ rfl rfl rfl
    · simp only [if_neg hidx]
      refine .confused rfl rfl rfl ?_
      unfold St.recordError
      split_ifs with herr
      · exact (by decide : -eio ≠ 0)
      · exact herr
  have hlog : (s.complete p idx outcome matching).log = s.log ++ [St.ended matching p idx] := by
    unfold St.complete
    rfl
  constructor
  · rw [hlog]
    exact h.ordered.append hevent
  · rcases h.now with hfail | ⟨i, before, es, hbefore, heq, hnow⟩
    · rw [hworker]
      exact .inl hfail
    · obtain ⟨rfl, hi, -, retries, hr, rfl, hw⟩ := hnow.pending hp
      refine .inr ⟨i, before, failures i retries ++ .kicked i :: [St.ended matching i idx],
        hbefore, ?_, ?_⟩
      · rw [hlog, heq]
        simp
      · rcases hw with hw | hw | ⟨waited, hw⟩
        · exact .called hr (.inl (hworker.trans hw)) hi hattempt'
        · exact .called hr (.inr (hworker.trans hw)) hi hattempt'
        · exact .waiting hr (hworker ▸ hw) hi (.inl hattempt')

theorem Inv.connectedCb (h : Inv streams s) (idx : Option ℕ) : Inv streams (s.connectedCb idx) := by
  unfold St.connectedCb
  cases hp : s.pending with
  | none =>
    by_cases hidx : idx = none
    · simp only [if_pos hidx]
      exact h.same (.recordError s _)
    · simp only [if_neg hidx]
      exact h
  | some p => exact h.complete hp idx nofun fun t => .connected

theorem Inv.disconnectedCb (h : Inv streams s) (idx : Option ℕ) :
    Inv streams (s.disconnectedCb idx) := by
  unfold St.disconnectedCb
  cases hp : s.pending with
  | none => exact h
  | some p => exact h.complete hp idx nofun fun t => .dropped

/-! ### What the worker does -/

attribute [local simp] St.work

/-- The worker waits for the stack or for the semaphore. -/
def Pc.asks : Pc → Bool
  | .call .. | .take .. => true
  | _ => false

theorem go_of_work {a : St.Answer} (hstep : s.work streams a = some s')
    (hasks : s.worker.asks = false) : a = .go := by
  unfold St.work at hstep
  cases a with
  | go => rfl
  | returned ret =>
    cases hw : s.worker with
    | call => cases hw ▸ hasks
    | _ => cases hw ▸ hstep
  | taken =>
    cases hw : s.worker with
    | take => cases hw ▸ hasks
    | _ => cases hw ▸ hstep
  | expired =>
    cases hw : s.worker with
    | take => cases hw ▸ hasks
    | _ => cases hw ▸ hstep

theorem Inv.fail (h : Inv streams s) (hlog : s'.log = s.log) (hfail : Failing s'.worker) :
    Inv streams s' :=
  ⟨hlog ▸ h.ordered, .inl hfail⟩

theorem Inv.stay (h : Inv streams s) (hlog : s'.log = s.log) {i : ℕ} {before es : List Event}
    (hbefore : Blocks i before) (heq : s.log = before ++ es) (hnow : Now streams s' i es) :
    Inv streams s' :=
  ⟨hlog ▸ h.ordered, .inr ⟨i, before, es, hbefore, hlog.trans heq, hnow⟩⟩

theorem Failing.done {ret : ℤ} (h : ret ≠ 0) : Failing (.done ret) := .inr (.inr ⟨ret, h, rfl⟩)

theorem retryState_ne {s : St} {pc : Pc} (h : s.retryState ≠ 0) :
    Failing (if s.retryState ≠ 0 then .done s.retryState else pc) := by
  rw [if_pos h]
  exact .done h

/-- A worker that is failing returns an error. -/
theorem Inv.work_failing (h : Inv streams s) (hfail : Failing s.worker) {a : St.Answer}
    (hstep : s.work streams a = some s') : Inv streams s' := by
  rcases hfail with hw | ⟨i, err, herr, hw⟩ | ⟨ret, hret, hw⟩
  · obtain rfl := go_of_work hstep (by rw [hw]; rfl)
    simp only [St.work, hw] at hstep
    obtain rfl := Option.some.inj hstep
    refine h.fail rfl (.done ?_)
    split_ifs with h0
    · exact h0
    · decide
  · obtain rfl := go_of_work hstep (by rw [hw]; rfl)
    simp only [St.work, hw] at hstep
    split_ifs at hstep <;> obtain rfl := Option.some.inj hstep <;> exact h.fail rfl (.done herr)
  · obtain rfl := go_of_work hstep (by rw [hw]; rfl)
    simp only [St.work, hw] at hstep
    cases hstep

theorem Inv.kick (h : Inv streams s) {i retries : ℕ} {before : List Event}
    (hbefore : Blocks i before) (heq : s.log = before ++ failures i retries)
    (hr : retries ≤ streamConnectMaxRetries) (hi : i < streams) :
    Inv streams { s with
      worker := .call i retries
      opError := 0
      pending := some i
      completion := none
      outcome := .error
      log := s.log ++ [.kicked i] } := by
  refine ⟨h.ordered.kicked ⟨before, retries, hbefore, hr, heq⟩,
    .inr ⟨i, before, failures i retries ++ [.kicked i], hbefore, ?_, ?_⟩⟩
  · change s.log ++ [.kicked i] = _
    rw [heq, List.append_assoc]
  · exact .called hr (.inl rfl) hi (.pending rfl rfl)

theorem Inv.already (h : Inv streams s) {i retries : ℕ} {before last : List Event}
    (hbefore : Blocks i before)
    (heq : s.log = before ++ (failures i retries ++ .kicked i :: last))
    (hr : retries ≤ streamConnectMaxRetries) (hi : i < streams) (ha : Attempt s i last) :
    Inv streams { s with
      worker := .give i retries
      completion := some i
      outcome := .connected
      pending := none
      log := s.log ++ [.already i] } := by
  refine ⟨h.ordered.append nofun,
    .inr ⟨i, before, failures i retries ++ .kicked i :: (last ++ [.already i]), hbefore, ?_, ?_⟩⟩
  · change s.log ++ [.already i] = _
    rw [heq]
    simp
  · refine .answered hr rfl hi ⟨⟨rfl, fun herr => ?_⟩, rfl, rfl⟩
    cases ha with
    | pending => exact .already
    | connected => exact .connectedAlready
    | dropped => exact .droppedAlready
    | confused _ _ _ he => exact absurd herr he

theorem Inv.outcome (h : Inv streams s) {i retries : ℕ} {before last : List Event}
    (hbefore : Blocks i before)
    (heq : s.log = before ++ (failures i retries ++ .kicked i :: last))
    (hr : retries ≤ streamConnectMaxRetries) (hi : i < streams)
    (ha : Attempt s i last ∨ Answered s i last) (hw : s.worker = .outcome i retries)
    (hstep : s.work streams .go = some s') : Inv streams s' := by
  have hread : ∀ o, s.completion = some i → s.outcome = o → s.streamConnectOutcome i = o := by
    intro o hc ho
    rw [St.streamConnectOutcome, if_pos hc, ho]
  have hwon : s.streamConnectOutcome i = .connected → Won s i last → Inv streams s' := by
    intro ho hwon
    simp only [St.work, hw, ho] at hstep
    obtain rfl := Option.some.inj hstep
    exact h.stay rfl hbefore heq (.check hr rfl hi ⟨hwon.pending, hwon.ends⟩)
  have hlost : s.streamConnectOutcome i = .error → Inv streams s' := by
    intro ho
    simp only [St.work, hw, ho] at hstep
    obtain rfl := Option.some.inj hstep
    exact h.fail rfl (.inl rfl)
  rcases ha with ha | ha
  · cases ha with
    | pending hp hc =>
      refine hlost ?_
      rw [St.streamConnectOutcome, if_neg (by rw [hc]; nofun)]
    | connected hp hc ho => exact hwon (hread _ hc ho) ⟨hp, fun _ => .connected⟩
    | dropped hp hc ho =>
      simp only [St.work, hw, hread _ hc ho] at hstep
      split_ifs at hstep with hmax
      · obtain rfl := Option.some.inj hstep
        exact h.fail rfl (.done (by decide))
      · obtain rfl := Option.some.inj hstep
        -- one attempt more that failed
        have hfailures : failures i (retries + 1) =
            failures i retries ++ [.kicked i, .dropped i] := by
          unfold failures
          rw [List.replicate_succ', List.flatten_append, List.flatten_singleton]
        rw [← hfailures] at heq
        exact h.stay rfl hbefore heq (.ready (Nat.not_le.1 hmax) (.inr (.inl rfl)) hi hp)
    | confused hp hc ho _ => exact hlost (hread _ hc ho)
  · exact hwon (hread _ ha.completion ha.outcome) ha.toWon

theorem Attempt.setWorker {i : ℕ} {last : List Event} (h : Attempt s i last) {pc : Pc} {sem : ℕ} :
    Attempt { s with worker := pc, sem } i last := by
  cases h with
  | pending hp hc => exact .pending hp hc
  | connected hp hc ho => exact .connected hp hc ho
  | dropped hp hc ho => exact .dropped hp hc ho
  | confused hp hc ho he => exact .confused hp hc ho he

theorem Answered.setWorker {i : ℕ} {last : List Event} (h : Answered s i last) {pc : Pc} {sem : ℕ} :
    Answered { s with worker := pc, sem } i last :=
  ⟨⟨h.pending, h.ends⟩, h.completion, h.outcome⟩

theorem Inv.work_ready (h : Inv streams s) {a : St.Answer} (hstep : s.work streams a = some s')
    {i retries : ℕ} {before : List Event} (hbefore : Blocks i before)
    (heq : s.log = before ++ failures i retries) (hr : retries ≤ streamConnectMaxRetries)
    (hw : s.worker = .kick i retries ∨ s.worker = .retry i retries ∨
      s.worker = .retryDelayed i retries) (hi : i < streams) (hp : s.pending = none) :
    Inv streams s' := by
  rcases hw with hw | hw | hw
  · obtain rfl := go_of_work hstep (by rw [hw]; rfl)
    simp only [St.work, hw] at hstep
    split_ifs at hstep <;> obtain rfl := Option.some.inj hstep
    · exact h.fail rfl (.done (by decide))
    · exact h.kick hbefore heq hr hi
  · obtain rfl := go_of_work hstep (by rw [hw]; rfl)
    simp only [St.work, hw] at hstep
    obtain rfl := Option.some.inj hstep
    by_cases hstop : s.retryState ≠ 0
    · exact h.fail rfl (retryState_ne hstop)
    · exact h.stay rfl hbefore heq (.ready hr (.inr (.inr (if_neg hstop))) hi hp)
  · obtain rfl := go_of_work hstep (by rw [hw]; rfl)
    simp only [St.work, hw] at hstep
    obtain rfl := Option.some.inj hstep
    by_cases hstop : s.retryState ≠ 0
    · exact h.fail rfl (retryState_ne hstop)
    · exact h.stay rfl hbefore heq (.ready hr (.inl (if_neg hstop)) hi hp)

theorem Inv.work_called (h : Inv streams s) {a : St.Answer} (hstep : s.work streams a = some s')
    {i retries : ℕ} {before last : List Event} (hbefore : Blocks i before)
    (heq : s.log = before ++ (failures i retries ++ .kicked i :: last))
    (hr : retries ≤ streamConnectMaxRetries)
    (hw : s.worker = .call i retries ∨ s.worker = .already i retries) (hi : i < streams)
    (ha : Attempt s i last) : Inv streams s' := by
  rcases hw with hw | hw
  · cases a with
    | returned ret =>
      simp only [St.work, hw] at hstep
      split_ifs at hstep with halready herr <;> obtain rfl := Option.some.inj hstep
      · exact h.stay rfl hbefore heq (.called hr (.inr rfl) hi ha.setWorker)
      · exact h.fail rfl (.inr (.inl ⟨i, ret, herr, rfl⟩))
      · exact h.stay rfl hbefore heq (.waiting hr (.inl rfl) hi (.inl ha.setWorker))
    | go | taken | expired =>
      simp only [St.work, hw] at hstep
      cases hstep
  · obtain rfl := go_of_work hstep (by rw [hw]; rfl)
    simp only [St.work, hw] at hstep
    obtain rfl := Option.some.inj hstep
    exact h.already hbefore heq hr hi ha

theorem Inv.work_waiting (h : Inv streams s) {a : St.Answer} (hstep : s.work streams a = some s')
    {i retries waited : ℕ} {before last : List Event} (hbefore : Blocks i before)
    (heq : s.log = before ++ (failures i retries ++ .kicked i :: last))
    (hr : retries ≤ streamConnectMaxRetries)
    (hw : s.worker = .wait i retries waited ∨ s.worker = .take i retries waited ∨
      s.worker = .outcome i retries) (hi : i < streams)
    (ha : Attempt s i last ∨ Answered s i last) :
    Inv streams s' := by
  have hsame : ∀ {pc : Pc} {sem : ℕ}, Attempt { s with worker := pc, sem } i last ∨
      Answered { s with worker := pc, sem } i last :=
    ha.imp (fun h => h.setWorker) fun h => h.setWorker
  rcases hw with hw | hw | hw
  · obtain rfl := go_of_work hstep (by rw [hw]; rfl)
    simp only [St.work, hw] at hstep
    by_cases htime : waited < opTimeoutStreamMs
    · rw [if_pos htime] at hstep
      by_cases hstop : s.stopRequested ∨ s.runtimeError
      · rw [if_pos hstop] at hstep
        obtain rfl := Option.some.inj hstep
        refine h.fail rfl (.done ?_)
        split_ifs <;> decide
      · rw [if_neg hstop] at hstep
        obtain rfl := Option.some.inj hstep
        exact h.stay rfl hbefore heq (.waiting hr (.inr (.inl rfl)) hi hsame)
    · rw [if_neg htime] at hstep
      obtain rfl := Option.some.inj hstep
      exact h.fail rfl (.done (by decide))
  · cases a with
    | taken =>
      simp only [St.work, hw] at hstep
      split_ifs at hstep
      obtain rfl := Option.some.inj hstep
      exact h.stay rfl hbefore heq (@Now.waiting _ _ _ _ 0 _ hr (.inr (.inr rfl)) hi hsame)
    | expired =>
      simp only [St.work, hw] at hstep
      obtain rfl := Option.some.inj hstep
      exact h.stay rfl hbefore heq (.waiting hr (.inl rfl) hi hsame)
    | go | returned _ =>
      simp only [St.work, hw] at hstep
      cases hstep
  · obtain rfl := go_of_work hstep (by rw [hw]; rfl)
    exact h.outcome hbefore heq hr hi ha hw hstep

/-- Every step of the worker keeps the log in order. -/
theorem Inv.work (h : Inv streams s) {a : St.Answer} (hstep : s.work streams a = some s') :
    Inv streams s' := by
  rcases h.now with hfail | ⟨i, before, es, hbefore, heq, hnow⟩
  · exact h.work_failing hfail hstep
  cases hnow with
  | loop hw hi hp =>
    obtain rfl := go_of_work hstep (by rw [hw]; rfl)
    simp only [St.work, hw] at hstep
    obtain rfl := Option.some.inj hstep
    by_cases hlt : i < streams
    · refine h.stay rfl hbefore heq (@Now.ready _ _ _ 0 (Nat.zero_le _) (.inl ?_) hlt hp)
      exact if_pos hlt
    · obtain rfl : i = streams := Nat.le_antisymm hi (Nat.not_lt.1 hlt)
      exact h.stay rfl hbefore heq (.done (if_neg hlt) hp)
  | ready hr hw hi hp => exact h.work_ready hstep hbefore heq hr hw hi hp
  | called hr hw hi ha => exact h.work_called hstep hbefore heq hr hw hi ha
  | answered hr hw hi ha =>
    obtain rfl := go_of_work hstep (by rw [hw]; rfl)
    simp only [St.work, hw] at hstep
    obtain rfl := Option.some.inj hstep
    exact h.stay rfl hbefore heq (.waiting hr (.inl rfl) hi (.inr ha.setWorker))
  | waiting hr hw hi ha => exact h.work_waiting hstep hbefore heq hr hw hi ha
  | @check _ retries last hr hw hi ha =>
    obtain rfl := go_of_work hstep (by rw [hw]; rfl)
    simp only [St.work, hw] at hstep
    obtain rfl := Option.some.inj hstep
    by_cases herr : s.opError ≠ 0
    · exact h.fail rfl (by rw [if_pos herr]; exact .done herr)
    · have hblock : Block i (failures i retries ++ .kicked i :: last) :=
        ⟨retries, last, hr, ha.ends (not_not.1 herr), rfl⟩
      have hdone := hbefore.succ hblock
      rw [← heq] at hdone
      refine h.stay rfl hdone (List.append_nil _).symm (.loop ?_ hi ha.pending)
      exact if_neg herr
  | done hw hp =>
    obtain rfl := go_of_work hstep (by rw [hw]; rfl)
    simp only [St.work, hw] at hstep
    cases hstep

theorem inv (h : (machine streams).Reachable s) : Inv streams s := by
  refine Machine.Reachable.invariant h ?_ ?_
  · rintro s ⟨hw, hp, hlog⟩
    refine ⟨hlog ▸ .nil, .inr ⟨0, [], [], .zero, hlog, .loop hw (Nat.zero_le _) hp⟩⟩
  · intro s a s' hinv hnext
    cases a with
    | work a => exact hinv.work hnext
    | connected idx =>
      obtain ⟨-, hsome⟩ := Option.ite_none_left_eq_some.1 hnext
      obtain rfl := Option.some.inj hsome
      exact hinv.connectedCb idx
    | disconnected idx =>
      obtain ⟨-, hsome⟩ := Option.ite_none_left_eq_some.1 hnext
      obtain rfl := Option.some.inj hsome
      exact hinv.disconnectedCb idx
    | given =>
      obtain ⟨-, hsome⟩ := Option.ite_none_right_eq_some.1 hnext
      obtain rfl := Option.some.inj hsome
      exact hinv.same ⟨rfl, rfl, rfl, rfl, rfl, id⟩
    | fails err =>
      obtain rfl := Option.some.inj hnext
      exact hinv.same (.recordError s err)
    | stop =>
      obtain rfl := Option.some.inj hnext
      exact hinv.same ⟨rfl, rfl, rfl, rfl, rfl, id⟩
    | breaks =>
      obtain rfl := Option.some.inj hnext
      exact hinv.same ⟨rfl, rfl, rfl, rfl, rfl, id⟩

/-- **No attempt begins before the streams before are connected and the attempt before it is over,
and if the operation succeeds, every stream was connected**: by a completion of its own that came
after the last request for it. -/
theorem connect_ok (h : (machine streams).Reachable s) :
    Ordered s.log ∧ (s.worker = .done 0 → Blocks streams s.log) := by
  have hinv := inv h
  refine ⟨hinv.ordered, fun hdone => ?_⟩
  rcases hinv.now with hfail | ⟨i, before, es, hbefore, heq, hnow⟩
  · rw [hdone] at hfail
    rcases hfail with hw | ⟨_, _, _, hw⟩ | ⟨ret, hret, hw⟩
    · cases hw
    · cases hw
    · cases hw
      exact absurd rfl hret
  · cases hnow with
    | loop hw => cases hdone.symm.trans hw
    | ready _ hw => rcases hw with hw | hw | hw <;> cases hdone.symm.trans hw
    | called _ hw => rcases hw with hw | hw <;> cases hdone.symm.trans hw
    | answered _ hw => cases hdone.symm.trans hw
    | waiting _ hw => rcases hw with hw | hw | hw <;> cases hdone.symm.trans hw
    | check _ hw => cases hdone.symm.trans hw
    | done =>
      rw [heq, List.append_nil]
      exact hbefore

/-- The stream is connected by the second attempt. -/
def secondAttempt : List Action :=
  [.work .go, .work .go, .work (.returned 0), .work .go, .work .expired, .disconnected (some 0),
    .given, .work .go, .work .taken, .work .go, .work .go, .work .go, .work .go,
    .connected (some 0),
    .work (.returned 0), .given, .work .go, .work .taken, .work .go, .work .go, .work .go]

/-- A segment whose operation is about to begin. -/
def begun : St :=
  { worker := .loop 0, opError := 0, pending := none, completion := none, outcome := .error
    sem := 0, giving := false, stopRequested := false, runtimeError := false, log := [] }

theorem connect_ok_second :
    ∃ s, (machine 1).Reachable s ∧ s.worker = .done 0 ∧
      s.log = [.kicked 0, .dropped 0, .kicked 0, .connected 0] ∧ Ordered s.log ∧
      Blocks 1 s.log := by
  have hrun : ((machine 1).run begun secondAttempt).map (fun s => (s.worker, s.log)) =
      some (.done 0, [.kicked 0, .dropped 0, .kicked 0, .connected 0]) := by
    decide +kernel
  obtain ⟨s, hrun, hs⟩ := Option.map_eq_some_iff.1 hrun
  obtain ⟨hdone, hlog⟩ := Prod.mk.inj hs
  have h₀ : (machine 1).Reachable begun := .init ⟨rfl, rfl, rfl⟩
  have h := connect_ok (h₀.run hrun)
  exact ⟨s, h₀.run hrun, hdone, hlog, h.1, h.2 hdone⟩

end StreamConnect

end Hil

end LeAudioReceiver
