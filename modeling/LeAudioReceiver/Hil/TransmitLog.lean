import LeAudioReceiver.Hil.Pins

/-!
# What the transmit stage does to the backend

A record beside the transmit stage: the SDUs that the backend accepted and called back, and the log
of clock readings, timestamped SDUs and the record of the boundary.  The events of the CIG are
numbered from the anchor on, so event `n` is `n` intervals behind it.

* `History` : the record;
* `observed` : the stage beside its record;
* `Tx.Answers` : the surroundings call an SDU back at most once, after they took it.
-/

namespace LeAudioReceiver

namespace Hil

namespace Transmit

open Signal (Stage)

/-- A timestamped SDU that the backend accepted. -/
structure Sdu where
  seq : UInt16
  stage : Stage
  pin : UInt32
  /-- The last clock reading before it. -/
  now : UInt32
  event : ℕ
  deriving DecidableEq, Repr

/-- An entry of the log. -/
inductive Event where
  /-- The pin at an event is held against the clock, and moved by the skipped events. -/
  | clock (now : UInt32) (event skipped : ℕ)
  | sdu (i : Fin 2) (d : Sdu)
  /-- The record of the boundary between scored and tail SDUs is enqueued. -/
  | scoredComplete
  deriving DecidableEq, Repr

/-- The SDUs of a stream in a log. -/
def sdus (i : Fin 2) (log : List Event) : List Sdu :=
  log.filterMap fun e => if let .sdu j d := e then if j = i then some d else none else none

/-- The record beside the stage. -/
structure History where
  /-- The SDUs that the backend accepted, the bootstrap SDU among them. -/
  accepted : Fin 2 → ℕ
  /-- The callbacks. -/
  called : Fin 2 → ℕ
  /-- The timestamp of the bootstrap SDU. -/
  anchor : UInt32
  /-- The event of the next pin. -/
  event : ℕ
  log : List Event

namespace History

/-- Nothing has happened. -/
def empty : History := ⟨fun _ => 0, fun _ => 0, 0, 0, []⟩

/-- One more SDU of a stream is accepted. -/
def accept (h : History) (i : Fin 2) : History :=
  { h with accepted := Function.update h.accepted i (h.accepted i + 1) }

/-- One more SDU of a stream is called back. -/
def call (h : History) (i : Fin 2) : History :=
  { h with called := Function.update h.called i (h.called i + 1) }

/-- An entry of the log. -/
def enter (h : History) (e : Event) : History := { h with log := h.log ++ [e] }

/-- The pin is held against the clock. -/
def read (h : History) (now : UInt32) (skipped : ℕ) : History :=
  { h.enter (.clock now h.event skipped) with event := h.event + skipped }

/-- The SDUs of a stream that the backend accepted. -/
def sent (h : History) (i : Fin 2) : List Sdu := sdus i h.log

end History

namespace Tx

/-- The record of the boundary is enqueued in a step. -/
def completes (s s' : Tx) (e : Emission) : Bool :=
  s.run.currentState = .streaming && s'.run.currentState = .scoredComplete && e = .queued

/-- The backend accepts an SDU. -/
def noteSent (s : Tx) (i : Fin 2) (pin now : UInt32) (h : History) : History :=
  let h' := (h.enter (.sdu i ⟨(s.stream i).seq, s.encStage, pin, now, h.event⟩)).accept i
  if s.isLast i then { h' with event := h.event + 1 } else h'

/-- What a step of the worker does to the record. -/
def noteWork (s : Tx) (a : Answer) (s' : Tx) (h : History) : History :=
  match s.worker, a with
  | .anchorSend, .returned ret => if ret = 0 then h.accept 0 else h
  | .readback, .stamp ts => { h with anchor := ts, event := 1 }
  | .top, .emitted e _ => if s.completes s' e then h.enter .scoredComplete else h
  | .pinRead pin deadline, .clock now =>
    if deadline ≤ s.uptime then h else h.read now (catchUpPin pin now s.interval).2
  | .gate pin, .clock now => h.read now (catchUpPin pin now s.interval).2
  | .send i pin now, .returned ret => if ret = 0 then s.noteSent i pin now h else h
  | _, _ => h

/-- What a step does to the record. -/
def note (s : Tx) (a : Action) (s' : Tx) (h : History) : History :=
  match a with
  | .work a => s.noteWork a s' h
  | .sent i => h.call i
  | _ => h

/-- The SDUs that the backend may have taken, while `tx_send` has not returned. -/
def taking (s : Tx) (i : Fin 2) : ℕ := if s.worker = .anchorSend ∧ i = 0 then 1 else 0

/-- The surroundings call an SDU back at most once, after they took it. -/
def Answers (p : Tx × History) : Action → Prop
  | .sent i => p.2.called i < p.2.accepted i + p.1.taking i
  | .work (.returned ret) => p.1.worker = .anchorSend → ret ≠ 0 → p.2.called 0 ≤ p.2.accepted 0
  | _ => True

end Tx

/-- One call of the stage beside its record. -/
def observed (target : ℕ) : Machine (Tx × History) Tx.Action :=
  (machine target).watch .empty Tx.note

/-- What the stage reaches while the surroundings answer as they should. -/
def Reached (target : ℕ) (s : Tx) (h : History) : Prop :=
  (observed target).ReachableBy Tx.Answers (s, h)

/-- What a call that starts in `s₀` reaches. -/
def ReachedFrom (target : ℕ) (s₀ s : Tx) (h : History) : Prop :=
  ((observed target).startingAt (s₀, .empty)).ReachableBy Tx.Answers (s, h)

theorem ReachedFrom.reached {target : ℕ} {s₀ s : Tx} {h : History} (h₀ : s₀.Called)
    (hs : ReachedFrom target s₀ s h) : Reached target s h := by
  have hinit : (observed target).init (s₀, .empty) := ⟨h₀, rfl⟩
  exact Machine.ReachableBy.of_startingAt hinit hs

end Transmit

end Hil

end LeAudioReceiver
