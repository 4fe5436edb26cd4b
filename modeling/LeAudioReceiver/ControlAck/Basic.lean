import LeAudioReceiver.Machine.Basic
import Mathlib.Data.UInt

/-!
# Requests and their acknowledgements

A model of one instance of `src/flpr_control_ack.c`.  A request is armed with a fresh token and
the data its acknowledgement has to echo; the receive handler stores the data of the first
acknowledgement with that token, and wakes the requester through a semaphore.

The critical sections of the source are the functions on `Ctl`.  The handler gives the semaphore
behind its critical section, so the give is a step of its own, as is every take.  Requests on one
instance exclude each other (their callers hold `ring_data_lock`).  The messages are not in the
state: a step of the handler may see any token and any data, which covers acknowledgements that
are lost, late, doubled or reordered.

The system keeps what was armed, acknowledged and returned.  It runs within one session, so
`flpr_control_ack_reset_session` is only where it starts.
-/

namespace LeAudioReceiver

namespace ControlAck

/-- `struct flpr_control_ack`, without its semaphore. -/
structure Ctl where
  payload : UInt32
  expectedData : UInt32
  expectedSeq : UInt16
  armed : Bool
  /-- `next_token`: at most one above the last token. -/
  nextToken : ℕ
  staleCount : UInt32
  deriving DecidableEq

namespace Ctl

/-- `flpr_control_ack_init`. -/
def init : Ctl := ⟨0, 0, 0, false, 1, 0⟩

/-- `flpr_control_ack_disarm`, and the critical section of `flpr_control_ack_begin`. -/
def disarm (c : Ctl) : Ctl :=
  { c with armed := false, expectedSeq := 0, expectedData := 0, payload := 0 }

/-- `flpr_control_ack_arm`; `none` is `-EOVERFLOW`. -/
def arm (c : Ctl) (expectedData : UInt32) : Option (Ctl × UInt16) :=
  if c.nextToken > 0xFFFF then none
  else
    let token := UInt16.ofNat c.nextToken
    some ({ c with
            nextToken := c.nextToken + 1, expectedData := expectedData, expectedSeq := token
            payload := 0, armed := true }, token)

/-- The critical section of `flpr_control_ack_handle`; the second component is `give`. -/
def handle (c : Ctl) (seq : UInt16) (data : UInt32) : Ctl × Bool :=
  if c.armed ∧ seq = c.expectedSeq then ({ c with payload := data, armed := false }, true)
  else ({ c with staleCount := c.staleCount + 1 }, false)

end Ctl

/-- A request: its token and the data it expects. -/
structure Request where
  token : UInt16
  expectedData : UInt32
  deriving DecidableEq

/-- Where the requester is. -/
inductive Pc where
  | idle
  /-- The draining loop of `flpr_control_ack_begin`. -/
  | draining (expectedData : UInt32)
  /-- Before `flpr_control_ack_arm`. -/
  | arming (expectedData : UInt32)
  /-- Armed, before the message is sent. -/
  | sending (r : Request)
  /-- Before the take of `flpr_control_ack_wait`. -/
  | waiting (r : Request)
  /-- The take succeeded; before the snapshot of the payload. -/
  | taken (r : Request)
  /-- The send failed or the take timed out; before `flpr_control_ack_disarm`. -/
  | failed (r : Request) (timeout : Bool)
  deriving DecidableEq

/-- The request that is in flight. -/
def Pc.request : Pc → Option Request
  | idle => none
  | draining _ => none
  | arming _ => none
  | sending r => some r
  | waiting r => some r
  | taken r => some r
  | failed r _ => some r

/-- How a request ends. -/
inductive Ret where
  | ok
  | etimedout
  | eio
  | sendFailed
  deriving DecidableEq, Repr

/-- An instance with its semaphore (limit 1), its requester and its handlers. -/
structure Sys where
  ctl : Ctl
  sem : Bool
  pc : Pc
  /-- Handlers between their critical section and `k_sem_give`. -/
  giving : ℕ
  /-- The tokens armed so far. -/
  armedTokens : List UInt16
  /-- The acknowledgements that found their request armed: token and data. -/
  acked : List Request
  /-- The requests that have returned. -/
  returned : List (Request × Ret)
  deriving DecidableEq

/-- The atomic steps. -/
inductive Action where
  /-- `flpr_control_ack_begin` up to its unlock. -/
  | begin (expectedData : UInt32)
  /-- One take of the draining loop. -/
  | drain
  | arm
  | send (ok : Bool)
  /-- The take of `flpr_control_ack_wait` succeeds. -/
  | take
  /-- It times out. -/
  | timeout
  | disarm
  /-- The snapshot and the comparison of `flpr_control_ack_wait`. -/
  | verify
  /-- The critical section of a handler, for any message. -/
  | handle (seq : UInt16) (data : UInt32)
  | give
  deriving DecidableEq

namespace Sys

/-- A request returns. -/
def ret (s : Sys) (r : Request) (v : Ret) : Sys :=
  { s with pc := .idle, returned := (r, v) :: s.returned }

/-- One step; `none` where it cannot happen. -/
def next (s : Sys) : Action → Option Sys
  | .begin expectedData =>
    match s.pc with
    | .idle => some { s with ctl := s.ctl.disarm, pc := .draining expectedData }
    | _ => none
  | .drain =>
    match s.pc with
    | .draining expectedData =>
      if s.sem then some { s with sem := false } else some { s with pc := .arming expectedData }
    | _ => none
  | .arm =>
    match s.pc with
    | .arming expectedData =>
      match s.ctl.arm expectedData with
      | none => some { s with pc := .idle }
      | some (ctl, token) =>
        some { s with
          ctl := ctl, pc := .sending ⟨token, expectedData⟩
          armedTokens := token :: s.armedTokens }
    | _ => none
  | .send ok =>
    match s.pc with
    | .sending r => some { s with pc := if ok then .waiting r else .failed r false }
    | _ => none
  | .take =>
    match s.pc with
    | .waiting r => if s.sem then some { s with sem := false, pc := .taken r } else none
    | _ => none
  | .timeout =>
    match s.pc with
    | .waiting r => if s.sem then none else some { s with pc := .failed r true }
    | _ => none
  | .disarm =>
    match s.pc with
    | .failed r timeout =>
      some ({ s with ctl := s.ctl.disarm }.ret r (if timeout then .etimedout else .sendFailed))
    | _ => none
  | .verify =>
    match s.pc with
    | .taken r => some (s.ret r (if s.ctl.payload = r.expectedData then .ok else .eio))
    | _ => none
  | .handle seq data =>
    match s.ctl.handle seq data with
    | (ctl, true) =>
      some { s with ctl := ctl, giving := s.giving + 1, acked := ⟨seq, data⟩ :: s.acked }
    | (ctl, false) => some { s with ctl := ctl }
  | .give => if s.giving = 0 then none else some { s with sem := true, giving := s.giving - 1 }

/-- The beginning of a session: no token has been given out. -/
structure Start (s : Sys) : Prop where
  nextToken : s.ctl.nextToken = 1
  pc : s.pc = .idle
  armedTokens : s.armedTokens = []
  acked : s.acked = []
  returned : s.returned = []

/-- A session. -/
def machine : Machine Sys Action := ⟨Start, next⟩

/-- The steps by what they do. -/
inductive Step : Sys → Action → Sys → Prop
  | begin {s : Sys} (e : UInt32) : s.pc = .idle →
      Step s (.begin e) { s with ctl := s.ctl.disarm, pc := .draining e }
  | drainTake {s : Sys} (e : UInt32) : s.pc = .draining e → s.sem = true →
      Step s .drain { s with sem := false, pc := .draining e }
  | drainEnd {s : Sys} (e : UInt32) : s.pc = .draining e → s.sem = false →
      Step s .drain { s with pc := .arming e }
  | armOverflow {s : Sys} (e : UInt32) : s.pc = .arming e → Step s .arm { s with pc := .idle }
  | arm {s : Sys} (e : UInt32) : s.pc = .arming e → s.ctl.nextToken ≤ 0xFFFF →
      Step s .arm { s with
        ctl := { s.ctl with
          nextToken := s.ctl.nextToken + 1, expectedData := e
          expectedSeq := UInt16.ofNat s.ctl.nextToken, payload := 0, armed := true }
        pc := .sending ⟨UInt16.ofNat s.ctl.nextToken, e⟩
        armedTokens := UInt16.ofNat s.ctl.nextToken :: s.armedTokens }
  | send {s : Sys} (r : Request) (ok : Bool) : s.pc = .sending r →
      Step s (.send ok) { s with pc := if ok then .waiting r else .failed r false }
  | take {s : Sys} (r : Request) : s.pc = .waiting r → s.sem = true →
      Step s .take { s with sem := false, pc := .taken r }
  | timeout {s : Sys} (r : Request) : s.pc = .waiting r → s.sem = false →
      Step s .timeout { s with pc := .failed r true }
  | disarm {s : Sys} (r : Request) (timeout : Bool) : s.pc = .failed r timeout →
      Step s .disarm
        ({ s with ctl := s.ctl.disarm }.ret r (if timeout then .etimedout else .sendFailed))
  | verify {s : Sys} (r : Request) : s.pc = .taken r →
      Step s .verify (s.ret r (if s.ctl.payload = r.expectedData then .ok else .eio))
  | accept {s : Sys} (data : UInt32) : s.ctl.armed = true →
      Step s (.handle s.ctl.expectedSeq data) { s with
        ctl := { s.ctl with payload := data, armed := false }
        giving := s.giving + 1, acked := ⟨s.ctl.expectedSeq, data⟩ :: s.acked }
  | ignore {s : Sys} (seq : UInt16) (data : UInt32) :
      Step s (.handle seq data)
        { s with ctl := { s.ctl with staleCount := s.ctl.staleCount + 1 } }
  | give {s : Sys} : 0 < s.giving →
      Step s .give { s with sem := true, giving := s.giving - 1 }

/-- Every step is one of them. -/
theorem step_of_next {s s' : Sys} {a : Action} (h : s.next a = some s') : Step s a s' := by
  cases a with
  | begin e =>
    cases hpc : s.pc <;> simp only [next, hpc, reduceCtorEq] at h
    exact Option.some.inj h ▸ .begin e hpc
  | drain =>
    cases hpc : s.pc <;> simp only [next, hpc, reduceCtorEq] at h
    rename_i e
    by_cases hsem : s.sem = true
    · rw [if_pos hsem] at h
      exact Option.some.inj h ▸ .drainTake e hpc hsem
    · rw [if_neg hsem] at h
      exact Option.some.inj h ▸ .drainEnd e hpc (by simpa using hsem)
  | arm =>
    cases hpc : s.pc <;> simp only [next, hpc, reduceCtorEq] at h
    rename_i e
    by_cases hfull : s.ctl.nextToken > 0xFFFF
    · rw [Ctl.arm, if_pos hfull] at h
      exact Option.some.inj h ▸ .armOverflow e hpc
    · rw [Ctl.arm, if_neg hfull] at h
      exact Option.some.inj h ▸ .arm e hpc (Nat.not_lt.1 hfull)
  | send ok =>
    cases hpc : s.pc <;> simp only [next, hpc, reduceCtorEq] at h
    rename_i r
    exact Option.some.inj h ▸ .send r ok hpc
  | take =>
    cases hpc : s.pc <;> simp only [next, hpc, reduceCtorEq] at h
    rename_i r
    split_ifs at h with hsem
    exact Option.some.inj h ▸ .take r hpc hsem
  | timeout =>
    cases hpc : s.pc <;> simp only [next, hpc, reduceCtorEq] at h
    rename_i r
    split_ifs at h with hsem
    exact Option.some.inj h ▸ .timeout r hpc (by simpa using hsem)
  | disarm =>
    cases hpc : s.pc <;> simp only [next, hpc, reduceCtorEq] at h
    rename_i r timeout
    exact Option.some.inj h ▸ .disarm r timeout hpc
  | verify =>
    cases hpc : s.pc <;> simp only [next, hpc, reduceCtorEq] at h
    rename_i r
    exact Option.some.inj h ▸ .verify r hpc
  | handle seq data =>
    by_cases hmatch : s.ctl.armed ∧ seq = s.ctl.expectedSeq
    · obtain ⟨harmed, rfl⟩ := hmatch
      simp only [next, Ctl.handle, harmed, and_self, if_true] at h
      exact Option.some.inj h ▸ .accept data harmed
    · simp only [next, Ctl.handle, if_neg hmatch] at h
      exact Option.some.inj h ▸ .ignore seq data
  | give =>
    by_cases h₀ : s.giving = 0
    · simp only [next, if_pos h₀, reduceCtorEq] at h
    · simp only [next, if_neg h₀] at h
      exact Option.some.inj h ▸ .give (Nat.pos_of_ne_zero h₀)

end Sys

end ControlAck

end LeAudioReceiver
