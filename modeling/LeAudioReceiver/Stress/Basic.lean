import LeAudioReceiver.Machine.Basic
import Mathlib.Algebra.Ring.Nat
import Mathlib.Logic.Function.Basic

/-!
# The stress test

A model of `flpr_acceptance_stress` and of the `STRESS_PONG` case of the diagnostic handler
(`src/flpr_acceptance.c`), for any number of calls at once.

Each critical section of `acc_lock` is one step, and so are each take of `stress_sem`, each send and
each give.  A pong is handled in a step of its own, for any cookie: this covers pongs that are lost,
late or doubled.  A take times out only while the semaphore is not given.

The ledger beside the state notes for each cookie of the run whether its ping was sent, how many
pongs were counted for it, and how often it timed out.  The snapshot for the caller is left out.
-/

namespace LeAudioReceiver

namespace Stress

/-- `FLPR_STRESS_MAX_COUNT`. -/
def maxCount : ℕ := 1000000

/-- `++` on a 32-bit counter. -/
def inc (n : ℕ) : ℕ := (n + 1) % 2 ^ 32

/-- `enum flpr_stress_pong_class`. -/
inductive PongClass where
  | matching
  | stale
  | future
  | inactive
  deriving DecidableEq

/-- `flpr_classify_stress_pong`. -/
def classifyStressPong (pongCookie expectedCookie : ℕ) (stressActive : Bool) : PongClass :=
  if stressActive = false then .inactive
  else if pongCookie = expectedCookie then .matching
  else if pongCookie < expectedCookie then .stale
  else .future

/-- The pings of a run: the cookies sent, and for each cookie the pongs counted and the timeouts. -/
structure Ledger where
  sent : List ℕ
  received : ℕ → ℕ
  timedOut : ℕ → ℕ

/-- Nothing noted. -/
def Ledger.empty : Ledger := ⟨[], fun _ => 0, fun _ => 0⟩

/-- The state that the calls and the handler share. -/
structure Shared where
  active : Bool
  count : ℕ
  cookie : ℕ
  sent : ℕ
  recv : ℕ
  timeouts : ℕ
  stale : ℕ
  mismatch : ℕ
  errSend : ℕ
  /-- `stress_sem`. -/
  sem : ℕ
  /-- Handlers that have counted a pong and have not given the semaphore yet. -/
  giving : ℕ
  ledger : Ledger

/-- Where a call is; `i` is the iteration and `cookie` its local copy. -/
inductive Pc where
  | idle
  /-- Before the check of `stress_active`. -/
  | check (count : ℕ)
  /-- Before the check of the handshake. -/
  | ready (count : ℕ)
  /-- Before `stress_active` is set. -/
  | activate (count : ℕ)
  /-- Draining before the loop. -/
  | drainFirst (count : ℕ)
  | drain (count i : ℕ)
  | nextCookie (count i : ℕ)
  | send (count i cookie : ℕ)
  | sendFailed (count i : ℕ)
  | sendDone (count i cookie : ℕ)
  | wait (count i cookie : ℕ)
  /-- The take timed out; before the cookie is invalidated. -/
  | timedOut (count i cookie : ℕ)
  /-- Behind the loop, before `stress_active` is cleared. -/
  | finish (count : ℕ)
  deriving DecidableEq

/-- The call has set `stress_active` and not cleared it. -/
def Pc.PastGuard : Pc → Prop
  | .idle | .check _ | .ready _ | .activate _ => False
  | _ => True

/-- The head of the loop. -/
def Pc.loop (count i : ℕ) : Pc := if i < count then .drain count i else .finish count

namespace Shared

/-- The reset when a run starts. -/
def activate (s : Shared) (count : ℕ) : Shared :=
  { s with
      active := true, count := count, sent := 0, recv := 0, timeouts := 0, cookie := 0, stale := 0
      mismatch := 0, errSend := 0, ledger := .empty }

/-- `k_sem_take`, where it succeeds. -/
def take (s : Shared) : Shared := { s with sem := s.sem - 1 }

/-- `k_sem_give`. -/
def give (s : Shared) : Shared :=
  { s with giving := s.giving - 1, sem := min (s.sem + 1) (maxCount + 1) }

/-- The cookie of the next ping. -/
def nextCookie (s : Shared) : Shared := { s with cookie := inc s.cookie }

/-- A ping is counted as sent. -/
def countSent (s : Shared) (cookie : ℕ) : Shared :=
  { s with sent := inc s.sent, ledger := { s.ledger with sent := s.ledger.sent ++ [cookie] } }

/-- A send has failed. -/
def countFailed (s : Shared) : Shared := { s with errSend := inc s.errSend }

/-- A ping has timed out, and its cookie is invalidated. -/
def invalidate (s : Shared) (cookie : ℕ) : Shared :=
  { s with
      timeouts := inc s.timeouts, cookie := inc s.cookie
      ledger := { s.ledger with
        timedOut := Function.update s.ledger.timedOut cookie (s.ledger.timedOut cookie + 1) } }

/-- A pong is counted. -/
def countPong (s : Shared) : Shared :=
  { s with
      recv := inc s.recv, giving := s.giving + 1
      ledger := { s.ledger with
        received := Function.update s.ledger.received s.cookie (s.ledger.received s.cookie + 1) } }

/-- The critical section of the handler. -/
def pong (s : Shared) (cookie : ℕ) : Shared :=
  match classifyStressPong cookie s.cookie s.active with
  | .matching => s.countPong
  | .stale => { s with stale := inc s.stale }
  | .future => { s with mismatch := inc s.mismatch }
  | .inactive => s

end Shared

/-- The shared state and all calls. -/
structure Sys where
  shared : Shared
  pc : ℕ → Pc

/-- What happens next. -/
inductive Action where
  | call (id count : ℕ)
  /-- A step of a call; `ok` is the answer of the handshake, of the send or of the take. -/
  | step (id : ℕ) (ok : Bool)
  | pong (cookie : ℕ)
  | give
  deriving DecidableEq

namespace Sys

/-- A call moves on. -/
def goto (s : Sys) (id : ℕ) (shared : Shared) (pc : Pc) : Sys :=
  ⟨shared, Function.update s.pc id pc⟩

/-- A step of the call `id`. -/
def stepCall (s : Sys) (id : ℕ) (ok : Bool) : Option Sys :=
  let sh := s.shared
  match s.pc id with
  | .idle => none
  | .check count => some (s.goto id sh (if sh.active then .idle else .ready count))
  | .ready count => some (s.goto id sh (if ok then .activate count else .idle))
  | .activate count => some (s.goto id (sh.activate count) (.drainFirst count))
  | .drainFirst count =>
    some (if sh.sem = 0 then s.goto id sh (.loop count 0)
      else s.goto id sh.take (.drainFirst count))
  | .drain count i =>
    some (if sh.sem = 0 then s.goto id sh (.nextCookie count i)
      else s.goto id sh.take (.drain count i))
  | .nextCookie count i => some (s.goto id sh.nextCookie (.send count i (inc sh.cookie)))
  | .send count i cookie =>
    some (s.goto id sh (if ok then .sendDone count i cookie else .sendFailed count i))
  | .sendFailed count i => some (s.goto id sh.countFailed (.loop count (i + 1)))
  | .sendDone count i cookie => some (s.goto id (sh.countSent cookie) (.wait count i cookie))
  | .wait count i cookie =>
    if ok then if sh.sem = 0 then none else some (s.goto id sh.take (.loop count (i + 1)))
    else if sh.sem = 0 then some (s.goto id sh (.timedOut count i cookie)) else none
  | .timedOut count i cookie => some (s.goto id (sh.invalidate cookie) (.loop count (i + 1)))
  | .finish _ => some (s.goto id { sh with active := false } .idle)

/-- One step. -/
def next (s : Sys) : Action → Option Sys
  | .call id count =>
    if s.pc id = .idle ∧ count ≠ 0 then
      some (s.goto id s.shared (.check (if count > maxCount then maxCount else count)))
    else none
  | .step id ok => s.stepCall id ok
  | .pong cookie => some { s with shared := s.shared.pong cookie }
  | .give => if s.shared.giving = 0 then none else some { s with shared := s.shared.give }

/-- No run yet. -/
def init : Sys := ⟨⟨false, 0, 0, 0, 0, 0, 0, 0, 0, 0, 0, .empty⟩, fun _ => .idle⟩

/-- All runs. -/
def machine : Machine Sys Action where
  init s := s = init
  next := next

end Sys

end Stress

end LeAudioReceiver
