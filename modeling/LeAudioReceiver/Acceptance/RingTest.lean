import LeAudioReceiver.Acceptance.Rings

/-!
# The ring test

A model of `flpr_acceptance_test_run_rate` in `src/flpr_acceptance.c`.  A sleep changes nothing that
a turn of the schedule cannot change, so the pacing leaves only its readings of the clock.
-/

namespace LeAudioReceiver

namespace Acceptance

open FlprRing

/-- The negative return codes. -/
inductive Errno where
  | again
  | busy
  | inval
  | io
  | timedout
  | overflow
  | nospc
  /-- The error of a message that was not sent. -/
  | send
  /-- `-1`. -/
  | failed
  deriving DecidableEq

/-- A return code; `none` is `0`. -/
abbrev Ret := Option Errno

/-- `BATCH_MAX`. -/
def batchMax : ℕ := 4

/-- The locals of the send loop. -/
structure Locals where
  sent : UInt32
  lastSeq : UInt32
  anyError : Bool
  deriving DecidableEq

/-- `while (consume_block(..) == OK)`; whether there was a block. -/
def drainOutput : Prog Bool :=
  Scheduled.loop (fun drained => do
    match ← consumeBlock with
    | .ok => pure (.inr true)
    | _ => pure (.inl drained)) false

/-- Draining `consume_sem`. -/
def drainSem : Prog Unit :=
  Scheduled.loop (fun _ => do
    let taken ← waitConsume
    if taken then pure (.inr ()) else pure (.inl ())) ()

/-- The count of a produced block. -/
def noteSent (v : Locals) : Prog Locals := do
  if v.sent > 0 ∧ v.sent ≠ v.lastSeq + 1 then
    update fun s => s.count fun c => { c with seqGaps := c.seqGaps + 1 }
  else pure ()
  update fun s => s.count fun c => { c with sent := v.sent + 1 }
  pure { v with lastSeq := v.sent, sent := v.sent + 1 }

/-- The loop over a batch, with `n` blocks to go and `batchSent` produced. -/
def produceBatch (blockCount : UInt32) : ℕ → Locals → ℕ → Prog (Locals × ℕ)
  | 0, v, batchSent => pure (v, batchSent)
  | n + 1, v, batchSent =>
    if v.sent < blockCount then do
      match ← produceBlock (genPayload payloadCapacityBytes v.sent) 480 v.sent 0 true with
      | .full => pure (v, batchSent)
      | .invalid => pure ({ v with anyError := true }, batchSent)
      | .ok => do
        let v ← noteSent v
        produceBatch blockCount n v (batchSent + 1)
    else pure (v, batchSent)

/-- One turn of the send loop: it ends, or goes on with new locals. -/
def sendTurn (blockCount timeoutMs ratePerSec start : UInt32) (v : Locals) :
    Prog (Locals ⊕ Locals) :=
  if v.sent < blockCount then do
    let now ← clock
    if now - start > timeoutMs then pure (.inl { v with anyError := true })
    else do
      if ratePerSec > 0 then do
        let _ ← clock
        pure ()
      else pure ()
      let _ ← drainOutput
      let (v, batchSent) ← produceBatch blockCount batchMax v 0
      let notified ← if batchSent > 0 then notifyProducer else pure true
      if ¬ notified then pure (.inr v)
      else do
        if v.sent < blockCount then do
          let _ ← waitConsume
          pure (.inr v)
        else pure (.inr v)
  else pure (.inl v)

/-- One turn of the final drain; the loop ends, or goes on. -/
def drainTurn (sent drainStart remaining : UInt32) : Prog (Unit ⊕ Unit) := do
  let now ← clock
  if now - drainStart < remaining then do
    let drained ← drainOutput
    let recvNow ← cpu fun _ s => (s.counters.recv, s)
    if recvNow ≥ sent then pure (.inl ())
    else do
      if ¬ drained then do
        let _ ← waitConsume
        pure (.inr ())
      else pure (.inr ())
  else pure (.inl ())

/-- The final drain. -/
def finalDrain (timeoutMs start sent : UInt32) : Prog Unit := do
  let drainStart ← clock
  let remaining := timeoutMs - (drainStart - start)
  let remaining := if remaining > timeoutMs then 100 else remaining
  Scheduled.loop (fun _ => drainTurn sent drainStart remaining) ()

/-- `has_error`. -/
def hasError (blockCount : UInt32) (v : Locals) (c : TestCounters) : Bool :=
  v.sent ≠ blockCount ∨ c.recv ≠ blockCount ∨ c.crcErrors > 0 ∨ c.payloadErrors > 0 ∨
    c.staleEvents > 0 ∨ v.anyError

/-- `flpr_acceptance_test_run_rate` behind its checks: the counters are reset. -/
def runTest (blockCount timeoutMs ratePerSec start : UInt32) : Prog (Ret × TestCounters) := do
  drainSem
  let _ ← sendMsg
  let v ← Scheduled.loop (sendTurn blockCount timeoutMs ratePerSec start) ⟨0, 0, false⟩
  finalDrain timeoutMs start v.sent
  let _ ← sendMsg
  update fun s => { s with testActive := false }
  let out ← cpu fun _ s => (s.counters, s)
  let error ← cpu fun _ s => (hasError blockCount v s.counters, s)
  pure (if error then some .failed else none, out)

/-- The check and the reset under `acc_lock`; whether a test was active. -/
def Sys.beginTest (s : Sys) : Bool × Sys :=
  if s.testActive then (true, s) else (false, { s with testActive := true, counters := .zero })

/-- `flpr_acceptance_test_run_rate`: the return code and the status for the caller. -/
def testRunRate (blockCount timeoutMs ratePerSec : UInt32) : Prog (Ret × TestCounters) := do
  let start ← clock
  let usable ← cpu fun _ s => (decide (s.initialized = true ∧ s.epoch ≠ 0), s)
  if ¬ usable then do
    let out ← cpu fun _ s => (s.counters, s)
    pure (some .again, out)
  else do
    let active ← cpu fun _ s => s.beginTest
    if active then do
      let out ← cpu fun _ s => (s.counters, s)
      pure (some .busy, out)
    else runTest blockCount timeoutMs ratePerSec start

/-- `flpr_acceptance_test_run`. -/
def testRun (blockCount timeoutMs : UInt32) : Prog (Ret × TestCounters) :=
  testRunRate blockCount timeoutMs 0

end Acceptance

end LeAudioReceiver
