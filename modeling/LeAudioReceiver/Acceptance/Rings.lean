import LeAudioReceiver.ControlAck.Basic
import LeAudioReceiver.FlprRing.Basic
import LeAudioReceiver.FlprRing.Payload
import LeAudioReceiver.Offload.Process
import LeAudioReceiver.Scheduled.Program

/-!
# The rings under the acceptance tests

What the acceptance tests of `src/flpr_acceptance.c` run on: the block operations of
`src/flpr_ring_mgr.c` with their counters, and the surroundings, which are the main loop of the
remote core (`ring_process_input` of `src/flpr/main.c`), its receive callback, and the messages
between the cores.

The tests run on one thread, and `ring_data_lock` keeps every other user of the rings on this core
out of its operations.  Between two steps of the thread the surroundings make any number of moves.
`consumed` records the slots that `flpr_ring_mgr_consume_block` accepted.  The latency statistics
and the counters that the remote core reports are only printed, and left out.
-/

namespace LeAudioReceiver

namespace Acceptance

open FlprRing
open Offload (ProcessError answer errorMeta)

/-! ## State -/

/-- Where the main loop of the remote core is, with the stall flags that it read when
`ring_process_input` began. -/
inductive FlprPc where
  | outside
  /-- At the head of the loop. -/
  | head (sf : UInt8)
  /-- The output ring was seen to have space. -/
  | checked (sf : UInt8)
  /-- `consume_begin` returned input slot `i`. -/
  | claimed (sf : UInt8) (i : Fin 4)
  /-- `produce_begin` returned the output index `idx`. -/
  | producing (sf : UInt8) (i : Fin 4) (idx : UInt32)
  /-- The answer is written. -/
  | processed (sf : UInt8)
  /-- `produce_commit` was called. -/
  | published (sf : UInt8)
  deriving DecidableEq

/-- The counters of a test, under `acc_lock`. -/
structure TestCounters where
  sent : UInt32
  recv : UInt32
  crcErrors : UInt32
  payloadErrors : UInt32
  seqGaps : UInt32
  fullEvents : UInt32
  backpressure : UInt32
  staleEvents : UInt32
  deriving DecidableEq

/-- The counters at the start of a test. -/
def TestCounters.zero : TestCounters := ⟨0, 0, 0, 0, 0, 0, 0, 0⟩

/-- A request with its token, on the way to the remote core or acknowledged by it. -/
inductive Control where
  | reset (seq : UInt16) (data : UInt32)
  | stall (seq : UInt16) (data : UInt32)
  deriving DecidableEq

/-- An instance of the acknowledgement engine with its semaphore. -/
structure Ack where
  ctl : ControlAck.Ctl
  sem : Bool
  deriving DecidableEq

/-- Both cores, the rings between them and the messages in flight. -/
structure Sys where
  /-- The ring from the application core to the remote core. -/
  inp : Ring
  /-- The ring back. -/
  out : Ring
  /-- `rings_initialized`. -/
  initialized : Bool
  /-- `ring_stream_epoch` of the application core. -/
  epoch : UInt32
  /-- `ring_stream_epoch` of the remote core. -/
  flprEpoch : UInt32
  flpr : FlprPc
  /-- `stall_flags` of the remote core. -/
  stallFlags : UInt8
  /-- `stall_producer_enabled`. -/
  stallProducer : Bool
  /-- `consume_sem`. -/
  sem : ℕ
  testActive : Bool
  counters : TestCounters
  resetAck : Ack
  stallAck : Ack
  /-- Requests that the remote core has not received yet. -/
  requests : List Control
  /-- Acknowledgements that the application core has not received yet. -/
  acks : List Control
  /-- The slots that `flpr_ring_mgr_consume_block` accepted. -/
  consumed : List Slot

/-! ## The surroundings -/

/-- `FLPR_STALL_CONSUMER_INPUT`. -/
def stallConsumerInput : UInt8 := 0x01

/-- `FLPR_STALL_PRODUCER_OUTPUT`. -/
def stallProducerOutput : UInt8 := 0x02

/-- The limit of `consume_sem`. -/
def semLimit : ℕ := 1000001

/-- What the surroundings do. -/
inductive Move where
  /-- The next step of the main loop; with `err` the processor fails. -/
  | flpr (cycles : UInt32) (err : Option ProcessError)
  /-- The remote core receives the oldest request, and its acknowledgement is sent or lost. -/
  | request (sent : Bool)
  /-- The application core receives the oldest acknowledgement. -/
  | ack
  /-- The application core receives `RING_CONSUMER` with this epoch. -/
  | consumer (data : UInt32)
  deriving DecidableEq

/-- What the main loop publishes for an input slot. -/
def respond (input : Slot) (cycles : UInt32) : Option ProcessError → Slot
  | none => answer input cycles
  | some e =>
    ⟨(errorMeta input.slotMeta).setProcessing cycles e.code, List.replicate payloadCapacityBytes 0⟩

namespace Sys

/-- The next step of `ring_process_input`. -/
def flprStep (s : Sys) (cycles : UInt32) (err : Option ProcessError) : Sys :=
  match s.flpr with
  | .outside => { s with flpr := .head s.stallFlags }
  | .head sf =>
    if sf &&& stallConsumerInput ≠ 0 then { s with flpr := .outside }
    else if sf &&& stallProducerOutput ≠ 0 then { s with flpr := .outside }
    else if space s.out.producerIdx s.out.consumerIdx = 0 then { s with flpr := .outside }
    else { s with flpr := .checked sf }
  | .checked sf =>
    match s.inp.consumeBegin s.flprEpoch with
    | (r, .empty) => { s with inp := r, flpr := .outside }
    | (r, .stale) => { s with inp := r, flpr := .head sf }
    | (r, .slot i) => { s with inp := r, flpr := .claimed sf i }
  | .claimed sf i =>
    match s.out.produceBegin with
    -- the input index is left unchanged
    | (r, none) => { s with out := r, flpr := .outside }
    | (r, some idx) => { s with out := r, flpr := .producing sf i idx }
  | .producing sf i idx =>
    { s with out := s.out.write idx (respond (s.inp.slots i) cycles err), flpr := .processed sf }
  | .processed sf => { s with out := s.out.produceCommit, flpr := .published sf }
  | .published sf => { s with inp := s.inp.consumeDone, flpr := .head sf }

/-- `ring_reset_with_epoch`, and the acknowledgement that its caller makes. -/
def flprReset (s : Sys) (seq : UInt16) (epoch : UInt32) : Sys × Control :=
  match s.inp.resetEpoch epoch with
  | none => (s, .reset seq 0)
  | some inp =>
    match s.out.resetEpoch epoch with
    | none => ({ s with inp := inp }, .reset seq 0)
    | some out =>
      ({ s with inp := inp, out := out, flprEpoch := epoch, stallFlags := 0 }, .reset seq epoch)

/-- The receive callback of the remote core; a timed stall is not used here. -/
def flprReceive (s : Sys) : Control → Sys × Control
  | .reset seq data => s.flprReset seq data
  | .stall seq data => ({ s with stallFlags := data.toUInt8 }, .stall seq data)

/-- `flpr_control_ack_handle` and the give behind it. -/
def Ack.handle (a : Ack) (seq : UInt16) (data : UInt32) : Ack :=
  match a.ctl.handle seq data with
  | (ctl, true) => ⟨ctl, true⟩
  | (ctl, false) => ⟨ctl, a.sem⟩

/-- `on_ring_reset_ack`, and the stall case of the diagnostic handler. -/
def receiveAck (s : Sys) : Control → Sys
  | .reset seq data => { s with resetAck := Ack.handle s.resetAck seq data }
  | .stall seq data => { s with stallAck := Ack.handle s.stallAck seq data }

/-- `on_ring_consumer`. -/
def onRingConsumer (s : Sys) (data : UInt32) : Sys :=
  if data ≠ s.epoch then s else { s with sem := min (s.sem + 1) semLimit }

/-- One move of the surroundings. -/
def move (s : Sys) : Move → Sys
  | .flpr cycles err => s.flprStep cycles err
  | .request sent =>
    match s.requests with
    | [] => s
    | m :: ms =>
      match ({ s with requests := ms } : Sys).flprReceive m with
      | (s, ack) => if sent then { s with acks := s.acks ++ [ack] } else s
  | .ack =>
    match s.acks with
    | [] => s
    | m :: ms => ({ s with acks := ms } : Sys).receiveAck m
  | .consumer data => s.onRingConsumer data

end Sys

/-- A turn: the moves before a step, the answer to a message that the step sends or a state that it
asks for, and a reading of the clock. -/
structure Turn where
  moves : List Move
  ok : Bool
  reading : UInt32
  deriving DecidableEq

abbrev Prog := Scheduled.Prog Turn Sys

/-- One step of the thread, behind the moves of its turn. -/
def cpu {α : Type} (f : Turn → Sys → α × Sys) : Prog α :=
  Scheduled.step fun t s => f t (t.moves.foldl Sys.move s)

/-- `k_uptime_get_32` and `k_cycle_get_32`. -/
def clock : Prog UInt32 := cpu fun t s => (t.reading, s)

/-- An update of the state. -/
def update (f : Sys → Sys) : Prog Unit := cpu fun _ s => ((), f s)

/-- `flpr_handshake_send_msg` with a message that changes nothing here; whether it was sent. -/
def sendMsg : Prog Bool := cpu fun t s => (t.ok, s)

/-- An update of the counters under `acc_lock`. -/
def Sys.count (s : Sys) (f : TestCounters → TestCounters) : Sys :=
  { s with counters := f s.counters }

/-! ## Block operations -/

/-- `enum flpr_produce_result`. -/
inductive Produce where
  | ok
  | full
  | invalid
  deriving DecidableEq

/-- The slot that `flpr_ring_mgr_produce_block` writes over one with metadata `old`. -/
def blockSlot (old : SlotMeta) (pcmData : List UInt8) (validFrames : UInt16) (sequence : UInt32)
    (correctionPpm : Int32) (computeCrc : Bool) (epoch cpuTimestamp : UInt32) : Slot :=
  let copied := pcmData.take (validFrames.toNat * 4)
  ⟨{ old with
      sequence := sequence, epoch := epoch, validFrames := validFrames, flags := flagValid
      correctionPpm := correctionPpm, cpuTimestamp := cpuTimestamp
      crc32 := if computeCrc then crc32 copied else 0 },
    Offload.padTo payloadCapacityBytes copied⟩

/-- The injected producer stall. -/
def Sys.checkStall (s : Sys) : Bool × Sys :=
  if s.stallProducer then (true, s.count fun c => { c with backpressure := c.backpressure + 1 })
  else (false, s)

/-- `flpr_ring_produce_begin` on the input ring. -/
def Sys.produceBegin (s : Sys) : Option UInt32 × Sys :=
  match s.inp.produceBegin with
  | (r, some idx) => (some idx, { s with inp := r })
  | (r, none) =>
    (none, ({ s with inp := r } : Sys).count fun c => { c with fullEvents := c.fullEvents + 1 })

/-- `flpr_ring_mgr_produce_block`. -/
def produceBlock (pcmData : List UInt8) (validFrames : UInt16) (sequence : UInt32)
    (correctionPpm : Int32) (computeCrc : Bool) : Prog Produce :=
  if validFrames.toNat > payloadMaxInput then pure .invalid
  else do
    let stalled ← cpu fun _ s => s.checkStall
    if stalled then pure .full
    else do
      let epoch ← cpu fun _ s => (s.epoch, s)
      if epoch = 0 then pure .invalid
      else do
        match ← cpu fun _ s => s.produceBegin with
        | none => pure .full
        | some idx => do
          cpu fun t s => ((), { s with
            inp := s.inp.write idx (blockSlot (s.inp.slots (slotBase idx)).slotMeta pcmData
              validFrames sequence correctionPpm computeCrc epoch t.reading) })
          update fun s => { s with inp := s.inp.produceCommit }
          pure .ok

/-- `enum flpr_consume_result`. -/
inductive Consume where
  | ok
  | empty
  | stale
  | invalid
  deriving DecidableEq

/-- The checks of an accepted slot while a test is active. -/
def Sys.verify (s : Sys) (c : Slot) : Sys :=
  let n := c.slotMeta.validFrames.toNat * 4
  if s.testActive then
    s.count fun k =>
      { k with
        crcErrors :=
          if c.slotMeta.crc32 ≠ 0 ∧ crc32 (c.payload.take n) ≠ c.slotMeta.crc32 then k.crcErrors + 1
          else k.crcErrors
        payloadErrors :=
          k.payloadErrors + verifyPayload c.payload n c.slotMeta.sequence }
  else s

/-- `flpr_ring_consume_begin` on the output ring with the local epoch, which only this thread
changes. -/
def Sys.consumeBegin (s : Sys) : (Consume ⊕ Fin 4) × Sys :=
  match s.out.consumeBegin s.epoch with
  | (r, .empty) => (.inl .empty, { s with out := r })
  | (r, .stale) =>
    (.inl .stale, ({ s with out := r } : Sys).count fun c =>
      { c with staleEvents := c.staleEvents + 1 })
  | (r, .slot i) => (.inr i, { s with out := r })

/-- `flpr_ring_mgr_consume_block`. -/
def consumeBlock : Prog Consume := do
  match ← cpu fun _ s => s.consumeBegin with
  | .inl result => pure result
  | .inr i => do
    let c ← cpu fun _ s => (s.out.slots i, s)
    if c.slotMeta.validFrames.toNat > payloadCapacityFrames then do
      update fun s => { s with out := s.out.consumeDone }
      pure .invalid
    else do
      update fun s => s.verify c
      update fun s => { s with out := s.out.consumeDone, consumed := s.consumed ++ [c] }
      update fun s => s.count fun k => { k with recv := k.recv + 1 }
      pure .ok

/-- `flpr_ring_mgr_notify_producer`; whether the message was sent. -/
def notifyProducer : Prog Bool := sendMsg

/-- `flpr_ring_mgr_wait_consume`; whether a token came before the timeout. -/
def waitConsume : Prog Bool :=
  cpu fun _ s => if s.sem = 0 then (false, s) else (true, { s with sem := s.sem - 1 })

end Acceptance

end LeAudioReceiver
