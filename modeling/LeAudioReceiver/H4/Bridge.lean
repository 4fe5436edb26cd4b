import LeAudioReceiver.H4.Framing
import LeAudioReceiver.Machine.Basic

/-!
# The receive path of the H4 bridge

`src/dongle/hci_uart/src/main.c` from `h4_rx_init` on: the callback `uart_event`, the thread
`receive`, and the calls of `fail` in `main`.  The callback runs in the UART interrupt, so an event
is one step; a step of the thread is one access of `bridge_fault`, `rx_ready`, `rx_ring` or the
parser.  The events are those of a driver that gives back only buffers it owns.

The record `received` holds the bytes of all `UART_RX_RDY` events, `fed` those handed to
`h4_rx_feed`.  The sending direction is left out, up to its failures.
-/

namespace LeAudioReceiver

namespace H4

/-- The capacity of `rx_ring`. -/
def ringCapacity : ℕ := 8192

/-- The size of `chunk`. -/
def chunkSize : ℕ := 128

/-- Where `receive` stands. -/
inductive Pc where
  /-- Before the check of the outer loop. -/
  | outer
  /-- In `k_sem_take`. -/
  | take
  /-- Before the check of the inner loop. -/
  | inner
  /-- Before `ring_buf_get`, the check passed. -/
  | get
  /-- Before `h4_rx_feed`. -/
  | feed (chunk : List UInt8)
  /-- In `fail(7)`, before `atomic_cas`. -/
  | failCas
  /-- In `fail(7)`, before `k_sem_give`. -/
  | failGive
  /-- Before `k_yield`. -/
  | yield
  /-- Returned. -/
  | ended
  deriving DecidableEq

/-- The numerals of the two DMA buffers. -/
scoped instance neZeroTwo : NeZero 2 := ⟨by decide⟩

/-- The bridge and the UART driver. -/
structure Bridge (σ : Type*) where
  /-- `rx_ring`. -/
  ring : List UInt8
  /-- `rx_ready` is available. -/
  ready : Bool
  /-- `bridge_fault`. -/
  fault : ℕ
  /-- The bits of `dma_owned`. -/
  dmaOwned : Fin 2 → Bool
  /-- The driver owns a DMA buffer. -/
  driver : Fin 2 → Bool
  pc : Pc
  /-- `main` is inside `fail(8)`, before `k_sem_give`. -/
  mainGives : Bool
  /-- `parser`. -/
  session : Session σ
  /-- The bytes of the `UART_RX_RDY` events. -/
  received : List UInt8
  /-- The bytes handed to `h4_rx_feed`. -/
  fed : List UInt8

namespace Bridge

/-- What happens next. -/
inductive Action where
  /-- `UART_RX_RDY`. -/
  | rxRdy (data : List UInt8)
  /-- `UART_RX_BUF_REQUEST`; `uart_rx_buf_rsp` accepts a buffer or fails. -/
  | rxBufRequest (accepts : Bool)
  /-- `UART_RX_BUF_RELEASED`, of a DMA buffer or of anything else. -/
  | rxBufReleased (buf : Option (Fin 2))
  /-- `UART_RX_STOPPED` or `UART_RX_DISABLED`. -/
  | rxStopped
  /-- `UART_TX_ABORTED`. -/
  | txAborted
  /-- A step of `receive`. -/
  | receive
  /-- `main` fails to transmit: `atomic_cas` of `fail(8)`. -/
  | mainFails
  /-- `k_sem_give` of it. -/
  | mainGives

variable {σ : Type*}

/-- `atomic_cas(&bridge_fault, 0, code)`. -/
def cas (s : Bridge σ) (code : ℕ) : Bridge σ :=
  { s with fault := if s.fault = 0 then code else s.fault }

/-- `k_sem_give(&rx_ready)`. -/
def give (s : Bridge σ) : Bridge σ := { s with ready := true }

/-- `fail`. -/
def fail (s : Bridge σ) (code : ℕ) : Bridge σ := (s.cas code).give

/-- `UART_RX_RDY`: `ring_buf_put` stores the longest prefix that fits. -/
def rxRdy (s : Bridge σ) (data : List UInt8) : Bridge σ :=
  let stored := data.take (ringCapacity - s.ring.length)
  let s := { s with ring := s.ring ++ stored, received := s.received ++ data }
  (if stored.length ≠ data.length then s.fail 1 else s).give

/-- The buffer that a request takes: the first whose bit is clear. -/
def offered (s : Bridge σ) : Option (Fin 2) :=
  if s.dmaOwned 0 = false then some 0 else if s.dmaOwned 1 = false then some 1 else none

/-- `UART_RX_BUF_REQUEST`.  A bit that is set for a buffer refused is cleared again. -/
def rxBufRequest (s : Bridge σ) (accepts : Bool) : Bridge σ :=
  match s.offered with
  | some i =>
    if accepts then
      { s with dmaOwned := Function.update s.dmaOwned i true
               driver := Function.update s.driver i true }
    else { s with dmaOwned := Function.update s.dmaOwned i false }.fail 2
  | none => s.fail 3

/-- `UART_RX_BUF_RELEASED`. -/
def rxBufReleased (s : Bridge σ) : Option (Fin 2) → Bridge σ
  | some i =>
    { s with dmaOwned := Function.update s.dmaOwned i false
             driver := Function.update s.driver i false }
  | none => s.fail 4

variable (submit : UInt8 → List UInt8 → σ → ℤ × σ)

/-- A step of `receive`; `none` where it waits or has returned. -/
def receive (s : Bridge σ) : Option (Bridge σ) :=
  match s.pc with
  | .outer => some { s with pc := if s.fault = 0 then .take else .ended }
  | .take => if s.ready then some { s with ready := false, pc := .inner } else none
  | .inner => some { s with pc := if s.fault = 0 then .get else .outer }
  | .get =>
    let chunk := s.ring.take chunkSize
    some { s with ring := s.ring.drop chunkSize
                  pc := if chunk.length = 0 then .outer else .feed chunk }
  | .feed chunk =>
    let r := s.session.feed submit chunk
    some { s with session := r.1, fed := s.fed ++ chunk
                  pc := if r.2 = 0 then .yield else .failCas }
  | .failCas => some { s.cas 7 with pc := .failGive }
  | .failGive => some { s.give with pc := .yield }
  | .yield => some { s with pc := .inner }
  | .ended => none

/-- One step of the bridge. -/
def next (s : Bridge σ) : Action → Option (Bridge σ)
  | .rxRdy data => some (s.rxRdy data)
  | .rxBufRequest accepts => some (s.rxBufRequest accepts)
  | .rxBufReleased buf => if buf.all s.driver then some (s.rxBufReleased buf) else none
  | .rxStopped => some (s.fail 5)
  | .txAborted => some (s.fail 6)
  | .receive => s.receive submit
  | .mainFails => if s.mainGives then none else some { s.cas 8 with mainGives := true }
  | .mainGives => if s.mainGives then some { s.give with mainGives := false } else none

/-- The bridge as `main` starts it: the driver owns the first buffer. -/
structure Init (s : Bridge σ) : Prop where
  ring : s.ring = []
  ready : s.ready = false
  fault : s.fault = 0
  dmaOwned : s.dmaOwned = fun i => i == 0
  driver : s.driver = fun i => i == 0
  pc : s.pc = .outer
  mainGives : s.mainGives = false
  session : ∃ (mem : ℕ → UInt8) (s₀ : Session σ), s.session = s₀.init mem
  received : s.received = []
  fed : s.fed = []

/-- The bridge in its surroundings. -/
def machine : Machine (Bridge σ) Action where
  init := Init
  next := next submit

end Bridge

end H4

end LeAudioReceiver
