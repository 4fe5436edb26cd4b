import LeAudioReceiver.Circular.Basic
import LeAudioReceiver.Machine.Basic
import LeAudioReceiver.WorkQueue.Basic
import Mathlib.Algebra.GroupWithZero.Nat
import Mathlib.Data.Int.Notation

/-!
# The timing measurement

The model of `src/audio_timing_nrf54.c` and of the helpers in `src/audio_timing_math.c`: the
compare handler, which runs as an interrupt and so in one step; the work handler, step by step;
and the critical sections under `ctl_mutex`, of `audio_timing_sdu_ref_update` and of
`audio_timing_reset`, which any number of threads enter one after the other and during which the
interrupt can come.

Beside the state the system keeps what has been published, popped, checked and forwarded so far,
and how many resets and anchors there have been.
-/

namespace LeAudioReceiver

namespace Timing

/-- `DIAG_FIFO_CAPACITY`. -/
def diagFifoCapacity : ℕ := 16

instance : NeZero diagFifoCapacity := ⟨by decide⟩

/-! ### Arithmetic -/

/-- `audio_timing_iso_ts_to_grtc64`. -/
def isoTsToGrtc64 (tsUs : UInt32) (nowUs : UInt64) : UInt64 :=
  let full := nowUs &&& 0xFFFFFFFF00000000 ||| tsUs.toUInt64
  if tsUs.toUInt64 < nowUs &&& 0xFFFFFFFF then full + 0x100000000 else full

/-- `audio_timing_anchor_to_grtc64`. -/
def anchorToGrtc64 (sduTsUs pdUs : UInt32) (nowUs : UInt64) : UInt64 :=
  isoTsToGrtc64 (sduTsUs + pdUs) nowUs

/-- `audio_timing_counter_delta_u32`. -/
def counterDeltaU32 (current previous : UInt32) : UInt32 := current - previous

/-- `audio_timing_compute_ppm`; the result is narrowed to an `int32_t`. -/
def computePpm (measured nominalExpected : UInt32) : ℤ :=
  if nominalExpected = 0 then 0
  else
    let diff : ℤ := measured.toNat - nominalExpected.toNat
    ((diff * 1000000).tdiv nominalExpected.toNat).bmod (2 ^ 32)

/-! ### The state -/

/-- `struct diag_payload`. -/
structure DiagPayload where
  tickDelta : UInt32
  elapsedUs : UInt32
  nominalHz : UInt32
  seq : UInt32
  gen : UInt32
  isError : Bool
  scheduleErr : ℤ
  deriving DecidableEq, Repr

namespace DiagPayload

variable (d : DiagPayload)

/-- The handler hands it to the drift controller if its generation is current. -/
def measured : Bool := !d.isError && d.elapsedUs ≠ 0

/-- The ticks expected in the interval. -/
def nominal : UInt32 :=
  let nominal64 := d.nominalHz.toUInt64 * d.elapsedUs.toUInt64 / 1000000
  if nominal64 > 0xFFFFFFFF then 0xFFFFFFFF else nominal64.toUInt32

/-- What the drift controller is told. -/
def ppm : ℤ := computePpm d.tickDelta d.nominal

end DiagPayload

/-- A payload, and how many resets there had been when it was captured, which the code does not
know. -/
structure Capture extends DiagPayload where
  session : ℕ
  deriving DecidableEq, Repr

/-- A payload that was handed to `diag_fifo_push`, and whether it was stored. -/
structure Publication where
  capture : Capture
  accepted : Bool
  deriving DecidableEq, Repr

/-- The payloads that were stored, in publication order. -/
def stored (l : List Publication) : List Capture := (l.filter (·.accepted)).map (·.capture)

/-- Where the work handler is. -/
inductive WorkPc where
  | idle
  /-- Before the next pop. -/
  | loop
  /-- Before the test of the generation. -/
  | popped (c : Capture)
  /-- The generation was current. -/
  | current (c : Capture)
  /-- Before the test of the overflow fault. -/
  | report
  /-- Before the fault is cleared. -/
  | clear
  deriving DecidableEq, Repr

/-- Where the thread is that holds `ctl_mutex`. -/
inductive CtlPc where
  /-- Nobody holds it. -/
  | free
  /-- The first compare is programmed. -/
  | activate
  /-- Measurement is active. -/
  | commit
  /-- Before the sequence starts afresh. -/
  | startSeq
  /-- The generation is bumped. -/
  | disable
  /-- The compare is disabled. -/
  | clear
  deriving DecidableEq, Repr

/-- The module, and its history. -/
structure State where
  active : Bool
  generation : UInt32
  diagFifo : Circular.Queue diagFifoCapacity Capture
  overflowFault : Bool
  anchorSet : Bool
  lastCap : UInt32
  lastCompareUs : UInt64
  diagSeq : UInt32
  timerNominalHz : UInt32
  /-- The compare that is programmed. -/
  compare : Option UInt64
  diagWork : WorkQueue.Item
  workPc : WorkPc
  ctlPc : CtlPc
  /-- The resets so far. -/
  resets : ℕ
  /-- The payloads handed to `diag_fifo_push` so far. -/
  published : List Publication
  /-- The payloads popped, with the generation at that moment. -/
  popped : List (Capture × UInt32)
  /-- The payloads tested, with the generation they were tested against. -/
  checked : List (Capture × UInt32)
  /-- The payloads whose ppm was handed to the drift controller. -/
  forwarded : List Capture

namespace State

variable (s : State)

/-! ### Publishing -/

/-- `diag_fifo_push`. -/
def diagFifoPush (c : Capture) : Option (Circular.Queue diagFifoCapacity Capture) :=
  if diagFifoCapacity ≤ s.diagFifo.count then none else some (s.diagFifo.enqueue c)

/-- `diag_publish`. -/
def diagPublish (d : DiagPayload) : State :=
  let c : Capture := ⟨d, s.resets⟩
  let s' : State := match s.diagFifoPush c with
    | some fifo => { s with diagFifo := fifo, published := s.published ++ [⟨c, true⟩] }
    | none =>
      { s with overflowFault := true, active := false, published := s.published ++ [⟨c, false⟩] }
  { s' with diagWork := s'.diagWork.schedule true }

/-- The payload of a schedule failure. -/
def errorPayload (ret : ℤ) : DiagPayload := ⟨0, 0, 0, s.diagSeq, s.generation, true, ret⟩

/-- The payload of a compare at `ccValue` with the timer at `cap`. -/
def payload (ccValue : UInt64) (cap : UInt32) : DiagPayload :=
  ⟨counterDeltaU32 cap s.lastCap, (ccValue - s.lastCompareUs).toUInt32, s.timerNominalHz,
    s.diagSeq + 1, s.generation, false, 0⟩

/-- `grtc_cc_handler`: the compare at `ccValue` has captured `cap`, the counter is at `now`, and
programming the next compare returns `ret`. -/
def grtcCcHandler (ccValue now : UInt64) (cap : UInt32) (ret : ℤ) : State :=
  if !s.active then s
  else if ret < 0 then { s with active := false }.diagPublish (s.errorPayload ret)
  else
    let nextCmp := if ccValue + 1000000 ≤ now then now + 1000000 else ccValue + 1000000
    let s := { s with compare := some nextCmp }
    let s := if s.lastCompareUs ≠ 0 then
        { s with diagSeq := s.diagSeq + 1 }.diagPublish (s.payload ccValue cap)
      else s
    { s with lastCap := cap, lastCompareUs := ccValue }

/-! ### The work handler -/

/-- The head is taken off the queue. -/
def pop : State :=
  let c := s.diagFifo.oldest
  { s with
    diagFifo := s.diagFifo.pop id
    workPc := .popped c
    popped := s.popped ++ [(c, s.generation)] }

/-- The generation of a popped payload is tested. -/
def check (c : Capture) : State :=
  { s with
    workPc := if c.gen = s.generation then .current c else .loop
    checked := s.checked ++ [(c, s.generation)] }

/-- A payload with the current generation: an error is logged, an empty interval is skipped, and
a measurement goes to the drift controller. -/
def consume (c : Capture) : State :=
  { s with
    workPc := .loop
    forwarded := if c.measured then s.forwarded ++ [c] else s.forwarded }

/-- The handler returns to the work queue. -/
def workExit : State := { s with workPc := .idle, diagWork := s.diagWork.finish }

/-- The work queue calls `diag_work_handler`, or the handler takes its next step. -/
def diagWorkHandler : Option State :=
  match s.workPc with
  | .idle =>
    if s.diagWork.pending then some { s with workPc := .loop, diagWork := .taken } else none
  | .loop => some (if s.diagFifo.count = 0 then { s with workPc := .report } else s.pop)
  | .popped c => some (s.check c)
  | .current c => some (s.consume c)
  | .report => some (if s.overflowFault then { s with workPc := .clear } else s.workExit)
  | .clear => some { s with overflowFault := false }.workExit

/-! ### Under the control mutex -/

/-- The first compare of an anchor. -/
def firstCompare (sduTsUs pdUs : UInt32) (now : UInt64) : UInt64 :=
  let firstCmp := anchorToGrtc64 sduTsUs pdUs now + 1000000
  if firstCmp ≤ now then now + 1000000 else firstCmp

/-- `audio_timing_sdu_ref_update`, until the first compare is programmed, which returns `ret`. -/
def sduRefUpdate (sduTsUs pdUs : UInt32) (now : UInt64) (ret : ℤ) : State :=
  if sduTsUs = 0 ∨ s.anchorSet ∨ ret < 0 then s
  else { s with compare := some (firstCompare sduTsUs pdUs now), ctlPc := .activate }

/-- `audio_timing_reset`, its section under `diag_lock`. -/
def reset : State :=
  { s with
    active := false
    generation := s.generation + 1
    diagSeq := 0
    resets := s.resets + 1
    ctlPc := .disable }

/-- The holder of `ctl_mutex` goes on. -/
def ctlRun : Option State :=
  match s.ctlPc with
  | .free => none
  | .activate => some { s with active := true, ctlPc := .commit }
  | .commit => some { s with anchorSet := true, lastCompareUs := 0, ctlPc := .startSeq }
  | .startSeq => some { s with diagSeq := 0, ctlPc := .free }
  | .disable => some { s with compare := none, ctlPc := .clear }
  | .clear =>
    some { s with anchorSet := false, lastCompareUs := 0, lastCap := 0, ctlPc := .free }

/-- After `audio_timing_init`. -/
def init (timerNominalHz : UInt32) : State :=
  { active := false
    generation := 0
    diagFifo := ⟨fun _ => ⟨⟨0, 0, 0, 0, 0, false, 0⟩, 0⟩, 0, 0⟩
    overflowFault := false
    anchorSet := false
    lastCap := 0
    lastCompareUs := 0
    diagSeq := 0
    timerNominalHz := timerNominalHz
    compare := none
    diagWork := .idle
    workPc := .idle
    ctlPc := .free
    resets := 0
    published := []
    popped := []
    checked := []
    forwarded := [] }

end State

/-- An interrupt, a step of the work queue, or a step under `ctl_mutex`. -/
inductive Action where
  | isr (ccValue now : UInt64) (cap : UInt32) (ret : ℤ)
  | work
  | sduRefUpdate (sduTsUs pdUs : UInt32) (now : UInt64) (ret : ℤ)
  | reset
  | ctlRun
  deriving DecidableEq, Repr

namespace State

variable (s : State)

/-- One step; a thread waits for `ctl_mutex` until it is free. -/
def next : Action → Option State
  | .isr ccValue now cap ret => some (s.grtcCcHandler ccValue now cap ret)
  | .work => s.diagWorkHandler
  | .sduRefUpdate sduTsUs pdUs now ret =>
    if s.ctlPc = .free then some (s.sduRefUpdate sduTsUs pdUs now ret) else none
  | .reset => if s.ctlPc = .free then some s.reset else none
  | .ctlRun => s.ctlRun

/-- All runs. -/
def machine : Machine State Action := ⟨fun s => ∃ timerNominalHz, s = init timerNominalHz, next⟩

/-- The item is neither queued nor running. -/
def QueueIdle : Prop := s.diagWork.pending = false ∧ s.diagWork.running = false

instance : Decidable s.QueueIdle := inferInstanceAs (Decidable (_ ∧ _))

/-- The payloads that `diag_fifo_push` has stored so far. -/
def accepted : List Capture := stored s.published

end State

end Timing

end LeAudioReceiver
