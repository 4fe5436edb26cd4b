import LeAudioReceiver.Circular.Basic
import Mathlib.Data.UInt

/-!
# The Mode A event assembler

A model of `src/audio_modea.c`.  Each of two channels delivers one half of every event; the halves
wait in a circular queue per channel until the two oldest ones decide an event.

A half is popped by the event that resolves it.  `Emission` keeps, beside the event handed to the
caller, which halves it popped, so that a history of emissions says what became of each half.

A pointer to `len` bytes is the list of these bytes, and a null pointer is `none`.  `store` is
called with a state and an event buffer, so the null checks of the source are not here.
-/

namespace LeAudioReceiver

namespace ModeA

open Circular

/-- `MODEA_PENDING_DEPTH` and `MODEA_MAX_FRAME_OCTETS`. -/
structure Config where
  pendingDepth : ℕ
  pendingDepth_pos : 0 < pendingDepth
  maxFrameOctets : ℕ

/-- `enum modea_channel`. -/
inductive Channel where
  | left
  | right
  deriving DecidableEq, Repr

/-- The other channel. -/
def Channel.other : Channel → Channel
  | left => right
  | right => left

theorem Channel.other_ne (ch : Channel) : ch.other ≠ ch := by cases ch <;> simp [Channel.other]

theorem Channel.eq_other {ch ch' : Channel} (h : ch' ≠ ch) : ch' = ch.other := by
  cases ch <;> cases ch' <;> first | rfl | exact absurd rfl h

/-- `enum modea_action`. -/
inductive StoreAction where
  | none
  | emit
  | drop
  deriving DecidableEq, Repr

/-- `struct modea_half`. -/
structure Half where
  present : Bool
  srcValid : Bool
  hasTs : Bool
  ts : UInt32
  seq : UInt16
  len : ℕ
  data : List UInt8
  deriving DecidableEq, Repr

/-- `struct modea_event`. -/
structure Event where
  ts : UInt32
  seq : Channel → UInt16
  halfValid : Channel → Bool
  halfSrc : Channel → Bool
  len : Channel → ℕ
  data : Channel → List UInt8

/-- A resolved event, and the halves that were popped for it. -/
structure Emission where
  event : Event
  popped : Channel → Option Half

/-- `struct modea_state`. -/
structure State (c : Config) where
  queue : Channel → Queue c.pendingDepth Half
  lastTs : Channel → UInt32
  lastHasTs : Channel → Bool
  intervalUs : UInt32
  resolvedTs : UInt32
  resolvedHasTs : Bool
  resolvedEvents : UInt32
  plcBackedEvents : UInt32
  overflowDrops : UInt32
  rejects : UInt32

/-- The arguments of `modea_store`. -/
structure Delivery where
  ch : Channel
  data : Option (List UInt8)
  len : ℕ
  srcValid : Bool
  hasTs : Bool
  ts : UInt32
  seq : UInt16

/-- What `modea_store` leaves behind: the state, the action, and the event of an emission. -/
structure Outcome (c : Config) where
  st : State c
  action : StoreAction
  emission : Option Emission

/-! ### Timestamps -/

/-- `MODEA_TS_TOLERANCE`. -/
def tsTolerance : ℕ := 100

/-- `ts_same_event`. -/
def tsSameEvent (a b : UInt32) : Bool :=
  let d := (a - b).toNat
  d = 0 || d ≤ tsTolerance || d ≥ 0xFFFFFFFF - tsTolerance

/-- `ts_newer`. -/
def tsNewer (a b : UInt32) : Bool :=
  let d := (a - b).toNat
  d > tsTolerance && d < 0x80000000

/-! ### Buffers -/

/-- `memset(_, 0, n)`. -/
def zeros (n : ℕ) : List UInt8 := List.replicate n 0

/-- `memcpy`. -/
def memcpy (dst src : List UInt8) (n : ℕ) : List UInt8 := src.take n ++ dst.drop n

variable {c : Config}

/-! ### The queues -/

/-- The half `enqueue_half` writes. -/
def Delivery.half (d : Delivery) (c : Config) (hasTs : Bool) (ts : UInt32) : Half where
  present := true
  srcValid := d.srcValid
  hasTs := hasTs
  ts := ts
  seq := d.seq
  len := d.len
  data :=
    match d.data with
    | some bytes =>
      if d.len > 0 then memcpy (zeros c.maxFrameOctets) bytes d.len else zeros c.maxFrameOctets
    | none => zeros c.maxFrameOctets

namespace State

/-- `count[ch]`. -/
def count (st : State c) (ch : Channel) : ℕ := (st.queue ch).count

/-- `oldest_c`. -/
def oldest (st : State c) (ch : Channel) : Half := (st.queue ch).oldest

/-- The unresolved halves of a channel, oldest first. -/
def pending (st : State c) (ch : Channel) : List Half := (st.queue ch).toList

/-- `modea_reset`. -/
def reset : State c where
  queue := fun _ =>
    ⟨fun _ => ⟨false, false, false, 0, 0, 0, zeros c.maxFrameOctets⟩, ⟨0, c.pendingDepth_pos⟩, 0⟩
  lastTs := fun _ => 0
  lastHasTs := fun _ => false
  intervalUs := 0
  resolvedTs := 0
  resolvedHasTs := false
  resolvedEvents := 0
  plcBackedEvents := 0
  overflowDrops := 0
  rejects := 0

/-- `modea_config`. -/
def config (st : State c) (intervalUs : UInt32) : State c := { st with intervalUs }

/-- `enqueue_half`, with the half it writes. -/
def enqueueHalf (st : State c) (ch : Channel) (h : Half) : State c :=
  { st with queue := Function.update st.queue ch ((st.queue ch).enqueue h) }

/-- `pop_half`. -/
def popHalf (st : State c) (ch : Channel) : State c :=
  { st with
    queue := Function.update st.queue ch
      ((st.queue ch).pop fun h => { h with present := false }) }

/-! ### Events -/

/-- `fill_half` and the fields of a zeroed event, for the two channels at once. -/
def fillEvent (st : State c) (ts : UInt32) (carries : Channel → Bool) : Event where
  ts := ts
  seq := fun ch => (st.oldest ch).seq
  halfValid := fun ch => carries ch && (st.oldest ch).len > 0
  halfSrc := fun ch => carries ch && (st.oldest ch).len > 0 && (st.oldest ch).srcValid
  len := fun ch => if carries ch && (st.oldest ch).len > 0 then (st.oldest ch).len else 0
  data := fun ch =>
    if carries ch && (st.oldest ch).len > 0 then
      memcpy (zeros c.maxFrameOctets) (st.oldest ch).data (st.oldest ch).len
    else zeros c.maxFrameOctets

/-- `emit_event`; `data ch` and `pop ch` are the arguments for channel `ch`. -/
def emitEvent (st : State c) (data pop : Channel → Bool) (ts : UInt32) : State c × Emission :=
  let carries := fun ch => data ch && (st.oldest ch).srcValid
  let ev := st.fillEvent ts carries
  let plc := !carries .left || !carries .right
  let timed := fun ch => pop ch && st.count ch ≠ 0 && (st.oldest ch).hasTs
  let st₁ : State c :=
    { st with
      plcBackedEvents := if plc then st.plcBackedEvents + 1 else st.plcBackedEvents
      resolvedEvents := st.resolvedEvents + 1
      resolvedTs := if timed .left || timed .right then ts else st.resolvedTs
      resolvedHasTs := if timed .left || timed .right then true else st.resolvedHasTs }
  let st₂ := if pop .left then st₁.popHalf .left else st₁
  let st₃ := if pop .right then st₂.popHalf .right else st₂
  (st₃, ⟨ev, fun ch => if pop ch && st.count ch ≠ 0 then some (st.oldest ch) else none⟩)

/-- The arguments of `emit_event` that hold for one channel only. -/
def only (ch : Channel) : Channel → Bool := fun ch' => ch' = ch

/-- The arguments of `emit_event` that hold for both channels. -/
def both : Channel → Bool := fun _ => true

/-- The arguments of `emit_event` that hold for no channel. -/
def neither : Channel → Bool := fun _ => false

/-- The emission of an event, as `modea_store` reports it. -/
def emitted (r : State c × Emission) : Outcome c := ⟨r.1, .emit, some r.2⟩

/-- The last part of `modea_store`: at most one event, from the two oldest halves. -/
def resolve (st : State c) (dropped : Bool) : Outcome c :=
  if st.count .left = 0 ∨ st.count .right = 0 then ⟨st, if dropped then .drop else .none, none⟩
  else
    let l := st.oldest .left
    let r := st.oldest .right
    if l.hasTs ∧ r.hasTs then
      if tsSameEvent l.ts r.ts then emitted (st.emitEvent both both l.ts)
      else if tsNewer l.ts r.ts then emitted (st.emitEvent (only .right) (only .right) r.ts)
      else emitted (st.emitEvent (only .left) (only .left) l.ts)
    else if ¬ l.hasTs ∧ ¬ r.hasTs then emitted (st.emitEvent neither both 0)
    else if l.hasTs then emitted (st.emitEvent (only .left) both l.ts)
    else emitted (st.emitEvent (only .right) both r.ts)

/-- The position `modea_store` gives a half: whether it has a timestamp, and which; and the state
with the last position of its channel. -/
def position (st : State c) (d : Delivery) : State c × Bool × UInt32 :=
  if d.hasTs then
    if ¬ st.lastHasTs d.ch ∨ tsNewer d.ts (st.lastTs d.ch) then
      ({ st with
          lastTs := Function.update st.lastTs d.ch d.ts
          lastHasTs := Function.update st.lastHasTs d.ch true }, true, d.ts)
    else (st, true, d.ts)
  else if st.lastHasTs d.ch then
    let effTs := st.lastTs d.ch + st.intervalUs
    ({ st with lastTs := Function.update st.lastTs d.ch effTs }, true, effTs)
  else (st, false, 0)

/-- A half with this position belongs to an event that was resolved before. -/
def alreadyResolved (st : State c) (effHasTs : Bool) (effTs : UInt32) : Bool :=
  effHasTs && st.resolvedHasTs && !tsNewer effTs st.resolvedTs

/-- The part of `modea_store` after the position of the half is known to be open. -/
def place (st : State c) (ch : Channel) (h : Half) : Outcome c :=
  if st.count ch ≥ c.pendingDepth ∧ st.count ch.other = 0 then
    -- the mate is late by the whole queue: the oldest half goes out alone
    let r := st.emitEvent (only ch) (only ch) (st.oldest ch).ts
    ⟨r.1.enqueueHalf ch h, .emit, some r.2⟩
  else
    let dropped : Bool := st.count ch ≥ c.pendingDepth
    let st₁ :=
      if dropped then { st.popHalf ch with overflowDrops := st.overflowDrops + 1 } else st
    (st₁.enqueueHalf ch h).resolve dropped

/-- `modea_store`. -/
def store (st : State c) (d : Delivery) : Outcome c :=
  if d.len > c.maxFrameOctets then ⟨{ st with rejects := st.rejects + 1 }, .drop, none⟩
  else
    let (st₁, effHasTs, effTs) := st.position d
    if st₁.alreadyResolved effHasTs effTs then ⟨st₁, .none, none⟩
    else st₁.place d.ch (d.half c effHasTs effTs)

/-- The half a call of `modea_store` takes into the queue of its channel: none where it is
rejected as too long or ignored as already resolved. -/
def accepts (st : State c) (d : Delivery) : Option Half :=
  let (st₁, effHasTs, effTs) := st.position d
  if d.len > c.maxFrameOctets ∨ st₁.alreadyResolved effHasTs effTs then none
  else some (d.half c effHasTs effTs)

end State

/-! ### Histories -/

/-- A state with its history: the halves accepted on each channel and the emissions, each in
order. -/
structure History (c : Config) where
  st : State c
  accepted : Channel → List Half
  emissions : List Emission

namespace History

/-- A stream that has just been set up. -/
def start (c : Config) (intervalUs : UInt32) : History c :=
  ⟨State.reset.config intervalUs, fun _ => [], []⟩

/-- One call of `modea_store`. -/
def store (t : History c) (d : Delivery) : History c where
  st := (t.st.store d).st
  accepted :=
    Function.update t.accepted d.ch (t.accepted d.ch ++ (t.st.accepts d).toList)
  emissions := t.emissions ++ (t.st.store d).emission.toList

/-- A sequence of calls. -/
def run (t : History c) (ds : List Delivery) : History c := ds.foldl store t

/-- The halves of a channel that the emissions popped, in the order of the emissions. -/
def consumed (t : History c) (ch : Channel) : List Half :=
  t.emissions.filterMap fun e => e.popped ch

end History

end ModeA

end LeAudioReceiver
