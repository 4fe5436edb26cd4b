import Mathlib.Algebra.Ring.Nat
import Mathlib.Data.Fin.VecNotation
import Mathlib.Data.Int.Notation
import Mathlib.Logic.Function.Basic
import Mathlib.Tactic.Common

/-!
# The H4 parser of the dongle

The byte-wise parser of the HCI UART bridge (`src/dongle/hci_uart/src/h4_rx.c`): `h4_rx_init` and
`h4_rx_feed`.  The frame buffer is the memory from its first byte on, so that a store past its end
is a store like any other.  The callback `deliver` is arbitrary: it reads and changes a user state
and returns an `int`.  A `Session` is the parser and the user state, beside a record of the calls
of `deliver` and of the indices written in the frame.

The checks for null arguments are left out.
-/

namespace LeAudioReceiver

namespace H4

/-- `H4_RX_FRAME_MAX`. -/
def frameMax : ℕ := 1028

/-- `EPROTO`. -/
def eproto : ℤ := 71

/-- `EMSGSIZE`. -/
def emsgsize : ℤ := 90

/-! ### The parser -/

/-- `struct h4_rx`. -/
structure Rx where
  /-- `0` where the next byte is a type. -/
  type : UInt8
  headerSize : ℕ
  used : ℕ
  expected : ℕ
  /-- The latched error; `0` is none. -/
  error : ℤ
  /-- The memory from the first byte of the frame on. -/
  frame : ℕ → UInt8

namespace Rx

/-- `h4_rx_init`, where the memory of the frame and behind it holds `mem`. -/
def init (mem : ℕ → UInt8) : Rx :=
  { type := 0, headerSize := 0, used := 0, expected := 0, error := 0
    frame := fun i => if i < frameMax then 0 else mem i }

/-- `rx->frame[rx->used++] = b`. -/
def store (rx : Rx) (b : UInt8) : Rx :=
  { rx with frame := Function.update rx.frame rx.used b, used := rx.used + 1 }

/-- The first `used` bytes of the frame. -/
def packet (rx : Rx) : List UInt8 := (List.range rx.used).map rx.frame

/-- The payload length in a complete header. -/
def payload (rx : Rx) : ℕ :=
  if rx.type = 1 then (rx.frame 2).toNat
  else
    let payload := (rx.frame 2).toNat ||| (rx.frame 3).toNat <<< 8
    if rx.type = 5 then payload &&& 0x3fff else payload

@[simp] theorem store_type (rx : Rx) (b : UInt8) : (rx.store b).type = rx.type := rfl
@[simp] theorem store_headerSize (rx : Rx) (b : UInt8) :
    (rx.store b).headerSize = rx.headerSize := rfl
@[simp] theorem store_used (rx : Rx) (b : UInt8) : (rx.store b).used = rx.used + 1 := rfl
@[simp] theorem store_expected (rx : Rx) (b : UInt8) : (rx.store b).expected = rx.expected := rfl
@[simp] theorem store_error (rx : Rx) (b : UInt8) : (rx.store b).error = rx.error := rfl

@[simp] theorem packet_store (rx : Rx) (b : UInt8) : (rx.store b).packet = rx.packet ++ [b] := by
  have hold : (List.range rx.used).map (rx.store b).frame = rx.packet := by
    refine List.map_congr_left fun i hi => ?_
    exact Function.update_of_ne (Nat.ne_of_lt (List.mem_range.1 hi)) b rx.frame
  simp only [packet, store_used, List.range_succ, List.map_append, List.map_singleton, hold]
  simp [store]

@[simp] theorem length_packet (rx : Rx) : rx.packet.length = rx.used := by simp [packet]

theorem frame_eq {rx : Rx} {q : List UInt8} (h : rx.packet = q) {i : ℕ} (hi : i < q.length) :
    rx.frame i = q[i] := by
  subst h
  simp [packet]

end Rx

/-! ### Sessions -/

/-- A call of `deliver`: the packet type and the packet. -/
abbrev Call := UInt8 × List UInt8

/-- The parser and the user state of its callback. -/
structure Session (σ : Type*) where
  rx : Rx
  user : σ
  /-- The calls of `deliver` so far. -/
  calls : List Call
  /-- The indices of the frame written so far. -/
  stores : List ℕ

namespace Session

variable {σ : Type*} (deliver : UInt8 → List UInt8 → σ → ℤ × σ)

/-- A new type byte. -/
def typeByte (s : Session σ) (b : UInt8) : Session σ :=
  if b = 1 then { s with rx := { s.rx with headerSize := 3, type := b, used := 0, expected := 3 } }
  else if b = 2 ∨ b = 5 then
    { s with rx := { s.rx with headerSize := 4, type := b, used := 0, expected := 4 } }
  else { s with rx := { s.rx with error := -eproto } }

/-- A byte stored in the frame. -/
def store (s : Session σ) (b : UInt8) : Session σ :=
  { s with rx := s.rx.store b, stores := s.stores ++ [s.rx.used] }

/-- The expected length, once the header is complete. -/
def header (s : Session σ) : Session σ :=
  if s.rx.used = s.rx.headerSize then
    if s.rx.payload > frameMax - s.rx.headerSize then
      { s with rx := { s.rx with error := -emsgsize } }
    else { s with rx := { s.rx with expected := s.rx.expected + s.rx.payload } }
  else s

/-- The call of `deliver`, once the packet is complete. -/
def complete (s : Session σ) : Session σ :=
  if s.rx.used = s.rx.expected then
    let r := deliver s.rx.type s.rx.packet s.user
    let s := { s with user := r.2, calls := s.calls ++ [(s.rx.type, s.rx.packet)] }
    if r.1 ≠ 0 then { s with rx := { s.rx with error := r.1 } }
    else { s with rx := { s.rx with type := 0 } }
  else s

/-- One byte of the loop of `h4_rx_feed`. -/
def byte (s : Session σ) (b : UInt8) : Session σ :=
  if s.rx.type = 0 then s.typeByte b
  else
    let s := (s.store b).header
    if s.rx.error ≠ 0 then s else s.complete deliver

/-- The loop of `h4_rx_feed`: an error leaves it and is returned. -/
def feedLoop : List UInt8 → Session σ → Session σ × ℤ
  | [], s => (s, 0)
  | b :: bs, s =>
    let s := s.byte deliver b
    if s.rx.error ≠ 0 then (s, s.rx.error) else feedLoop bs s

/-- `h4_rx_feed`. -/
def feed (s : Session σ) (data : List UInt8) : Session σ × ℤ :=
  if s.rx.error ≠ 0 then (s, s.rx.error) else feedLoop deliver data s

/-- A stream fed in fragments. -/
def feedAll (s : Session σ) (fragments : List (List UInt8)) : Session σ :=
  fragments.foldl (fun s data => (s.feed deliver data).1) s

/-- `h4_rx_init` of the parser of a session. -/
def init (s : Session σ) (mem : ℕ → UInt8) : Session σ := { s with rx := .init mem }

end Session

/-! ### Packets -/

/-- The HCI packets that the host sends, as they are encoded. -/
inductive Packet where
  /-- A command: opcode and parameters. -/
  | command (opcode : UInt8 × UInt8) (payload : List UInt8) (h : payload.length ≤ 255)
  /-- ACL data: handle with flags, and data. -/
  | acl (handle : UInt8 × UInt8) (payload : List UInt8) (h : payload.length ≤ 1024)
  /-- ISO data: handle with flags, the upper two bits of the length field, and data. -/
  | iso (handle : UInt8 × UInt8) (upper : Fin 4) (payload : List UInt8)
      (h : payload.length ≤ 1024)

namespace Packet

/-- The H4 type. -/
def type : Packet → UInt8
  | command .. => 1
  | acl .. => 2
  | iso .. => 5

/-- The header, with the length of the payload in it. -/
def header : Packet → List UInt8
  | command opcode payload _ => [opcode.1, opcode.2, .ofNat payload.length]
  | acl handle payload _ =>
    [handle.1, handle.2, .ofNat (payload.length % 256), .ofNat (payload.length / 256)]
  | iso handle upper payload _ =>
    [handle.1, handle.2, .ofNat (payload.length % 256),
      .ofNat (payload.length / 256 + 64 * upper)]

def payload : Packet → List UInt8
  | command _ payload _ => payload
  | acl _ payload _ => payload
  | iso _ _ payload _ => payload

/-- Header and payload, as `deliver` gets them. -/
def body (p : Packet) : List UInt8 := p.header ++ p.payload

/-- The H4 encoding. -/
def encode (p : Packet) : List UInt8 := p.type :: p.body

/-- The call of `deliver` for a packet. -/
def call (p : Packet) : Call := (p.type, p.body)

/-- The calls of `deliver` for a list of packets up to the first one refused, the user state after
them and the error of the last one. -/
def deliverEach {σ : Type*} (deliver : UInt8 → List UInt8 → σ → ℤ × σ) :
    List Packet → σ → List Call × σ × ℤ
  | [], user => ([], user, 0)
  | p :: ps, user =>
    let r := deliver p.type p.body user
    if r.1 ≠ 0 then ([p.call], r.2, r.1)
    else
      let rest := deliverEach deliver ps r.2
      (p.call :: rest.1, rest.2)

end Packet

end H4

end LeAudioReceiver
