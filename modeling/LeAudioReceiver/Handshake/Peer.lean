import Mathlib.Data.Nat.Notation
import Mathlib.Tactic.Common

/-!
# The remote peer

A model of `src/flpr_protocol.h`: the messages between the two cores, and what one core knows of
the other.  The functions on `Peer` are pure; `Handshake.System` runs them in the contexts that
share one peer.

* `peerRxSeq_of_accepts` : the heartbeats that move the time of the last one;
* `overdue_of_marks` : when a health check turns a healthy peer unhealthy.
-/

namespace LeAudioReceiver

namespace Handshake

/-! ### Messages -/

/-- `FLPR_PROTOCOL_VERSION`. -/
def protocolVersion : UInt8 := 4

/-- `FLPR_HEARTBEAT_INTERVAL_MS`. -/
def heartbeatIntervalMs : UInt32 := 1000

/-- `FLPR_HEARTBEAT_MISS_MAX`. -/
def heartbeatMissMax : UInt32 := 5

/-- `struct flpr_msg`. -/
structure Msg where
  type : UInt8
  version : UInt8
  seq : UInt16
  data : UInt32
  deriving DecidableEq, Repr

/-- `sizeof(struct flpr_msg)`. -/
def msgSize : ℕ := 8

/-- `FLPR_MSG_READY`. -/
def msgReady : UInt8 := 0x01

/-- `FLPR_MSG_READY_ACK`. -/
def msgReadyAck : UInt8 := 0x02

/-- `FLPR_MSG_HEARTBEAT`. -/
def msgHeartbeat : UInt8 := 0x03

/-- `FLPR_MSG_HEARTBEAT_ACK`. -/
def msgHeartbeatAck : UInt8 := 0x04

/-- `FLPR_MSG_STRESS_PING`. -/
def msgStressPing : UInt8 := 0x05

/-- The messages handed to a registered handler: `FLPR_MSG_RING_RESET_ACK`,
`FLPR_MSG_RING_CONSUMER`, `FLPR_MSG_STRESS_PONG`, `FLPR_MSG_RING_TEST_REPORT`,
`FLPR_MSG_RING_STALL_ACK` and `FLPR_MSG_FAULT_HANG_ACK`. -/
def handlerMessages : List UInt8 := [0x11, 0x16, 0x06, 0x14, 0x18, 0x21]

/-- `flpr_seq_diff`. -/
def seqDiff (a b : UInt16) : Int16 := (a - b).toInt16

/-- `flpr_seq_after`. -/
def seqAfter (a b : UInt16) : Bool := (a - b).toInt16 > 0

/-! ### The peer -/

/-- `struct flpr_peer`. -/
structure Peer where
  bound : Bool
  ready : Bool
  acked : Bool
  healthy : Bool
  epoch : UInt32
  readyCount : UInt32
  rebootCount : UInt32
  /-- The last sequence number in order. -/
  rxSeq : UInt32
  rxLost : UInt32
  rxDup : UInt32
  rxOoo : UInt32
  /-- The time of the last heartbeat in order; `0` where there is none. -/
  rxLastMs : UInt32
  rxMissedTotal : UInt32
  txSeq : UInt32
  txAckedSeq : UInt32
  errLen : UInt32
  errVersion : UInt32
  errUnknown : UInt32
  errSend : UInt32
  deriving DecidableEq

/-- `flpr_peer_reset`. -/
def peerReset : Peer :=
  { bound := false, ready := false, acked := false, healthy := false, epoch := 0, readyCount := 0
    rebootCount := 0, rxSeq := 0, rxLost := 0, rxDup := 0, rxOoo := 0, rxLastMs := 0
    rxMissedTotal := 0, txSeq := 0, txAckedSeq := 0, errLen := 0, errVersion := 0, errUnknown := 0
    errSend := 0 }

/-- `flpr_msg_validate`. -/
def msgValidate (m : Msg) (len : ℕ) (p : Peer) : Peer × Bool :=
  if len ≠ msgSize then ({ p with errLen := p.errLen + 1 }, false)
  else if m.version ≠ protocolVersion then ({ p with errVersion := p.errVersion + 1 }, false)
  else (p, true)

/-- `new_epoch` of `flpr_peer_handle_ready`. -/
def newEpoch (p : Peer) (epoch : UInt32) : Bool := p.readyCount = 0 ∨ epoch ≠ p.epoch

/-- `flpr_peer_handle_ready`. -/
def peerHandleReady (p : Peer) (epoch : UInt32) : Peer × Bool :=
  if newEpoch p epoch then
    ({ p with
        ready := true, readyCount := p.readyCount + 1, epoch := epoch
        rebootCount := p.rebootCount + 1, healthy := true, acked := false
        rxSeq := 0, rxLost := 0, rxDup := 0, rxOoo := 0, rxLastMs := 0, rxMissedTotal := 0
        txAckedSeq := 0 }, true)
  else ({ p with ready := true, readyCount := p.readyCount + 1, epoch := epoch }, false)

/-- `flpr_peer_handle_heartbeat_ack`. -/
def peerHandleHeartbeatAck (p : Peer) (ackedSeq : UInt16) : Peer :=
  if seqAfter p.txAckedSeq.toUInt16 ackedSeq then p
  else { p with txAckedSeq := ackedSeq.toUInt32 }

/-- `flpr_peer_rx_seq`. -/
def peerRxSeq (p : Peer) (seq : UInt16) (nowMs : UInt32) : Peer :=
  if p.rxSeq = 0 ∧ p.rxLastMs = 0 then { p with rxSeq := seq.toUInt32, rxLastMs := nowMs }
  else
    let diff := seqDiff seq p.rxSeq.toUInt16
    if diff > 0 then
      { p with
        rxLost := if diff > 1 then p.rxLost + (diff - 1).toUInt16.toUInt32 else p.rxLost
        rxSeq := seq.toUInt32, rxLastMs := nowMs }
    else if diff = 0 then { p with rxDup := p.rxDup + 1, rxLastMs := nowMs }
    -- the baseline and the time stay
    else { p with rxOoo := p.rxOoo + 1 }

/-- `flpr_peer_check_health`. -/
def peerCheckHealth (p : Peer) (nowMs : UInt32) : Peer × Bool :=
  if p.rxLastMs = 0 then (p, p.healthy)
  else
    let elapsed := nowMs - p.rxLastMs
    if elapsed > heartbeatMissMax * heartbeatIntervalMs then
      (if p.healthy then { p with rxMissedTotal := p.rxMissedTotal + 1, healthy := false } else p,
        false)
    else ({ p with healthy := true }, true)

/-! ### Heartbeats -/

/-- A heartbeat that is the first, in order or a duplicate. -/
def Accepts (p : Peer) (seq : UInt16) : Prop :=
  (p.rxSeq = 0 ∧ p.rxLastMs = 0) ∨ seqDiff seq p.rxSeq.toUInt16 > 0 ∨
    seqDiff seq p.rxSeq.toUInt16 = 0

instance (p : Peer) (seq : UInt16) : Decidable (Accepts p seq) :=
  inferInstanceAs (Decidable (_ ∨ _))

/-- Longer than `FLPR_HEARTBEAT_MISS_MAX` intervals without a heartbeat, in the arithmetic of the
clock. -/
def Overdue (p : Peer) (nowMs : UInt32) : Prop :=
  p.rxLastMs ≠ 0 ∧ nowMs - p.rxLastMs > heartbeatMissMax * heartbeatIntervalMs

instance (p : Peer) (nowMs : UInt32) : Decidable (Overdue p nowMs) :=
  inferInstanceAs (Decidable (_ ∧ _))

variable {p : Peer} {seq : UInt16} {nowMs : UInt32}

theorem peerRxSeq_healthy : (peerRxSeq p seq nowMs).healthy = p.healthy := by
  unfold peerRxSeq
  dsimp only
  split_ifs <;> rfl

/-- An accepted heartbeat moves the time of the last one. -/
theorem peerRxSeq_of_accepts (h : Accepts p seq) : (peerRxSeq p seq nowMs).rxLastMs = nowMs := by
  unfold peerRxSeq
  dsimp only
  by_cases h₁ : p.rxSeq = 0 ∧ p.rxLastMs = 0
  · rw [if_pos h₁]
  rw [if_neg h₁]
  by_cases h₂ : seqDiff seq p.rxSeq.toUInt16 > 0
  · rw [if_pos h₂]
  · rw [if_neg h₂, if_pos ((h.resolve_left h₁).resolve_left h₂)]

/-- A heartbeat out of order leaves it. -/
theorem peerRxSeq_of_not_accepts (h : ¬ Accepts p seq) :
    (peerRxSeq p seq nowMs).rxLastMs = p.rxLastMs := by
  unfold peerRxSeq
  dsimp only
  rw [if_neg fun h₁ => h (.inl h₁), if_neg fun h₂ => h (.inr (.inl h₂)),
    if_neg fun h₃ => h (.inr (.inr h₃))]

theorem peerCheckHealth_rxLastMs : (peerCheckHealth p nowMs).1.rxLastMs = p.rxLastMs := by
  unfold peerCheckHealth
  dsimp only
  split_ifs <;> rfl

theorem peerCheckHealth_of_not_overdue (h : ¬ Overdue p nowMs) (h₀ : p.rxLastMs ≠ 0) :
    (peerCheckHealth p nowMs).1.healthy = true := by
  unfold peerCheckHealth
  dsimp only
  rw [if_neg h₀, if_neg fun hlate => h ⟨h₀, hlate⟩]

theorem peerCheckHealth_of_zero (h : p.rxLastMs = 0) :
    (peerCheckHealth p nowMs).1.healthy = p.healthy := by
  unfold peerCheckHealth
  rw [if_pos h]

/-- A check turns a healthy peer unhealthy only if it is overdue. -/
theorem overdue_of_marks (h : p.healthy = true) (h' : (peerCheckHealth p nowMs).1.healthy = false) :
    Overdue p nowMs := by
  by_contra hnot
  by_cases h₀ : p.rxLastMs = 0
  · rw [peerCheckHealth_of_zero h₀, h] at h'
    exact Bool.noConfusion h'
  · rw [peerCheckHealth_of_not_overdue hnot h₀] at h'
    exact Bool.noConfusion h'

/-- Validation touches none of the heartbeat and handshake records. -/
theorem msgValidate_frame {m : Msg} {len : ℕ} {p' : Peer} {valid : Bool}
    (h : msgValidate m len p = (p', valid)) :
    (p'.acked = p.acked ∧ p'.epoch = p.epoch) ∧
      p'.rxLastMs = p.rxLastMs ∧ p'.healthy = p.healthy := by
  unfold msgValidate at h
  split_ifs at h <;> obtain ⟨rfl, -⟩ := Prod.mk.inj h <;> exact ⟨⟨rfl, rfl⟩, rfl, rfl⟩

/-- A check leaves what a handshake established. -/
theorem peerCheckHealth_session :
    (peerCheckHealth p nowMs).1.acked = p.acked ∧ (peerCheckHealth p nowMs).1.epoch = p.epoch ∧
      (peerCheckHealth p nowMs).1.ready = p.ready := by
  unfold peerCheckHealth
  dsimp only
  split_ifs <;> exact ⟨rfl, rfl, rfl⟩

theorem peerRxSeq_session :
    (peerRxSeq p seq nowMs).acked = p.acked ∧ (peerRxSeq p seq nowMs).epoch = p.epoch ∧
      (peerRxSeq p seq nowMs).ready = p.ready := by
  unfold peerRxSeq
  dsimp only
  split_ifs <;> exact ⟨rfl, rfl, rfl⟩

end Handshake

end LeAudioReceiver
