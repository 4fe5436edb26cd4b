import LeAudioReceiver.FlprRing.Slot
import Mathlib.Data.Fin.Basic
import Mathlib.Logic.Function.Basic

/-!
# The PCM ring

A model of `src/flpr_ring.c`: four slots, and two 32-bit counters that only grow and wrap.  Each
operation is one function on the ring; the fences between the cores order them and have no
counterpart here.  Of the header fields the layout constants and the counters that no operation
writes are left out.
-/

namespace LeAudioReceiver

namespace FlprRing

/-- One direction: the header fields that the operations use, and the slots. -/
structure Ring where
  streamEpoch : UInt32
  producerIdx : UInt32
  consumerIdx : UInt32
  errProducerFull : UInt32
  errStaleEpoch : UInt32
  slots : Fin 4 → Slot

/-- `flpr_ring_used`. -/
def used (producer consumer : UInt32) : UInt32 := producer - consumer

/-- `flpr_ring_space`. -/
def space (producer consumer : UInt32) : UInt32 :=
  if used producer consumer ≥ 4 then 0 else 4 - used producer consumer

/-- `flpr_ring_slot_base`, as an index: the counter modulo the slot count. -/
def slotBase (idx : UInt32) : Fin 4 := Fin.ofNat 4 idx.toNat

/-- `flpr_ring_reset_epoch`; `none` is the error for epoch `0`. -/
def Ring.resetEpoch (r : Ring) (newEpoch : UInt32) : Option Ring :=
  if newEpoch = 0 then none
  else if newEpoch = r.streamEpoch ∧ r.producerIdx = 0 ∧ r.consumerIdx = 0 then some r
  else some { r with streamEpoch := newEpoch, producerIdx := 0, consumerIdx := 0 }

/-- `flpr_ring_produce_begin`; no index is `-ENOSPC`. -/
def Ring.produceBegin (r : Ring) : Ring × Option UInt32 :=
  if space r.producerIdx r.consumerIdx = 0 then
    ({ r with errProducerFull := r.errProducerFull + 1 }, none)
  else (r, some r.producerIdx)

/-- The producer's stores to a slot. -/
def Ring.write (r : Ring) (idx : UInt32) (c : Slot) : Ring :=
  { r with slots := Function.update r.slots (slotBase idx) c }

/-- `flpr_ring_produce_commit`. -/
def Ring.produceCommit (r : Ring) : Ring := { r with producerIdx := r.producerIdx + 1 }

/-- What `flpr_ring_consume_begin` reports. -/
inductive ConsumeBegin where
  /-- `-ENOENT`. -/
  | empty
  /-- `-ESTALE`: the slot was skipped. -/
  | stale
  /-- The slot to read. -/
  | slot (i : Fin 4)
  deriving DecidableEq

/-- `flpr_ring_consume_begin`. -/
def Ring.consumeBegin (r : Ring) (currentEpoch : UInt32) : Ring × ConsumeBegin :=
  if used r.producerIdx r.consumerIdx = 0 then (r, .empty)
  else
    let i := slotBase r.consumerIdx
    let epoch := (r.slots i).slotMeta.epoch
    if currentEpoch ≠ 0 ∧ epoch ≠ 0 ∧ epoch ≠ currentEpoch then
      ({ r with errStaleEpoch := r.errStaleEpoch + 1, consumerIdx := r.consumerIdx + 1 }, .stale)
    else (r, .slot i)

/-- `flpr_ring_consume_done`. -/
def Ring.consumeDone (r : Ring) : Ring := { r with consumerIdx := r.consumerIdx + 1 }

theorem Ring.resetEpoch_idx {r r' : Ring} {e : UInt32} (h : r.resetEpoch e = some r') :
    r'.producerIdx = 0 ∧ r'.consumerIdx = 0 := by
  unfold Ring.resetEpoch at h
  split_ifs at h with h₀ h₁
  · obtain rfl := Option.some.inj h
    exact h₁.2
  · obtain rfl := Option.some.inj h
    exact ⟨rfl, rfl⟩

theorem Ring.produceBegin_slots (r : Ring) : r.produceBegin.1.slots = r.slots := by
  unfold produceBegin
  split_ifs <;> rfl

theorem Ring.consumeBegin_slots (r : Ring) (e : UInt32) :
    (r.consumeBegin e).1.slots = r.slots := by
  unfold consumeBegin
  dsimp only
  split_ifs <;> rfl

/-- A slot that a consumer with epoch `e ≠ 0` does not skip. -/
def Fresh (e : UInt32) (c : Slot) : Prop := c.slotMeta.epoch = 0 ∨ c.slotMeta.epoch = e

instance (e : UInt32) (c : Slot) : Decidable (Fresh e c) := inferInstanceAs (Decidable (_ ∨ _))

/-! ### Counters that wrap -/

/-- The slot of the `n`-th transaction. -/
def slotIdx (n : ℕ) : Fin 4 := Fin.ofNat 4 n

@[simp] theorem slotBase_ofNat (n : ℕ) : slotBase (UInt32.ofNat n) = slotIdx n := by
  apply Fin.ext
  have h : (UInt32.ofNat n).toNat = n % 2 ^ 32 := UInt32.toNat_ofNat'
  simp only [slotBase, slotIdx, Fin.ofNat, h]
  omega

theorem ofNat_add_one (n : ℕ) : UInt32.ofNat n + 1 = UInt32.ofNat (n + 1) := by
  rw [UInt32.ofNat_add]
  rfl

/-- The difference of the counters is the number of transactions between them, also across the
wrap. -/
theorem toNat_used {p c : ℕ} (h : c ≤ p) (h' : p ≤ c + 4) :
    (used (UInt32.ofNat p) (UInt32.ofNat c)).toNat = p - c := by
  have hp : (UInt32.ofNat p).toNat = p % 2 ^ 32 := UInt32.toNat_ofNat'
  have hc : (UInt32.ofNat c).toNat = c % 2 ^ 32 := UInt32.toNat_ofNat'
  rw [used, UInt32.toNat_sub, hp, hc]
  omega

theorem used_eq_zero {p c : ℕ} (h : c ≤ p) (h' : p ≤ c + 4) :
    used (UInt32.ofNat p) (UInt32.ofNat c) = 0 ↔ p = c := by
  rw [← UInt32.toNat_inj, toNat_used h h', show (0 : UInt32).toNat = 0 from rfl]
  omega

theorem space_eq_zero {p c : ℕ} (h : c ≤ p) (h' : p ≤ c + 4) :
    space (UInt32.ofNat p) (UInt32.ofNat c) = 0 ↔ p = c + 4 := by
  have hu := toNat_used h h'
  have h4 : (4 : UInt32).toNat = 4 := rfl
  unfold space
  split_ifs with hge
  · have : 4 ≤ (used (UInt32.ofNat p) (UInt32.ofNat c)).toNat := UInt32.le_iff_toNat_le.1 hge
    simp only [true_iff]
    omega
  · have hlt : (used (UInt32.ofNat p) (UInt32.ofNat c)).toNat < 4 :=
      Nat.lt_of_not_le fun hle => hge (UInt32.le_iff_toNat_le.2 hle)
    rw [← UInt32.toNat_inj, UInt32.toNat_sub, hu, h4, show (0 : UInt32).toNat = 0 from rfl]
    omega

theorem slotIdx_ne {k n : ℕ} (h : k < n) (h' : n < k + 4) : slotIdx k ≠ slotIdx n := by
  intro he
  have := congrArg Fin.val he
  simp only [slotIdx, Fin.ofNat] at this
  omega

/-! ### A ring and what its users are in the middle of -/

namespace Ring

/-- The number of slots in use. -/
def load (r : Ring) : ℕ := (used r.producerIdx r.consumerIdx).toNat

/-- A ring within its slots, with room for a producer that has begun and a slot for a consumer
that has begun. -/
structure Ok (r : Ring) (produces holds : Bool) : Prop where
  bound : r.load ≤ slotCount
  room : produces = true → r.load < slotCount
  held : holds = true → 0 < r.load

variable {r r' : Ring} {produces holds : Bool}

theorem Ok.mono (h : r.Ok produces holds) {produces' holds' : Bool}
    (hp : produces' = true → produces = true) (hc : holds' = true → holds = true) :
    r.Ok produces' holds' :=
  ⟨h.bound, fun h' => h.room (hp h'), fun h' => h.held (hc h')⟩

theorem load_produceCommit (h : r.load < slotCount) : r.produceCommit.load = r.load + 1 := by
  have h₁ : (1 : UInt32).toNat = 1 := rfl
  have hp := r.producerIdx.toNat_lt
  have hc := r.consumerIdx.toNat_lt
  unfold slotCount at h
  simp only [load, used, produceCommit, UInt32.toNat_sub, UInt32.toNat_add, h₁] at h ⊢
  omega

theorem load_consumeDone (h : 0 < r.load) : r.consumeDone.load = r.load - 1 := by
  have h₁ : (1 : UInt32).toNat = 1 := rfl
  have hp := r.producerIdx.toNat_lt
  have hc := r.consumerIdx.toNat_lt
  simp only [load, used, consumeDone, UInt32.toNat_sub, UInt32.toNat_add, h₁] at h ⊢
  omega

theorem load_pos (h : used r.producerIdx r.consumerIdx ≠ 0) : 0 < r.load := by
  refine Nat.pos_of_ne_zero fun h₀ => h ?_
  exact UInt32.toNat_inj.1 h₀

theorem Ok.produceBegin_none (h : r.Ok produces holds) (hb : r.produceBegin = (r', none)) :
    r'.Ok produces holds := by
  unfold produceBegin at hb
  split_ifs at hb
  · obtain ⟨rfl, -⟩ := Prod.mk.inj hb
    exact ⟨h.bound, h.room, h.held⟩
  · cases hb

theorem Ok.produceBegin_some (h : r.Ok produces holds) {idx : UInt32}
    (hb : r.produceBegin = (r', some idx)) : r'.Ok true holds := by
  unfold produceBegin at hb
  split_ifs at hb with hspace
  · cases hb
  · obtain ⟨rfl, -⟩ := Prod.mk.inj hb
    refine ⟨h.bound, fun _ => ?_, h.held⟩
    unfold space at hspace
    split_ifs at hspace with hge
    · exact absurd rfl hspace
    · exact Nat.lt_of_not_le fun hle => hge (UInt32.le_iff_toNat_le.2 hle)

theorem Ok.write (h : r.Ok produces holds) (idx : UInt32) (c : Slot) :
    (r.write idx c).Ok produces holds :=
  ⟨h.bound, h.room, h.held⟩

theorem Ok.produceCommit (h : r.Ok true holds) : r.produceCommit.Ok false holds := by
  have hroom := h.room rfl
  have hload := load_produceCommit hroom
  exact ⟨by omega, fun h' => absurd h' Bool.false_ne_true, fun _ => by omega⟩

theorem Ok.consumeBegin (h : r.Ok produces false) {e : UInt32} {o : ConsumeBegin}
    (hb : r.consumeBegin e = (r', o)) :
    r'.Ok produces (match o with | .slot _ => true | _ => false) := by
  unfold Ring.consumeBegin at hb
  dsimp only at hb
  split_ifs at hb with hempty hstale
  · obtain ⟨rfl, rfl⟩ := Prod.mk.inj hb
    exact h
  · obtain ⟨rfl, rfl⟩ := Prod.mk.inj hb
    have hload := load_consumeDone (load_pos hempty)
    have hbound := h.bound
    refine ⟨?_, fun hp => ?_, fun h' => absurd h' Bool.false_ne_true⟩
    · show r.consumeDone.load ≤ slotCount
      omega
    · have := h.room hp
      show r.consumeDone.load < slotCount
      omega
  · obtain ⟨rfl, rfl⟩ := Prod.mk.inj hb
    exact ⟨h.bound, h.room, fun _ => load_pos hempty⟩

theorem Ok.consumeDone (h : r.Ok produces true) : r.consumeDone.Ok produces false := by
  have hload := load_consumeDone (h.held rfl)
  have hbound := h.bound
  refine ⟨by omega, fun hp => ?_, fun h' => absurd h' Bool.false_ne_true⟩
  have := h.room hp
  omega

/-- A reset empties the ring, which suits every user except a consumer in the middle of a slot. -/
theorem Ok.resetEpoch {e : UInt32} (h : r.resetEpoch e = some r') : r'.Ok produces false := by
  obtain ⟨hp, hc⟩ := resetEpoch_idx h
  have hload : r'.load = 0 := by
    rw [load, hp, hc]
    decide
  have hcount : 0 < slotCount := by decide
  exact ⟨by omega, fun _ => by omega, fun h' => absurd h' Bool.false_ne_true⟩

/-- A consumer with a nonzero epoch is never handed a slot of another epoch. -/
theorem consumeBegin_fresh {e : UInt32} (he : e ≠ 0) {i : Fin 4}
    (h : (r.consumeBegin e).2 = .slot i) : Fresh e (r.slots i) := by
  unfold Ring.consumeBegin at h
  dsimp only at h
  split_ifs at h with hempty hstale
  obtain rfl := ConsumeBegin.slot.inj h
  by_contra hnot
  exact hstale ⟨he, fun h₀ => hnot (.inl h₀), fun h₁ => hnot (.inr h₁)⟩

end Ring

end FlprRing

end LeAudioReceiver
