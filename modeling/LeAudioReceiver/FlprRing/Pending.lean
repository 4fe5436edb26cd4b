import LeAudioReceiver.FlprRing.Basic

/-!
# What a ring holds

`Ring.pending` is the queue behind the counters: the slots between the consumer and the producer,
oldest first.  Releasing a slot removes the head (`pending_eq_cons`), publishing one appends to
the end (`pending_produceCommit`), and both also where a counter wraps.
-/

namespace LeAudioReceiver

namespace FlprRing

namespace Ring

variable {r : Ring}

/-- The slots in use, oldest first. -/
def pending (r : Ring) : List Slot :=
  (List.range r.load).map fun k => r.slots (slotIdx (r.consumerIdx.toNat + k))

@[simp] theorem length_pending (r : Ring) : r.pending.length = r.load := by
  rw [pending, List.length_map, List.length_range]

theorem pending_eq_nil : r.pending = [] ↔ r.load = 0 := by
  rw [← List.length_eq_zero_iff, length_pending]

/-- `2 ^ 32` is a multiple of the slot count, so a wrap does not change the slot. -/
theorem slotIdx_toNat_succ (c : UInt32) (k : ℕ) :
    slotIdx ((c + 1).toNat + k) = slotIdx (c.toNat + (k + 1)) := by
  apply Fin.ext
  have h₁ : (1 : UInt32).toNat = 1 := rfl
  have hc := c.toNat_lt
  simp only [slotIdx, Fin.ofNat, UInt32.toNat_add, h₁]
  omega

theorem pending_eq_cons (h : 0 < r.load) :
    r.pending = r.slots (slotBase r.consumerIdx) :: r.consumeDone.pending := by
  have hload := load_consumeDone h
  obtain ⟨n, hn⟩ : ∃ n, r.load = n + 1 := Nat.exists_eq_add_one.2 h
  have hdone : r.consumeDone.load = n := by omega
  rw [pending, pending, hn, hdone, List.range_succ_eq_map, List.map_cons, List.map_map]
  refine List.cons_eq_cons.2 ⟨rfl, List.map_congr_left fun k _ => ?_⟩
  show r.slots _ = r.slots _
  rw [← slotIdx_toNat_succ]
  rfl

/-- The producer's slot is not in use while there is room. -/
theorem slotIdx_ne_producer (h : r.load < slotCount) {k : ℕ} (hk : k < r.load) :
    slotIdx (r.consumerIdx.toNat + k) ≠ slotBase r.producerIdx := by
  intro he
  have hval := congrArg Fin.val he
  have hp := r.producerIdx.toNat_lt
  have hc := r.consumerIdx.toNat_lt
  unfold slotCount at h
  simp only [load, used, UInt32.toNat_sub] at h hk
  simp only [slotIdx, slotBase, Fin.ofNat] at hval
  omega

theorem slotBase_producer (r : Ring) :
    slotBase r.producerIdx = slotIdx (r.consumerIdx.toNat + r.load) := by
  apply Fin.ext
  have hp := r.producerIdx.toNat_lt
  have hc := r.consumerIdx.toNat_lt
  simp only [load, used, UInt32.toNat_sub, slotIdx, slotBase, Fin.ofNat]
  omega

/-- Publishing a slot appends it, and overwrites none that is in use. -/
theorem pending_produceCommit (h : r.load < slotCount) (c : Slot) :
    (r.write r.producerIdx c).produceCommit.pending = r.pending ++ [c] := by
  have hload : (r.write r.producerIdx c).produceCommit.load = r.load + 1 :=
    load_produceCommit h
  rw [pending, hload, List.range_succ, List.map_append, List.map_singleton]
  congr 1
  · refine List.map_congr_left fun k hk => ?_
    exact Function.update_of_ne (slotIdx_ne_producer h (List.mem_range.1 hk)) _ _
  · show [Function.update r.slots (slotBase r.producerIdx) c
      (slotIdx (r.consumerIdx.toNat + r.load))] = [c]
    rw [← slotBase_producer, Function.update_self]

theorem space_eq_zero_iff : space r.producerIdx r.consumerIdx = 0 ↔ slotCount ≤ r.load := by
  have h4 : (4 : UInt32).toNat = 4 := rfl
  have h0 : (0 : UInt32).toNat = 0 := rfl
  unfold space slotCount load
  split_ifs with hge
  · simpa using UInt32.le_iff_toNat_le.1 hge
  · have hlt : (used r.producerIdx r.consumerIdx).toNat < 4 :=
      Nat.lt_of_not_le fun hle => hge (UInt32.le_iff_toNat_le.2 hle)
    rw [← UInt32.toNat_inj, UInt32.toNat_sub, h4, h0]
    omega

end Ring

end FlprRing

end LeAudioReceiver
