import LeAudioReceiver.ModeA.Conserve

/-!
# Which halves an event takes

A call of `modea_store` on the lists of the halves that wait: what it takes in, which of the oldest
halves its event takes out, and what it remembers of the event.

* `Picks` : the ways in which the oldest halves of the two channels decide an event;
* `State.store_picks` : **a call either waits or emits an event that picks**, from the halves that
  wait together with its own;
* `State.store_lastTs` : the last positions of the channels.
-/

namespace LeAudioReceiver

namespace ModeA

open Circular

variable {c : Config}

/-- The event consumes a half with a timestamp. -/
def Emission.timed (e : Emission) : Bool :=
  (e.popped .left).any Half.hasTs || (e.popped .right).any Half.hasTs

theorem Emission.timed_iff {e : Emission} :
    e.timed = true ↔ ∃ ch h, e.popped ch = some h ∧ h.hasTs = true := by
  have hany : ∀ ch, (e.popped ch).any Half.hasTs = true ↔
      ∃ h, e.popped ch = some h ∧ h.hasTs = true := fun ch => Option.any_eq_true _ _
  rw [timed, Bool.or_eq_true, hany, hany]
  constructor
  · rintro (h | h)
    · exact ⟨.left, h⟩
    · exact ⟨.right, h⟩
  · rintro ⟨ch, h⟩
    cases ch
    · exact .inl h
    · exact .inr h

/-- How the oldest halves of `w` decide an event: what it pops, and its timestamp. -/
inductive Picks (w : Channel → List Half) (popped : Channel → Option Half) (ts : UInt32) : Prop
  | same (l r : Half) : (w .left).head? = some l → (w .right).head? = some r →
      l.hasTs = true → r.hasTs = true → tsSameEvent l.ts r.ts = true →
      popped .left = some l → popped .right = some r → ts = l.ts → Picks w popped ts
  | rightOlder (l r : Half) : (w .left).head? = some l → (w .right).head? = some r →
      l.hasTs = true → r.hasTs = true → tsSameEvent l.ts r.ts = false →
      tsNewer l.ts r.ts = true →
      popped .left = none → popped .right = some r → ts = r.ts → Picks w popped ts
  | leftOlder (l r : Half) : (w .left).head? = some l → (w .right).head? = some r →
      l.hasTs = true → r.hasTs = true → tsSameEvent l.ts r.ts = false →
      tsNewer l.ts r.ts = false →
      popped .left = some l → popped .right = none → ts = l.ts → Picks w popped ts
  | sentinels (l r : Half) : (w .left).head? = some l → (w .right).head? = some r →
      l.hasTs = false → r.hasTs = false →
      popped .left = some l → popped .right = some r → Picks w popped ts
  | mixed (ch : Channel) (h s : Half) : (w ch).head? = some h → (w ch.other).head? = some s →
      h.hasTs = true → s.hasTs = false →
      popped ch = some h → popped ch.other = some s → ts = h.ts → Picks w popped ts
  | deadline (ch : Channel) (h : Half) : (w ch).head? = some h → w ch.other = [] →
      popped ch = some h → popped ch.other = none → ts = h.ts → Picks w popped ts

namespace State

variable {st : State c}

theorem head_pending {ch : Channel} (h₀ : st.count ch ≠ 0) (hle : st.count ch ≤ c.pendingDepth) :
    (st.pending ch).head? = some (st.oldest ch) := by
  have hcons := Queue.oldest_cons_pop (fun h => h) h₀ hle
  rw [pending, hcons]
  rfl

theorem emitEvent_timed (data pop : Channel → Bool) (ts : UInt32) :
    (st.emitEvent data pop ts).2.timed =
      ((pop .left && decide (st.count .left ≠ 0) && (st.oldest .left).hasTs) ||
        (pop .right && decide (st.count .right ≠ 0) && (st.oldest .right).hasTs)) := by
  have hany : ∀ ch, (if (pop ch && decide (st.count ch ≠ 0)) = true then some (st.oldest ch)
      else none).any Half.hasTs =
        (pop ch && decide (st.count ch ≠ 0) && (st.oldest ch).hasTs) := by
    intro ch
    cases (pop ch && decide (st.count ch ≠ 0)) <;> rfl
  rw [← hany .left, ← hany .right]
  rfl

theorem emitEvent_resolved (data pop : Channel → Bool) (ts : UInt32) :
    (st.emitEvent data pop ts).1.resolvedTs =
        (if (st.emitEvent data pop ts).2.timed then ts else st.resolvedTs) ∧
      (st.emitEvent data pop ts).1.resolvedHasTs =
        ((st.emitEvent data pop ts).2.timed || st.resolvedHasTs) := by
  rw [emitEvent_timed]
  constructor
  · cases hl : pop .left <;> cases hr : pop .right <;> simp [emitEvent, popHalf, hl, hr]
  · cases hl : pop .left <;> cases hr : pop .right <;> simp [emitEvent, popHalf, hl, hr]

/-- An outcome remembers its event, if it has one with a timestamp. -/
structure Remembers (st : State c) (o : Outcome c) (e : Emission) : Prop where
  emission : o.emission = some e
  resolvedTs : o.st.resolvedTs = if e.timed then e.event.ts else st.resolvedTs
  resolvedHasTs : o.st.resolvedHasTs = (e.timed || st.resolvedHasTs)

theorem remembers_emitted (data pop : Channel → Bool) (ts : UInt32) :
    st.Remembers (emitted (st.emitEvent data pop ts)) (st.emitEvent data pop ts).2 :=
  ⟨rfl, (emitEvent_resolved data pop ts).1, (emitEvent_resolved data pop ts).2⟩

theorem popped_none (data : Channel → Bool) {pop : Channel → Bool} (ts : UInt32) {ch : Channel}
    (hpop : pop ch = false) : (st.emitEvent data pop ts).2.popped ch = none := by
  simp [emitEvent, hpop]

/-- The outcome of a call on `st`, when the halves `w` wait: no event, or one that picks. -/
def Decides (st : State c) (w : Channel → List Half) (o : Outcome c) : Prop :=
  (o.emission = none ∧ o.st.resolvedTs = st.resolvedTs ∧
      o.st.resolvedHasTs = st.resolvedHasTs) ∨
    ∃ e, st.Remembers o e ∧ Picks w e.popped e.event.ts

theorem resolve_picks (hle : ∀ ch, st.count ch ≤ c.pendingDepth) (dropped : Bool) :
    st.Decides st.pending (st.resolve dropped) := by
  by_cases hempty : st.count .left = 0 ∨ st.count .right = 0
  · refine .inl ?_
    simp [resolve, hempty]
  · obtain ⟨h₁, h₂⟩ := not_or.1 hempty
    have hl := head_pending h₁ (hle .left)
    have hr := head_pending h₂ (hle .right)
    refine .inr ?_
    simp only [resolve, if_neg hempty]
    split_ifs with htimed hsame hnewer hneither hleft
    · exact ⟨_, remembers_emitted _ _ _, .same _ _ hl hr htimed.1 htimed.2 hsame
        (emitEvent_popped _ _ rfl h₁) (emitEvent_popped _ _ rfl h₂) rfl⟩
    · exact ⟨_, remembers_emitted _ _ _, .rightOlder _ _ hl hr htimed.1 htimed.2
        (by simpa using hsame) hnewer (popped_none _ _ rfl) (emitEvent_popped _ _ rfl h₂) rfl⟩
    · exact ⟨_, remembers_emitted _ _ _, .leftOlder _ _ hl hr htimed.1 htimed.2
        (by simpa using hsame) (by simpa using hnewer) (emitEvent_popped _ _ rfl h₁)
        (popped_none _ _ rfl) rfl⟩
    · exact ⟨_, remembers_emitted _ _ _, .sentinels _ _ hl hr (by simpa using hneither.1)
        (by simpa using hneither.2) (emitEvent_popped _ _ rfl h₁) (emitEvent_popped _ _ rfl h₂)⟩
    · have hright : (st.oldest .right).hasTs = false := by
        simpa [hleft] using htimed
      exact ⟨_, remembers_emitted _ _ _, .mixed .left _ _ hl hr hleft hright
        (emitEvent_popped _ _ rfl h₁) (emitEvent_popped _ _ rfl h₂) rfl⟩
    · have hleft : (st.oldest .left).hasTs = false := by simpa using hleft
      have hright : (st.oldest .right).hasTs = true := by
        simpa [hleft] using hneither
      exact ⟨_, remembers_emitted _ _ _, .mixed .right _ _ hr hl hright hleft
        (emitEvent_popped _ _ rfl h₂) (emitEvent_popped _ _ rfl h₁) rfl⟩

/-- Where the queue of the channel has room, the half is enqueued and the oldest halves decide. -/
theorem place_of_room {ch : Channel} (h : Half)
    (hsum : st.count .left + st.count .right ≤ c.pendingDepth)
    (hfull : ¬ (st.count ch ≥ c.pendingDepth ∧ st.count ch.other = 0)) :
    st.place ch h = (st.enqueueHalf ch h).resolve false ∧
      (∀ ch', (st.enqueueHalf ch h).count ch' ≤ c.pendingDepth) ∧
      (st.enqueueHalf ch h).pending =
        fun ch' => st.pending ch' ++ if ch' = ch then [h] else [] := by
  have hother := count_other st ch
  have hlt : st.count ch < c.pendingDepth := by omega
  have hnot : ¬ c.pendingDepth ≤ st.count ch := by omega
  refine ⟨by simp [place, hnot], fun ch' => ?_, ?_⟩
  · rw [count_enqueueHalf]
    by_cases hch : ch' = ch
    · subst hch
      simpa using Nat.succ_le_of_lt hlt
    · have := count_other st ch'
      rw [if_neg hch]
      omega
  · funext ch'
    exact pending_enqueueHalf h hlt ch'

/-- An open half waits, decides an event with the other channel, or drives out the oldest half of
its own. -/
theorem place_picks (ch : Channel) (h : Half)
    (hsum : st.count .left + st.count .right ≤ c.pendingDepth) :
    st.Decides (fun ch' => st.pending ch' ++ if ch' = ch then [h] else []) (st.place ch h) := by
  have hother := count_other st ch
  have hne : ch.other ≠ ch := by cases ch <;> exact Channel.noConfusion
  by_cases hfull : st.count ch ≥ c.pendingDepth ∧ st.count ch.other = 0
  · have h₀ : st.count ch ≠ 0 := by
      have := c.pendingDepth_pos
      omega
    have hplace : st.place ch h =
        ⟨(st.emitEvent (only ch) (only ch) (st.oldest ch).ts).1.enqueueHalf ch h, .emit,
          some (st.emitEvent (only ch) (only ch) (st.oldest ch).ts).2⟩ := if_pos hfull
    have hhead := head_pending h₀ (by omega)
    have hempty : st.pending ch.other = [] := by
      rw [← List.length_eq_zero_iff, ← count_eq_length]
      exact hfull.2
    obtain ⟨hts, hhas⟩ := st.emitEvent_resolved (only ch) (only ch) (st.oldest ch).ts
    rw [hplace]
    refine .inr ⟨_, ⟨rfl, hts, hhas⟩, .deadline ch (st.oldest ch) ?_ ?_ ?_ ?_ rfl⟩
    · simp [hhead]
    · simp [hempty, hne]
    · exact emitEvent_popped _ _ (by simp [only]) h₀
    · exact popped_none _ _ (by simp [only, hne])
  · obtain ⟨hplace, hle, hw⟩ := place_of_room h hsum hfull
    have hres := resolve_picks hle false
    rw [hw] at hres
    rw [hplace]
    -- enqueuing a half does not touch what is remembered
    rcases hres with hwait | ⟨e, ⟨he, h₁, h₂⟩, hpicks⟩
    · exact .inl hwait
    · exact .inr ⟨e, ⟨he, h₁, h₂⟩, hpicks⟩

/-- The halves that wait once a call has taken its own in. -/
def waiting (st : State c) (d : Delivery) (ch : Channel) : List Half :=
  st.pending ch ++ if ch = d.ch then (st.accepts d).toList else []

theorem position_resolved (st : State c) (d : Delivery) :
    (st.position d).1.resolvedTs = st.resolvedTs ∧
      (st.position d).1.resolvedHasTs = st.resolvedHasTs := by
  simp only [position]
  split_ifs <;> exact ⟨rfl, rfl⟩

/-- The last part of a call: what it did, and the state it has left behind. -/
theorem store_picks (hsum : st.count .left + st.count .right ≤ c.pendingDepth) (d : Delivery) :
    st.Decides (st.waiting d) (st.store d) := by
  by_cases hlong : d.len > c.maxFrameOctets
  · have hstore : st.store d = ⟨{ st with rejects := st.rejects + 1 }, .drop, none⟩ :=
      if_pos hlong
    rw [hstore]
    exact .inl ⟨rfl, rfl, rfl⟩
  · have hqueue := position_queue st d
    obtain ⟨hts, hhas⟩ := position_resolved st d
    rcases hp : st.position d with ⟨st₁, effHasTs, effTs⟩
    rw [hp] at hqueue hts hhas
    dsimp only at hqueue hts hhas
    by_cases hres : st₁.alreadyResolved effHasTs effTs = true
    · have hstore : st.store d = ⟨st₁, .none, none⟩ := by simp [store, hlong, hp, hres]
      rw [hstore]
      exact .inl ⟨rfl, hts, hhas⟩
    · have hstore : st.store d = st₁.place d.ch (d.half c effHasTs effTs) := by
        simp [store, hlong, hp, hres]
      have haccepts : st.accepts d = some (d.half c effHasTs effTs) := by
        simp [accepts, hlong, hp, hres]
      have hpending : st₁.pending = st.pending := by
        funext ch
        rw [pending, pending, hqueue]
      have hsum₁ : st₁.count .left + st₁.count .right ≤ c.pendingDepth := by
        rw [count, count, hqueue]
        exact hsum
      have hw : st.waiting d = fun ch => st₁.pending ch ++
          if ch = d.ch then [d.half c effHasTs effTs] else [] := by
        funext ch
        rw [waiting, haccepts, hpending]
        rfl
      rw [hstore, hw]
      rcases place_picks d.ch (d.half c effHasTs effTs) hsum₁ with ⟨hnone, h₁, h₂⟩ |
        ⟨e, ⟨he, h₁, h₂⟩, hpicks⟩
      · exact .inl ⟨hnone, h₁.trans hts, h₂.trans hhas⟩
      · exact .inr ⟨e, ⟨he, hts ▸ h₁, hhas ▸ h₂⟩, hpicks⟩

/-! ### The last positions -/

theorem emitEvent_lastTs (data pop : Channel → Bool) (ts : UInt32) :
    (st.emitEvent data pop ts).1.lastTs = st.lastTs ∧
      (st.emitEvent data pop ts).1.lastHasTs = st.lastHasTs ∧
      (st.emitEvent data pop ts).1.intervalUs = st.intervalUs := by
  cases hl : pop .left <;> cases hr : pop .right <;> simp [emitEvent, popHalf, hl, hr]

theorem resolve_lastTs (dropped : Bool) :
    (st.resolve dropped).st.lastTs = st.lastTs ∧
      (st.resolve dropped).st.lastHasTs = st.lastHasTs ∧
      (st.resolve dropped).st.intervalUs = st.intervalUs := by
  rcases resolve_cases st dropped with ⟨-, heq⟩ | ⟨-, -, data, pop, ts, -, -, heq⟩
  · rw [heq]
    exact ⟨rfl, rfl, rfl⟩
  · rw [heq]
    exact emitEvent_lastTs data pop ts

theorem place_lastTs (ch : Channel) (h : Half) :
    (st.place ch h).st.lastTs = st.lastTs ∧ (st.place ch h).st.lastHasTs = st.lastHasTs ∧
      (st.place ch h).st.intervalUs = st.intervalUs := by
  unfold place
  split_ifs
  · exact emitEvent_lastTs (only ch) (only ch) (st.oldest ch).ts
  · dsimp only
    split_ifs
    · exact resolve_lastTs _
    · exact resolve_lastTs _

/-- The last positions after a call are those of `position`. -/
theorem store_lastTs (d : Delivery) (hlen : ¬ d.len > c.maxFrameOctets) :
    (st.store d).st.lastTs = (st.position d).1.lastTs ∧
      (st.store d).st.lastHasTs = (st.position d).1.lastHasTs := by
  simp only [store, if_neg hlen]
  split_ifs
  · exact ⟨rfl, rfl⟩
  · exact ⟨(place_lastTs _ _).1, (place_lastTs _ _).2.1⟩

end State

end ModeA

end LeAudioReceiver
