import LeAudioReceiver.ModeA.Basic

/-!
# What becomes of a half

The two queues of the assembler together never hold more halves than one queue has room for.  A
call can add a half only where the other queue is empty or an event is resolved, and resolving an
event pops a half.  So the branch that drops a half on overflow is dead, and every accepted half
is popped by one emission or still pending.

* `State.resolve_cases` : an event is resolved exactly when both queues have a half;
* `Inv` : the bound on the two queues, and the history of each channel as popped and pending
  halves;
* `conserved` : **every accepted half is popped by exactly one emission or pending**, in the
  order of delivery, for every sequence of calls.
-/

namespace LeAudioReceiver

namespace ModeA

open Circular

variable {c : Config}

/-- Where an event says that the half of a channel is valid, it carries the half that was popped
from that channel. -/
def Emission.Carries (c : Config) (e : Emission) : Prop :=
  ∀ ch, e.event.halfValid ch = true → ∃ h, e.popped ch = some h ∧ h.srcValid = true ∧
    e.event.seq ch = h.seq ∧ e.event.len ch = h.len ∧
    e.event.data ch = memcpy (zeros c.maxFrameOctets) h.data h.len

/-- The halves an outcome popped from a channel. -/
def Outcome.popped (o : Outcome c) (ch : Channel) : List Half :=
  (o.emission.bind fun e => e.popped ch).toList

namespace State

variable {st : State c}

/-! ### One emission -/

theorem emitEvent_queue (data pop : Channel → Bool) (ts : UInt32) (ch : Channel) :
    (st.emitEvent data pop ts).1.queue ch =
      if pop ch then (st.queue ch).pop fun h => { h with present := false } else st.queue ch := by
  cases hl : pop .left <;> cases hr : pop .right <;> cases ch <;>
    simp [emitEvent, popHalf, hl, hr]

theorem emitEvent_overflowDrops (data pop : Channel → Bool) (ts : UInt32) :
    (st.emitEvent data pop ts).1.overflowDrops = st.overflowDrops := by
  cases hl : pop .left <;> cases hr : pop .right <;> simp [emitEvent, popHalf, hl, hr]

/-- An emission splits the pending halves into those it pops and those that stay. -/
theorem emitEvent_pending (data pop : Channel → Bool) (ts : UInt32) {ch : Channel}
    (hle : st.count ch ≤ c.pendingDepth) :
    st.pending ch = ((st.emitEvent data pop ts).2.popped ch).toList ++
      (st.emitEvent data pop ts).1.pending ch := by
  rw [pending, pending, emitEvent_queue]
  by_cases hpop : pop ch
  · by_cases h₀ : st.count ch = 0
    · simp only [emitEvent, hpop, h₀, if_true, Queue.pop_of_count_eq_zero _ h₀]
      rfl
    · simp only [emitEvent, hpop, if_true]
      simpa [h₀, oldest] using Queue.oldest_cons_pop _ h₀ hle
  · simp [emitEvent, hpop]

/-- Where the popped channels are nonempty, the number of popped halves is that of the arguments. -/
theorem emitEvent_popped (data : Channel → Bool) {pop : Channel → Bool} (ts : UInt32)
    {ch : Channel} (hpop : pop ch = true) (h₀ : st.count ch ≠ 0) :
    (st.emitEvent data pop ts).2.popped ch = some (st.oldest ch) := by
  simp [emitEvent, hpop, h₀]

theorem emitEvent_carries {data pop : Channel → Bool} (ts : UInt32)
    (hdata : ∀ ch, data ch = true → pop ch = true ∧ st.count ch ≠ 0) :
    (st.emitEvent data pop ts).2.Carries c := by
  intro ch hvalid
  simp only [emitEvent, fillEvent, Bool.and_eq_true, decide_eq_true_eq] at hvalid
  obtain ⟨⟨hd, hsrc⟩, hlen⟩ := hvalid
  obtain ⟨hpop, h₀⟩ := hdata ch hd
  refine ⟨st.oldest ch, emitEvent_popped data ts hpop h₀, hsrc, rfl, ?_, ?_⟩ <;>
    simp [emitEvent, fillEvent, hd, hsrc, hlen]

/-! ### One call -/

/-- The last part of `modea_store` resolves an event exactly when both queues have a half.  The
event pops a half, and pops every half whose data it carries. -/
theorem resolve_cases (st : State c) (dropped : Bool) :
    ((st.count .left = 0 ∨ st.count .right = 0) ∧
      st.resolve dropped = ⟨st, if dropped then .drop else .none, none⟩) ∨
    (st.count .left ≠ 0 ∧ st.count .right ≠ 0 ∧ ∃ data pop ts,
      (∀ ch, data ch = true → pop ch = true) ∧ (∃ ch, pop ch = true) ∧
      st.resolve dropped = emitted (st.emitEvent data pop ts)) := by
  by_cases hempty : st.count .left = 0 ∨ st.count .right = 0
  · exact .inl ⟨hempty, if_pos hempty⟩
  · have hne := not_or.1 hempty
    refine .inr ⟨hne.1, hne.2, ?_⟩
    simp only [resolve, if_neg hempty]
    split_ifs
    · exact ⟨both, both, _, fun _ h => h, ⟨.left, rfl⟩, rfl⟩
    · exact ⟨only .right, only .right, _, fun _ h => h, ⟨.right, rfl⟩, rfl⟩
    · exact ⟨only .left, only .left, _, fun _ h => h, ⟨.left, rfl⟩, rfl⟩
    · exact ⟨neither, both, _, fun _ _ => rfl, ⟨.left, rfl⟩, rfl⟩
    · exact ⟨only .left, both, _, fun _ _ => rfl, ⟨.left, rfl⟩, rfl⟩
    · exact ⟨only .right, both, _, fun _ _ => rfl, ⟨.left, rfl⟩, rfl⟩

/-- What is asked of a call on a state `st` that takes the halves `new ch` into the queues. -/
structure Fits (st : State c) (new : Channel → List Half) (o : Outcome c) : Prop where
  bound : o.st.count .left + o.st.count .right ≤ c.pendingDepth
  split : ∀ ch, st.pending ch ++ new ch = o.popped ch ++ o.st.pending ch
  noOverflow : o.st.overflowDrops = st.overflowDrops
  carries : ∀ e, o.emission = some e → e.Carries c

theorem count_eq_length (st : State c) (ch : Channel) : st.count ch = (st.pending ch).length :=
  Queue.length_toList.symm

theorem pending_enqueueHalf (h : Half) {ch : Channel} (hlt : st.count ch < c.pendingDepth)
    (ch' : Channel) :
    (st.enqueueHalf ch h).pending ch' = st.pending ch' ++ if ch' = ch then [h] else [] := by
  by_cases hch : ch' = ch
  · subst hch
    simp only [pending, enqueueHalf, Function.update_self, if_true]
    exact Queue.toList_enqueue h hlt
  · simp [pending, enqueueHalf, hch]

theorem count_enqueueHalf (st : State c) (h : Half) (ch ch' : Channel) :
    (st.enqueueHalf ch h).count ch' = st.count ch' + if ch' = ch then 1 else 0 := by
  by_cases hch : ch' = ch
  · subst hch
    simp [count, enqueueHalf, Queue.enqueue]
  · simp [count, enqueueHalf, hch]

theorem count_other (st : State c) (ch : Channel) :
    st.count ch + st.count ch.other = st.count .left + st.count .right := by
  cases ch
  · rfl
  · exact Nat.add_comm _ _

/-- Resolving an event keeps the bound: two nonempty queues lose a half. -/
theorem resolve_fits (hle : ∀ ch, st.count ch ≤ c.pendingDepth)
    (hsum : (st.count .left = 0 ∨ st.count .right = 0) ∨
      st.count .left + st.count .right ≤ c.pendingDepth + 1) :
    Fits st (fun _ => []) (st.resolve false) ∧ (st.resolve false).action ≠ .drop := by
  obtain ⟨hempty, heq⟩ | ⟨hl, hr, data, pop, ts, hdata, ⟨ch, hpop⟩, heq⟩ :=
    resolve_cases st false
  · rw [heq]
    refine ⟨⟨?_, fun _ => by simp [Outcome.popped], rfl, fun _ he => nomatch he⟩, by simp⟩
    have := hle .left
    have := hle .right
    dsimp only
    omega
  · have hsum : st.count .left + st.count .right ≤ c.pendingDepth + 1 := by omega
    have hne : ∀ ch, st.count ch ≠ 0 := by
      intro ch
      cases ch
      · exact hl
      · exact hr
    have hsplit := fun ch => emitEvent_pending data pop ts (hle ch)
    rw [heq]
    refine ⟨⟨?_, fun ch => (List.append_nil _).trans (hsplit ch),
      emitEvent_overflowDrops data pop ts, ?_⟩, by simp [emitted]⟩
    · -- the popped channel loses one half, the other one at most one
      have h₁ := congrArg List.length (hsplit ch)
      have h₂ := congrArg List.length (hsplit ch.other)
      rw [emitEvent_popped data ts hpop (hne ch)] at h₁
      simp only [List.length_append, ← count_eq_length, Option.toList_some,
        List.length_singleton] at h₁ h₂
      have hold := count_other st ch
      have hnew := count_other (st.emitEvent data pop ts).1 ch
      dsimp only [emitted]
      omega
    · rintro _ ⟨⟩
      exact emitEvent_carries ts fun ch hd => ⟨hdata ch hd, hne ch⟩

/-- An open half finds room: in its queue, by resolving an event, or by emitting the oldest half
of a full queue alone. -/
theorem place_fits (ch : Channel) (h : Half)
    (hsum : st.count .left + st.count .right ≤ c.pendingDepth) :
    Fits st (fun ch' => if ch' = ch then [h] else []) (st.place ch h) ∧
      (st.place ch h).action ≠ .drop := by
  have hother := count_other st ch
  have hle : ∀ ch', st.count ch' ≤ c.pendingDepth := by
    intro ch'
    have := count_other st ch'
    omega
  by_cases hfull : st.count ch ≥ c.pendingDepth ∧ st.count ch.other = 0
  · -- the queue limit: one half out, one half in
    have h₀ : st.count ch ≠ 0 := by
      have := c.pendingDepth_pos
      omega
    have hsplit := fun ch' => emitEvent_pending (only ch) (only ch) (st.oldest ch).ts (hle ch')
    have hpop : (st.emitEvent (only ch) (only ch) (st.oldest ch).ts).2.popped ch =
        some (st.oldest ch) := emitEvent_popped (only ch) _ (by simp [only]) h₀
    set r := st.emitEvent (only ch) (only ch) (st.oldest ch).ts with hr
    have hplace : st.place ch h = ⟨r.1.enqueueHalf ch h, .emit, some r.2⟩ := if_pos hfull
    have hlen : r.1.count ch + 1 = st.count ch := by
      have := congrArg List.length (hsplit ch)
      rw [hpop] at this
      simp only [List.length_append, ← count_eq_length, Option.toList_some,
        List.length_singleton] at this
      omega
    have hlen' : r.1.count ch.other ≤ st.count ch.other := by
      have := congrArg List.length (hsplit ch.other)
      simp only [List.length_append, ← count_eq_length] at this
      omega
    rw [hplace]
    refine ⟨⟨?_, ?_, emitEvent_overflowDrops _ _ _, ?_⟩, by simp⟩
    · have := count_other (r.1.enqueueHalf ch h) ch
      have := count_enqueueHalf r.1 h ch ch
      have := count_enqueueHalf r.1 h ch ch.other
      simp only [if_true, if_neg ch.other_ne] at *
      omega
    · intro ch'
      rw [pending_enqueueHalf h (by omega), ← List.append_assoc]
      exact congrArg (· ++ _) (hsplit ch')
    · rintro _ ⟨⟩
      refine emitEvent_carries _ fun ch' hd => ⟨hd, ?_⟩
      have : ch' = ch := by simpa [only] using hd
      exact this ▸ h₀
  · -- the overflow branch would need a full queue beside a nonempty one
    have hlt : st.count ch < c.pendingDepth := by omega
    have hplace : st.place ch h = (st.enqueueHalf ch h).resolve false := by
      have hnot : ¬ c.pendingDepth ≤ st.count ch := by omega
      simp [place, hnot]
    have hcount := count_enqueueHalf st h ch
    have hnew := count_other (st.enqueueHalf ch h) ch
    have hch := hcount ch
    have hch' := hcount ch.other
    simp only [if_true, if_neg ch.other_ne] at hch hch'
    have hle' : ∀ ch', (st.enqueueHalf ch h).count ch' ≤ c.pendingDepth := by
      intro ch'
      rw [hcount]
      by_cases hcc : ch' = ch
      · subst hcc
        simpa using Nat.succ_le_of_lt hlt
      · simpa [hcc] using hle ch'
    obtain ⟨hfits, haction⟩ := resolve_fits hle' (.inr (by omega))
    rw [hplace]
    refine ⟨⟨hfits.bound, fun ch' => ?_, hfits.noOverflow, hfits.carries⟩, haction⟩
    rw [← pending_enqueueHalf h hlt, ← hfits.split, List.append_nil]

theorem position_queue (st : State c) (d : Delivery) : (st.position d).1.queue = st.queue := by
  simp only [position]
  split_ifs <;> rfl

theorem position_overflowDrops (st : State c) (d : Delivery) :
    (st.position d).1.overflowDrops = st.overflowDrops := by
  simp only [position]
  split_ifs <;> rfl

/-- The specification of `modea_store`. -/
theorem store_fits (d : Delivery) (hsum : st.count .left + st.count .right ≤ c.pendingDepth) :
    Fits st (fun ch => if ch = d.ch then (st.accepts d).toList else []) (st.store d) ∧
      (d.len ≤ c.maxFrameOctets → (st.store d).action ≠ .drop) := by
  by_cases hlong : d.len > c.maxFrameOctets
  · have hstore : st.store d = ⟨{ st with rejects := st.rejects + 1 }, .drop, none⟩ :=
      if_pos hlong
    rw [hstore]
    refine ⟨⟨hsum, fun ch => ?_, rfl, fun _ he => nomatch he⟩, by omega⟩
    simp [accepts, hlong, Outcome.popped, pending]
  · have hqueue := position_queue st d
    have hdrops := position_overflowDrops st d
    rcases hp : st.position d with ⟨st₁, effHasTs, effTs⟩
    rw [hp] at hqueue hdrops
    dsimp only at hqueue hdrops
    simp only [store, accepts, hp, hlong, if_false, false_or]
    have hpending : ∀ ch, st₁.pending ch = st.pending ch := by
      intro ch
      rw [pending, pending, hqueue]
    have hsum₁ : st₁.count .left + st₁.count .right ≤ c.pendingDepth := by
      rw [count, count, hqueue]
      exact hsum
    split_ifs with hres
    · refine ⟨⟨hsum₁, fun ch => ?_, hdrops, fun _ he => nomatch he⟩, by simp⟩
      simp [Outcome.popped, hpending]
    · obtain ⟨hfits, haction⟩ := place_fits d.ch (d.half c effHasTs effTs) hsum₁
      refine ⟨⟨hfits.bound, fun ch => ?_, hfits.noOverflow.trans hdrops, hfits.carries⟩,
        fun _ => haction⟩
      rw [← hfits.split, hpending]
      rfl

end State

/-! ### Every sequence of calls -/

/-- The invariant of a history. -/
structure History.Inv (t : History c) : Prop where
  bound : t.st.count .left + t.st.count .right ≤ c.pendingDepth
  noOverflow : t.st.overflowDrops = 0
  split : ∀ ch, t.accepted ch = t.consumed ch ++ t.st.pending ch
  carries : ∀ e ∈ t.emissions, e.Carries c

theorem History.inv_start (c : Config) (intervalUs : UInt32) : (start c intervalUs).Inv where
  bound := Nat.zero_le _
  noOverflow := rfl
  split := fun _ => rfl
  carries := fun _ he => nomatch he

theorem History.consumed_store (t : History c) (d : Delivery) (ch : Channel) :
    (t.store d).consumed ch = t.consumed ch ++ (t.st.store d).popped ch := by
  cases hem : (t.st.store d).emission with
  | none => simp [consumed, History.store, Outcome.popped, hem]
  | some e => cases hp : e.popped ch <;> simp [consumed, History.store, Outcome.popped, hem, hp]

theorem History.Inv.store {t : History c} (hinv : t.Inv) (d : Delivery) : (t.store d).Inv := by
  obtain ⟨hfits, -⟩ := State.store_fits d hinv.bound
  refine ⟨hfits.bound, hfits.noOverflow.trans hinv.noOverflow, fun ch => ?_, fun e he => ?_⟩
  · have haccepted : (t.store d).accepted ch =
        t.accepted ch ++ if ch = d.ch then (t.st.accepts d).toList else [] := by
      by_cases hch : ch = d.ch
      · subst hch
        simp [History.store]
      · simp [History.store, hch]
    rw [haccepted, hinv.split, consumed_store, List.append_assoc, List.append_assoc, hfits.split]
    rfl
  · rcases List.mem_append.1 he with he | he
    · exact hinv.carries e he
    · exact hfits.carries e (Option.mem_toList.1 he)

theorem History.Inv.run {t : History c} (hinv : t.Inv) (ds : List Delivery) : (t.run ds).Inv := by
  induction ds generalizing t with
  | nil => exact hinv
  | cons d ds ih => exact ih (hinv.store d)

/-- After any sequence of calls the two queues together hold at most `MODEA_PENDING_DEPTH` halves,
and no call can overflow a queue.  The halves accepted on a channel are, in the order of
delivery, those popped by the emissions followed by those still pending, and every half that an
event says is valid was popped for it. -/
theorem conserved (c : Config) (intervalUs : UInt32) (ds : List Delivery) :
    let t := (History.start c intervalUs).run ds
    t.st.count .left + t.st.count .right ≤ c.pendingDepth ∧
    t.st.overflowDrops = 0 ∧
    (∀ d, d.len ≤ c.maxFrameOctets → (t.st.store d).action ≠ .drop) ∧
    (∀ ch, t.accepted ch = t.consumed ch ++ t.st.pending ch) ∧
    (∀ e ∈ t.emissions, e.Carries c) := by
  intro t
  have hinv : t.Inv := (History.inv_start c intervalUs).run ds
  refine ⟨hinv.bound, hinv.noOverflow, ?_, hinv.split, hinv.carries⟩
  intro d hlen
  exact (State.store_fits d hinv.bound).2 hlen

end ModeA

end LeAudioReceiver
