import LeAudioReceiver.Timing.Basic

/-!
# The measurement FIFO

The compare interrupt publishes, one run of the work item drains what several submissions have
announced, and a reset makes what is queued stale without touching it.

* `State.QueueInv` : what has been popped, tested and handed on so far, and that the item is
  queued or draining as long as a payload waits;
* `State.SessionInv` : generations count the resets, and a session ends with a refusal;
* `State.fifo_contract` : **an idle work queue has popped and tested what was accepted, in order,
  and handed on the measurements whose generation was current at the test; only a full FIFO
  refuses, and then nothing more is published in the session**;
* `State.popped_then_reset` : a reset can come between the pop and the test.
-/

namespace LeAudioReceiver

namespace Timing

open Circular (Queue)

namespace WorkPc

/-- Popped and not yet tested. -/
def untested : WorkPc → List Capture
  | popped c => [c]
  | _ => []

/-- Tested, and still to be handed to the drift controller. -/
def unsent : WorkPc → List Capture
  | current c => if c.measured then [c] else []
  | _ => []

/-- The handler looks at the FIFO again. -/
def draining : WorkPc → Bool
  | loop | popped _ | current _ => true
  | _ => false

end WorkPc

/-- The measurements among payloads that were compared with a generation, and had it. -/
def measurements (l : List (Capture × UInt32)) : List Capture :=
  (l.filter fun p => p.1.gen = p.2 && p.1.measured).map Prod.fst

theorem measurements_append (l l' : List (Capture × UInt32)) :
    measurements (l ++ l') = measurements l ++ measurements l' := by
  rw [measurements, List.filter_append, List.map_append]
  rfl

theorem measurements_singleton (c : Capture) (gen : UInt32) :
    measurements [(c, gen)] = if c.gen = gen ∧ c.measured = true then [c] else [] := by
  by_cases h : c.gen = gen ∧ c.measured = true <;> simp [measurements, h]

theorem stored_append (l : List Publication) (c : Capture) (accepted : Bool) :
    stored (l ++ [⟨c, accepted⟩]) = stored l ++ if accepted then [c] else [] := by
  cases accepted <;> simp [stored]

namespace State

variable {s s' : State} {a : Action}

/-! ### The steps -/

theorem diagPublish_cases (s : State) (d : DiagPayload) :
    (s.diagFifo.count < diagFifoCapacity ∧
      s.diagPublish d =
        { s with
          diagFifo := s.diagFifo.enqueue ⟨d, s.resets⟩
          published := s.published ++ [⟨⟨d, s.resets⟩, true⟩]
          diagWork := s.diagWork.schedule true }) ∨
    (diagFifoCapacity ≤ s.diagFifo.count ∧
      s.diagPublish d =
        { s with
          overflowFault := true
          active := false
          published := s.published ++ [⟨⟨d, s.resets⟩, false⟩]
          diagWork := s.diagWork.schedule true }) := by
  by_cases h : diagFifoCapacity ≤ s.diagFifo.count
  · exact .inr ⟨h, by simp only [diagPublish, diagFifoPush, if_pos h]⟩
  · exact .inl ⟨Nat.lt_of_not_le h, by simp only [diagPublish, diagFifoPush, if_neg h]⟩

/-- The interrupt does nothing, reports that it could not go on, takes a first capture, or
publishes a measurement. -/
theorem isr_cases (s : State) (ccValue now : UInt64) (cap : UInt32) (ret : ℤ) :
    s.grtcCcHandler ccValue now cap ret = s ∨
    (s.active = true ∧ s.grtcCcHandler ccValue now cap ret =
      { s with active := false }.diagPublish (s.errorPayload ret)) ∨
    s.active = true ∧ 0 ≤ ret ∧ ∃ nextCmp,
      (s.grtcCcHandler ccValue now cap ret =
        { s with compare := nextCmp, lastCap := cap, lastCompareUs := ccValue } ∨
      s.lastCompareUs ≠ 0 ∧ s.grtcCcHandler ccValue now cap ret =
        { { s with compare := nextCmp, diagSeq := s.diagSeq + 1 }.diagPublish
            (s.payload ccValue cap) with
          lastCap := cap, lastCompareUs := ccValue }) := by
  cases hactive : s.active with
  | false =>
    left
    simp [grtcCcHandler, hactive]
  | true =>
    right
    by_cases hret : ret < 0
    · left
      refine ⟨rfl, ?_⟩
      simp [grtcCcHandler, hactive, hret]
    · right
      refine ⟨rfl, Int.not_lt.1 hret,
        some (if ccValue + 1000000 ≤ now then now + 1000000 else ccValue + 1000000), ?_⟩
      by_cases hlast : s.lastCompareUs = 0
      · left
        simp [grtcCcHandler, hactive, hret, hlast]
      · right
        refine ⟨hlast, ?_⟩
        simp [grtcCcHandler, hactive, hret, hlast, payload]

/-! ### The queue -/

/-- What has been popped, tested and handed on so far; and as long as a payload waits, the item is
queued or the handler looks at the FIFO again. -/
structure QueueInv (s : State) : Prop where
  capacity : s.diagFifo.count ≤ diagFifoCapacity
  order : s.accepted = s.popped.map Prod.fst ++ s.diagFifo.toList
  tested : s.popped.map Prod.fst = s.checked.map Prod.fst ++ s.workPc.untested
  handed : measurements s.checked = s.forwarded ++ s.workPc.unsent
  drains : s.diagFifo.count ≠ 0 → s.diagWork.pending = true ∨ s.workPc.draining = true
  running : s.workPc ≠ .idle → s.diagWork.running = true
  canceling : s.diagWork.canceling = false

theorem queueInv_init (timerNominalHz : UInt32) : QueueInv (init timerNominalHz) where
  capacity := Nat.zero_le _
  order := rfl
  tested := rfl
  handed := rfl
  drains h := absurd rfl h
  running h := absurd rfl h
  canceling := rfl

theorem QueueInv.publish (h : QueueInv s) (d : DiagPayload) : QueueInv (s.diagPublish d) := by
  have hpending : (s.diagWork.schedule true).pending = true :=
    WorkQueue.Item.schedule_pending h.canceling (by simp [WorkQueue.Item.rejected])
  have hcanceling : (s.diagWork.schedule true).canceling = false :=
    WorkQueue.Item.schedule_canceling h.canceling true
  have hrunning : s.workPc ≠ .idle → (s.diagWork.schedule true).running = true := by
    intro hpc
    rw [WorkQueue.Item.schedule_running]
    exact h.running hpc
  rcases diagPublish_cases s d with ⟨hcount, heq⟩ | ⟨-, heq⟩
  · rw [heq]
    refine ⟨hcount, ?_, h.tested, h.handed, fun _ => .inl hpending, hrunning, hcanceling⟩
    calc stored (s.published ++ [⟨⟨d, s.resets⟩, true⟩])
        = s.accepted ++ [⟨d, s.resets⟩] := stored_append _ _ _
      _ = s.popped.map Prod.fst ++ (s.diagFifo.enqueue ⟨d, s.resets⟩).toList := by
        rw [h.order, Circular.Queue.toList_enqueue _ hcount, List.append_assoc]
  · rw [heq]
    refine ⟨h.capacity, ?_, h.tested, h.handed, fun _ => .inl hpending, hrunning, hcanceling⟩
    calc stored (s.published ++ [⟨⟨d, s.resets⟩, false⟩])
        = s.accepted ++ [] := stored_append _ _ _
      _ = s.popped.map Prod.fst ++ s.diagFifo.toList := by rw [List.append_nil, h.order]

theorem QueueInv.isr (h : QueueInv s) (ccValue now : UInt64) (cap : UInt32) (ret : ℤ) :
    QueueInv (s.grtcCcHandler ccValue now cap ret) := by
  obtain ⟨hcapacity, horder, htested, hhanded, hdrains, hrunning, hcanceling⟩ := h
  rcases isr_cases s ccValue now cap ret with heq | ⟨-, heq⟩ | ⟨-, -, nextCmp, heq | ⟨-, heq⟩⟩
  · rw [heq]
    exact ⟨hcapacity, horder, htested, hhanded, hdrains, hrunning, hcanceling⟩
  · rw [heq]
    exact QueueInv.publish (s := { s with active := false })
      ⟨hcapacity, horder, htested, hhanded, hdrains, hrunning, hcanceling⟩ _
  · rw [heq]
    exact ⟨hcapacity, horder, htested, hhanded, hdrains, hrunning, hcanceling⟩
  · rw [heq]
    obtain ⟨hcapacity, horder, htested, hhanded, hdrains, hrunning, hcanceling⟩ :=
      QueueInv.publish (s := { s with compare := nextCmp, diagSeq := s.diagSeq + 1 })
        ⟨hcapacity, horder, htested, hhanded, hdrains, hrunning, hcanceling⟩
        (s.payload ccValue cap)
    exact ⟨hcapacity, horder, htested, hhanded, hdrains, hrunning, hcanceling⟩

theorem QueueInv.pop (h : QueueInv s) (hpc : s.workPc = .loop) (hcount : s.diagFifo.count ≠ 0) :
    QueueInv s.pop := by
  have hfifo := Circular.Queue.oldest_cons_pop id hcount h.capacity
  have htested := h.tested
  have hhanded := h.handed
  rw [hpc] at htested hhanded
  refine ⟨?_, ?_, ?_, hhanded, fun _ => .inr rfl, fun _ => h.running (by simp [hpc]),
    h.canceling⟩
  · have hle := h.capacity
    simp only [State.pop, Queue.pop, if_neg hcount]
    omega
  · calc s.accepted
        = s.popped.map Prod.fst ++ s.diagFifo.oldest :: (s.diagFifo.pop id).toList := by
          rw [h.order, hfifo]
      _ = (s.popped ++ [(s.diagFifo.oldest, s.generation)]).map Prod.fst ++
          (s.diagFifo.pop id).toList := by
        rw [List.map_append, List.append_assoc]
        rfl
  · change (s.popped ++ [(s.diagFifo.oldest, s.generation)]).map Prod.fst = _
    rw [List.map_append, htested]
    exact congrArg (· ++ [s.diagFifo.oldest]) (List.append_nil _)

theorem QueueInv.check (h : QueueInv s) {c : Capture} (hpc : s.workPc = .popped c) :
    QueueInv (s.check c) := by
  have htested := h.tested
  have hhanded := h.handed
  rw [hpc] at htested hhanded
  have hchecked : s.popped.map Prod.fst = (s.checked ++ [(c, s.generation)]).map Prod.fst := by
    rw [htested, List.map_append]
    rfl
  have hrunning : s.diagWork.running = true := h.running (by simp [hpc])
  by_cases hgen : c.gen = s.generation
  · simp only [State.check, if_pos hgen]
    refine ⟨h.capacity, h.order, by rw [hchecked]; exact (List.append_nil _).symm, ?_,
      fun _ => .inr rfl, fun _ => hrunning, h.canceling⟩
    rw [measurements_append, hhanded, measurements_singleton]
    simp [hgen, WorkPc.unsent]
  · simp only [State.check, if_neg hgen]
    refine ⟨h.capacity, h.order, by rw [hchecked]; exact (List.append_nil _).symm, ?_,
      fun _ => .inr rfl, fun _ => hrunning, h.canceling⟩
    rw [measurements_append, hhanded, measurements_singleton]
    simp [hgen, WorkPc.unsent]

theorem QueueInv.consume (h : QueueInv s) {c : Capture} (hpc : s.workPc = .current c) :
    QueueInv (s.consume c) := by
  have htested := h.tested
  have hhanded := h.handed
  rw [hpc] at htested hhanded
  refine ⟨h.capacity, h.order, htested, ?_, fun _ => .inr rfl, fun _ => h.running (by simp [hpc]),
    h.canceling⟩
  change measurements s.checked = (if c.measured then s.forwarded ++ [c] else s.forwarded) ++ []
  rw [hhanded, WorkPc.unsent]
  cases c.measured <;> simp

theorem QueueInv.work (h : QueueInv s) (hs : s.diagWorkHandler = some s') : QueueInv s' := by
  obtain ⟨hcapacity, horder, htested, hhanded, hdrains, hrunning, hcanceling⟩ := h
  cases hpc : s.workPc with
  | idle =>
    rw [hpc] at htested hhanded
    simp only [diagWorkHandler, hpc] at hs
    split_ifs at hs
    obtain rfl := Option.some.inj hs
    exact ⟨hcapacity, horder, htested, hhanded, fun _ => .inr rfl, fun _ => rfl, rfl⟩
  | loop =>
    simp only [diagWorkHandler, hpc] at hs
    split_ifs at hs with hcount
    · rw [hpc] at htested hhanded
      obtain rfl := Option.some.inj hs
      exact ⟨hcapacity, horder, htested, hhanded, fun hne => absurd hcount hne,
        fun _ => hrunning (by simp [hpc]), hcanceling⟩
    · exact Option.some.inj hs ▸ QueueInv.pop
        ⟨hcapacity, horder, htested, hhanded, hdrains, hrunning, hcanceling⟩ hpc hcount
  | popped c =>
    simp only [diagWorkHandler, hpc] at hs
    exact Option.some.inj hs ▸ QueueInv.check
      ⟨hcapacity, horder, htested, hhanded, hdrains, hrunning, hcanceling⟩ hpc
  | current c =>
    simp only [diagWorkHandler, hpc] at hs
    exact Option.some.inj hs ▸ QueueInv.consume
      ⟨hcapacity, horder, htested, hhanded, hdrains, hrunning, hcanceling⟩ hpc
  | report =>
    rw [hpc] at htested hhanded
    -- behind the loop whatever is queued has its work scheduled
    have hpending : s.diagFifo.count ≠ 0 → s.diagWork.pending = true := by
      intro hne
      simpa [hpc, WorkPc.draining] using hdrains hne
    simp only [diagWorkHandler, hpc] at hs
    split_ifs at hs
    · obtain rfl := Option.some.inj hs
      exact ⟨hcapacity, horder, htested, hhanded, fun hne => .inl (hpending hne),
        fun _ => hrunning (by simp [hpc]), hcanceling⟩
    · obtain rfl := Option.some.inj hs
      exact ⟨hcapacity, horder, htested, hhanded, fun hne => .inl (hpending hne),
        fun hne => absurd rfl hne, rfl⟩
  | clear =>
    rw [hpc] at htested hhanded
    have hpending : s.diagFifo.count ≠ 0 → s.diagWork.pending = true := by
      intro hne
      simpa [hpc, WorkPc.draining] using hdrains hne
    simp only [diagWorkHandler, hpc] at hs
    obtain rfl := Option.some.inj hs
    exact ⟨hcapacity, horder, htested, hhanded, fun hne => .inl (hpending hne),
      fun hne => absurd rfl hne, rfl⟩

theorem QueueInv.ctlRun (h : QueueInv s) (hs : s.ctlRun = some s') : QueueInv s' := by
  obtain ⟨hcapacity, horder, htested, hhanded, hdrains, hrunning, hcanceling⟩ := h
  cases hpc : s.ctlPc with
  | free =>
    simp only [State.ctlRun, hpc] at hs
    cases hs
  | activate | commit | startSeq | disable | clear =>
    simp only [State.ctlRun, hpc] at hs
    obtain rfl := Option.some.inj hs
    exact ⟨hcapacity, horder, htested, hhanded, hdrains, hrunning, hcanceling⟩

theorem sduRefUpdate_cases (s : State) (sduTsUs pdUs : UInt32) (now : UInt64) (ret : ℤ) :
    s.sduRefUpdate sduTsUs pdUs now ret = s ∨
      s.anchorSet = false ∧ ∃ cmp,
        s.sduRefUpdate sduTsUs pdUs now ret = { s with compare := cmp, ctlPc := .activate } := by
  unfold sduRefUpdate
  split_ifs with h
  · exact .inl rfl
  · push Not at h
    exact .inr ⟨by simpa using h.2.1, _, rfl⟩

theorem QueueInv.next (h : QueueInv s) (hs : s.next a = some s') : QueueInv s' := by
  cases a with
  | isr ccValue now cap ret => exact Option.some.inj hs ▸ h.isr ccValue now cap ret
  | work => exact h.work hs
  | sduRefUpdate sduTsUs pdUs now ret =>
    obtain ⟨hcapacity, horder, htested, hhanded, hdrains, hrunning, hcanceling⟩ := h
    simp only [State.next] at hs
    split_ifs at hs
    obtain rfl := Option.some.inj hs
    rcases sduRefUpdate_cases s sduTsUs pdUs now ret with heq | ⟨-, cmp, heq⟩
    all_goals
      rw [heq]
      exact ⟨hcapacity, horder, htested, hhanded, hdrains, hrunning, hcanceling⟩
  | reset =>
    obtain ⟨hcapacity, horder, htested, hhanded, hdrains, hrunning, hcanceling⟩ := h
    simp only [State.next] at hs
    split_ifs at hs
    obtain rfl := Option.some.inj hs
    exact ⟨hcapacity, horder, htested, hhanded, hdrains, hrunning, hcanceling⟩
  | ctlRun => exact h.ctlRun hs

theorem queueInv_of_reachable (h : machine.Reachable s) : QueueInv s := by
  refine h.invariant ?_ fun _ _ _ hs hnext => hs.next hnext
  rintro _ ⟨timerNominalHz, rfl⟩
  exact queueInv_init timerNominalHz

/-! ### The sessions -/

/-- Measurement belongs to an anchor that has been taken or is about to be. -/
def Anchored (s : State) : Prop := s.anchorSet = true ∨ s.ctlPc = .commit

/-- No payload of the current session has been refused. -/
def Unrefused (s : State) : Prop :=
  ∀ p ∈ s.published, p.accepted = false → p.capture.session < s.resets

/-- Generations count the resets; and measurement that a refusal has ended begins with the anchor
of another session. -/
structure SessionInv (s : State) : Prop where
  generation : s.generation = UInt32.ofNat s.resets
  gens : ∀ p ∈ s.published, p.capture.gen = UInt32.ofNat p.capture.session
  sessions : ∀ p ∈ s.published, p.capture.session ≤ s.resets
  activate : s.ctlPc = .activate → s.active = false ∧ s.anchorSet = false
  disabled : s.ctlPc = .disable ∨ s.ctlPc = .clear → s.active = false ∧ s.Unrefused
  anchored : s.active = true → s.Anchored
  refused : s.Unrefused ∨ s.active = false ∧ s.Anchored
  ordered : s.published.Pairwise fun p q =>
    p.accepted = false → p.capture.session < q.capture.session

theorem sessionInv_init (timerNominalHz : UInt32) : SessionInv (init timerNominalHz) where
  generation := rfl
  gens _ hp := absurd hp (List.not_mem_nil)
  sessions _ hp := absurd hp (List.not_mem_nil)
  activate h := nomatch h
  disabled h := nomatch h
  anchored h := nomatch h
  refused := .inl fun _ hp => absurd hp (List.not_mem_nil)
  ordered := .nil

/-- A session in which nothing was refused publishes once more. -/
theorem ordered_append {l : List Publication} {n : ℕ} {q : Publication}
    (hl : l.Pairwise fun p q => p.accepted = false → p.capture.session < q.capture.session)
    (hunrefused : ∀ p ∈ l, p.accepted = false → p.capture.session < n)
    (hq : q.capture.session = n) :
    (l ++ [q]).Pairwise fun p q => p.accepted = false → p.capture.session < q.capture.session := by
  refine List.pairwise_append.2 ⟨hl, List.pairwise_singleton _ _, ?_⟩
  intro p hp q' hq' hrefused
  rw [List.mem_singleton.1 hq', hq]
  exact hunrefused p hp hrefused

theorem forall_published {P : Publication → Prop} (h : ∀ p ∈ s.published, P p) {q : Publication}
    (hq : P q) : ∀ p ∈ s.published ++ [q], P p :=
  List.forall_mem_append.2 ⟨h, List.forall_mem_singleton.2 hq⟩

theorem SessionInv.publish (h : SessionInv s) (hanchored : s.Anchored) (hunrefused : s.Unrefused)
    (hctl : ¬(s.ctlPc = .disable ∨ s.ctlPc = .clear)) {d : DiagPayload}
    (hgen : d.gen = s.generation) : SessionInv (s.diagPublish d) := by
  have hgens : d.gen = UInt32.ofNat s.resets := hgen.trans h.generation
  rcases diagPublish_cases s d with ⟨-, heq⟩ | ⟨-, heq⟩
  · rw [heq]
    exact {
      generation := h.generation
      gens := forall_published h.gens hgens
      sessions := forall_published h.sessions (Nat.le_refl _)
      activate := h.activate
      disabled := fun hpc => absurd hpc hctl
      anchored := h.anchored
      refused := .inl (forall_published hunrefused (nomatch ·))
      ordered := ordered_append h.ordered hunrefused rfl }
  · rw [heq]
    exact {
      generation := h.generation
      gens := forall_published h.gens hgens
      sessions := forall_published h.sessions (Nat.le_refl _)
      activate := fun hpc => ⟨rfl, (h.activate hpc).2⟩
      disabled := fun hpc => absurd hpc hctl
      anchored := (nomatch ·)
      refused := .inr ⟨rfl, hanchored⟩
      ordered := ordered_append h.ordered hunrefused rfl }

theorem SessionInv.of_active (h : SessionInv s) (hactive : s.active = true) :
    s.Anchored ∧ s.Unrefused ∧ ¬(s.ctlPc = .disable ∨ s.ctlPc = .clear) := by
  refine ⟨h.anchored hactive, ?_, ?_⟩
  · rcases h.refused with hunrefused | ⟨hinactive, -⟩
    · exact hunrefused
    · rw [hactive] at hinactive
      cases hinactive
  · intro hpc
    have hinactive := (h.disabled hpc).1
    rw [hactive] at hinactive
    cases hinactive

theorem SessionInv.isr (h : SessionInv s) (ccValue now : UInt64) (cap : UInt32) (ret : ℤ) :
    SessionInv (s.grtcCcHandler ccValue now cap ret) := by
  rcases isr_cases s ccValue now cap ret with
    heq | ⟨hactive, heq⟩ | ⟨hactive, -, nextCmp, heq | ⟨-, heq⟩⟩
  · rw [heq]
    exact h
  · obtain ⟨hanchored, hunrefused, hctl⟩ := h.of_active hactive
    obtain ⟨hgeneration, hgens, hsessions, hactivate, -, -, -, hordered⟩ := h
    rw [heq]
    exact SessionInv.publish (s := { s with active := false })
      ⟨hgeneration, hgens, hsessions, fun hpc => ⟨rfl, (hactivate hpc).2⟩,
        fun hpc => absurd hpc hctl, (nomatch ·), .inl hunrefused, hordered⟩
      hanchored hunrefused hctl rfl
  · obtain ⟨hgeneration, hgens, hsessions, hactivate, hdisabled, hanch, hrefused, hordered⟩ := h
    rw [heq]
    exact ⟨hgeneration, hgens, hsessions, hactivate, hdisabled, hanch, hrefused, hordered⟩
  · obtain ⟨hanchored, hunrefused, hctl⟩ := h.of_active hactive
    obtain ⟨hgeneration, hgens, hsessions, hactivate, hdisabled, hanch, hrefused, hordered⟩ := h
    rw [heq]
    obtain ⟨hgeneration, hgens, hsessions, hactivate, hdisabled, hanch, hrefused, hordered⟩ :=
      SessionInv.publish (s := { s with compare := nextCmp, diagSeq := s.diagSeq + 1 })
        ⟨hgeneration, hgens, hsessions, hactivate, hdisabled, hanch, hrefused, hordered⟩
        hanchored hunrefused hctl (d := s.payload ccValue cap) rfl
    exact ⟨hgeneration, hgens, hsessions, hactivate, hdisabled, hanch, hrefused, hordered⟩

/-- The work handler leaves the session alone. -/
theorem SessionInv.work (h : SessionInv s) (hs : s.diagWorkHandler = some s') :
    SessionInv s' := by
  obtain ⟨hgeneration, hgens, hsessions, hactivate, hdisabled, hanchored, hrefused, hordered⟩ := h
  unfold diagWorkHandler at hs
  split at hs
  · split_ifs at hs
    obtain rfl := Option.some.inj hs
    exact ⟨hgeneration, hgens, hsessions, hactivate, hdisabled, hanchored, hrefused, hordered⟩
  · obtain rfl := Option.some.inj hs
    split_ifs
    all_goals
      exact ⟨hgeneration, hgens, hsessions, hactivate, hdisabled, hanchored, hrefused, hordered⟩
  · obtain rfl := Option.some.inj hs
    exact ⟨hgeneration, hgens, hsessions, hactivate, hdisabled, hanchored, hrefused, hordered⟩
  · obtain rfl := Option.some.inj hs
    exact ⟨hgeneration, hgens, hsessions, hactivate, hdisabled, hanchored, hrefused, hordered⟩
  · obtain rfl := Option.some.inj hs
    split_ifs
    all_goals
      exact ⟨hgeneration, hgens, hsessions, hactivate, hdisabled, hanchored, hrefused, hordered⟩
  · obtain rfl := Option.some.inj hs
    exact ⟨hgeneration, hgens, hsessions, hactivate, hdisabled, hanchored, hrefused, hordered⟩

theorem SessionInv.reset (h : SessionInv s) : SessionInv s.reset := by
  have hunrefused : s.reset.Unrefused := fun p hp _ => Nat.lt_succ_of_le (h.sessions p hp)
  exact {
    generation := by
      change s.generation + 1 = UInt32.ofNat (s.resets + 1)
      rw [h.generation, UInt32.ofNat_add]
      rfl
    gens := h.gens
    sessions := fun p hp => Nat.le_succ_of_le (h.sessions p hp)
    activate := (nomatch ·)
    disabled := fun _ => ⟨rfl, hunrefused⟩
    anchored := (nomatch ·)
    refused := .inl hunrefused
    ordered := h.ordered }

theorem SessionInv.ctlRun (h : SessionInv s) (hs : s.ctlRun = some s') : SessionInv s' := by
  have hanchored := h.anchored
  have hrefused := h.refused
  cases hpc : s.ctlPc with
  | free =>
    simp only [State.ctlRun, hpc] at hs
    cases hs
  | activate =>
    -- no session is anchored yet, so nothing was refused in one
    have hunrefused : s.Unrefused := by
      rcases hrefused with hunrefused | ⟨-, hset | hcommit⟩
      · exact hunrefused
      · rw [(h.activate hpc).2] at hset
        cases hset
      · rw [hpc] at hcommit
        cases hcommit
    simp only [State.ctlRun, hpc] at hs
    obtain rfl := Option.some.inj hs
    exact ⟨h.generation, h.gens, h.sessions, (nomatch ·),
      (nomatch ·), fun _ => .inr rfl, .inl hunrefused, h.ordered⟩
  | commit =>
    simp only [State.ctlRun, hpc] at hs
    obtain rfl := Option.some.inj hs
    refine ⟨h.generation, h.gens, h.sessions, (nomatch ·),
      (nomatch ·), fun _ => .inl rfl, ?_, h.ordered⟩
    exact hrefused.imp_right fun hinactive => ⟨hinactive.1, .inl rfl⟩
  | startSeq =>
    have hset : s.Anchored → s.anchorSet = true := by
      rintro (hset | hcommit)
      · exact hset
      · rw [hpc] at hcommit
        cases hcommit
    simp only [State.ctlRun, hpc] at hs
    obtain rfl := Option.some.inj hs
    refine ⟨h.generation, h.gens, h.sessions, (nomatch ·),
      (nomatch ·), fun hactive => .inl (hset (hanchored hactive)), ?_, h.ordered⟩
    exact hrefused.imp_right fun hinactive => ⟨hinactive.1, .inl (hset hinactive.2)⟩
  | disable =>
    have hdisabled := h.disabled (.inl hpc)
    simp only [State.ctlRun, hpc] at hs
    obtain rfl := Option.some.inj hs
    exact ⟨h.generation, h.gens, h.sessions, (nomatch ·), fun _ => hdisabled,
      fun hactive => absurd hactive (by simp [hdisabled.1]), .inl hdisabled.2, h.ordered⟩
  | clear =>
    have hdisabled := h.disabled (.inr hpc)
    simp only [State.ctlRun, hpc] at hs
    obtain rfl := Option.some.inj hs
    exact ⟨h.generation, h.gens, h.sessions, (nomatch ·), (nomatch ·),
      fun hactive => absurd hactive (by simp [hdisabled.1]), .inl hdisabled.2, h.ordered⟩

theorem SessionInv.sduRefUpdate (h : SessionInv s) (hfree : s.ctlPc = .free)
    (sduTsUs pdUs : UInt32) (now : UInt64) (ret : ℤ) :
    SessionInv (s.sduRefUpdate sduTsUs pdUs now ret) := by
  rcases sduRefUpdate_cases s sduTsUs pdUs now ret with heq | ⟨hset, cmp, heq⟩
  · rw [heq]
    exact h
  · have hnot : ¬s.Anchored := by
      rintro (hset' | hcommit)
      · rw [hset] at hset'
        cases hset'
      · rw [hfree] at hcommit
        cases hcommit
    have hinactive : s.active = false := by
      by_contra hactive
      exact hnot (h.anchored (by simpa using hactive))
    have hunrefused : s.Unrefused := h.refused.resolve_right fun hr => hnot hr.2
    rw [heq]
    exact ⟨h.generation, h.gens, h.sessions, fun _ => ⟨hinactive, hset⟩, (nomatch ·),
      fun hactive => absurd hactive (by simp [hinactive]), .inl hunrefused, h.ordered⟩

theorem SessionInv.next (h : SessionInv s) (hs : s.next a = some s') : SessionInv s' := by
  cases a with
  | isr ccValue now cap ret => exact Option.some.inj hs ▸ h.isr ccValue now cap ret
  | work => exact h.work hs
  | sduRefUpdate sduTsUs pdUs now ret =>
    simp only [State.next] at hs
    split_ifs at hs with hfree
    exact Option.some.inj hs ▸ h.sduRefUpdate hfree sduTsUs pdUs now ret
  | reset =>
    simp only [State.next] at hs
    split_ifs at hs
    exact Option.some.inj hs ▸ h.reset
  | ctlRun => exact h.ctlRun hs

theorem sessionInv_of_reachable (h : machine.Reachable s) : SessionInv s := by
  refine h.invariant ?_ fun _ _ _ hs hnext => hs.next hnext
  rintro _ ⟨timerNominalHz, rfl⟩
  exact sessionInv_init timerNominalHz

/-! ### The contract -/

/-- The handler publishes nothing and does not touch the measurement. -/
theorem work_frame (hs : s.diagWorkHandler = some s') :
    s'.published = s.published ∧ s'.active = s.active := by
  unfold diagWorkHandler at hs
  split at hs
  · split_ifs at hs
    obtain rfl := Option.some.inj hs
    exact ⟨rfl, rfl⟩
  · obtain rfl := Option.some.inj hs
    split_ifs <;> exact ⟨rfl, rfl⟩
  · obtain rfl := Option.some.inj hs
    exact ⟨rfl, rfl⟩
  · obtain rfl := Option.some.inj hs
    exact ⟨rfl, rfl⟩
  · obtain rfl := Option.some.inj hs
    split_ifs <;> exact ⟨rfl, rfl⟩
  · obtain rfl := Option.some.inj hs
    exact ⟨rfl, rfl⟩

theorem ctlRun_frame (hs : s.ctlRun = some s') :
    s'.published = s.published ∧ (s'.active = s.active ∨ s.ctlPc = .activate) := by
  cases hpc : s.ctlPc with
  | free =>
    simp only [State.ctlRun, hpc] at hs
    cases hs
  | activate =>
    simp only [State.ctlRun, hpc] at hs
    obtain rfl := Option.some.inj hs
    exact ⟨rfl, .inr rfl⟩
  | commit | startSeq | disable | clear =>
    simp only [State.ctlRun, hpc] at hs
    obtain rfl := Option.some.inj hs
    exact ⟨rfl, .inl rfl⟩

/-- Only the interrupt publishes. -/
theorem published_frame (hs : s.next a = some s')
    (hisr : ∀ ccValue now cap ret, a ≠ .isr ccValue now cap ret) : s'.published = s.published := by
  cases a with
  | isr ccValue now cap ret => exact absurd rfl (hisr ccValue now cap ret)
  | work => exact (work_frame hs).1
  | sduRefUpdate sduTsUs pdUs now ret =>
    simp only [State.next] at hs
    split_ifs at hs
    obtain rfl := Option.some.inj hs
    rcases sduRefUpdate_cases s sduTsUs pdUs now ret with heq | ⟨-, cmp, heq⟩ <;> rw [heq]
  | reset =>
    simp only [State.next] at hs
    split_ifs at hs
    obtain rfl := Option.some.inj hs
    rfl
  | ctlRun => exact (ctlRun_frame hs).1

/-- A step that refuses a payload finds the FIFO full, records the fault and stops measuring. -/
theorem QueueInv.of_refused (h : QueueInv s) (hs : s.next a = some s') {p : Publication}
    (hp : s'.published = s.published ++ [p]) (hrefused : p.accepted = false) :
    s.diagFifo.count = diagFifoCapacity ∧ s'.overflowFault = true ∧ s'.active = false := by
  have hsame : s'.published ≠ s.published := by
    rw [hp]
    simp
  have hpublish : ∀ (t : State) (d : DiagPayload), t.diagFifo = s.diagFifo →
      (t.diagPublish d).published = t.published ++ [p] →
      s.diagFifo.count = diagFifoCapacity ∧ (t.diagPublish d).overflowFault = true ∧
        (t.diagPublish d).active = false := by
    intro t d hfifo hpub
    rcases diagPublish_cases t d with ⟨-, heq⟩ | ⟨hfull, heq⟩
    · rw [heq] at hpub
      obtain rfl := List.singleton_inj.1 (List.append_cancel_left hpub)
      cases hrefused
    · rw [heq]
      rw [hfifo] at hfull
      exact ⟨Nat.le_antisymm h.capacity hfull, rfl, rfl⟩
  cases a with
  | isr ccValue now cap ret =>
    obtain rfl := Option.some.inj hs
    rcases isr_cases s ccValue now cap ret with heq | ⟨-, heq⟩ | ⟨-, -, nextCmp, heq | ⟨-, heq⟩⟩
    · exact absurd (congrArg State.published heq) hsame
    · rw [heq] at hp ⊢
      exact hpublish { s with active := false } _ rfl hp
    · exact absurd (congrArg State.published heq) hsame
    · rw [heq] at hp ⊢
      exact hpublish { s with compare := nextCmp, diagSeq := s.diagSeq + 1 } _ rfl hp
  | work | sduRefUpdate sduTsUs pdUs now ret | reset | ctlRun =>
    exact absurd (published_frame hs (by simp)) hsame

/-- Only an anchor makes the measurement active. -/
theorem anchor_of_active (hs : s.next a = some s') (hactive : s.active = false)
    (hactive' : s'.active = true) : s.ctlPc = .activate := by
  have hchanged : s'.active ≠ s.active := by
    rw [hactive, hactive']
    decide
  cases a with
  | isr ccValue now cap ret =>
    obtain rfl := Option.some.inj hs
    rcases isr_cases s ccValue now cap ret with heq | ⟨htrue, -⟩ | ⟨htrue, -⟩
    · exact absurd (congrArg State.active heq) hchanged
    · rw [hactive] at htrue
      cases htrue
    · rw [hactive] at htrue
      cases htrue
  | work => exact absurd (work_frame hs).2 hchanged
  | sduRefUpdate sduTsUs pdUs now ret =>
    refine absurd ?_ hchanged
    simp only [State.next] at hs
    split_ifs at hs
    obtain rfl := Option.some.inj hs
    rcases sduRefUpdate_cases s sduTsUs pdUs now ret with heq | ⟨-, cmp, heq⟩ <;> rw [heq]
  | reset =>
    simp only [State.next] at hs
    split_ifs at hs
    obtain rfl := Option.some.inj hs
    cases hactive'
  | ctlRun => exact (ctlRun_frame hs).2.resolve_left hchanged

/-- Everything that is accepted is popped and tested once and in order, when the work queue has
become idle; what goes to the drift controller are the measurements whose generation was current at
the test.  A refused payload ends its session: the FIFO is full, the fault is recorded, and the
measurement is inactive until an anchor of another session. -/
theorem fifo_contract (h : machine.Reachable s) :
    (s.QueueIdle →
      s.popped.map Prod.fst = s.accepted ∧ s.checked.map Prod.fst = s.accepted ∧
        s.forwarded = measurements s.checked) ∧
    (∀ a s', s.next a = some s' → ∀ p, s'.published = s.published ++ [p] → p.accepted = false →
      s.diagFifo.count = diagFifoCapacity ∧ s'.overflowFault = true ∧ s'.active = false) ∧
    (∀ p ∈ s.published, p.accepted = false → p.capture.session = s.resets → s.active = false) ∧
    (∀ a s', s.next a = some s' → s.active = false → s'.active = true → s.ctlPc = .activate) ∧
    s.published.Pairwise fun p q => p.accepted = false → p.capture.session < q.capture.session := by
  have hqueue := queueInv_of_reachable h
  have hsession := sessionInv_of_reachable h
  refine ⟨?_, fun a s' hs p => hqueue.of_refused hs, ?_, fun a s' hs => anchor_of_active hs,
    hsession.ordered⟩
  · rintro ⟨hpending, hrunning⟩
    have hpc : s.workPc = .idle := by
      by_contra hne
      rw [hqueue.running hne] at hrunning
      cases hrunning
    have hempty : s.diagFifo.toList = [] := by
      have hcount : s.diagFifo.count = 0 := by
        by_contra hne
        have := hqueue.drains hne
        simp [hpending, hpc, WorkPc.draining] at this
      simp [Queue.toList, hcount]
    have horder := hqueue.order
    have htested := hqueue.tested
    have hhanded := hqueue.handed
    rw [hempty, List.append_nil] at horder
    rw [hpc] at htested hhanded
    refine ⟨horder.symm, ?_, ?_⟩
    · rw [horder, htested]
      exact (List.append_nil _).symm
    · rw [hhanded]
      exact (List.append_nil _).symm
  · intro p hp hrefused hsess
    rcases hsession.refused with hunrefused | ⟨hinactive, -⟩
    · exact absurd (hunrefused p hp hrefused) (by omega)
    · exact hinactive

/-- An anchor, a first capture and a measurement. -/
def measuring : List Action :=
  [.sduRefUpdate 1000 40000 500 0, .ctlRun, .ctlRun, .ctlRun, .isr 1041000 1041002 16000000 0,
    .isr 2041000 2041003 32000016 0]

/-- The measurement is popped, a reset comes, and the handler tests it and returns. -/
def resetBeforeTest : List Action :=
  measuring ++ [.work, .work, .reset, .ctlRun, .ctlRun, .work, .work, .work]

/-- The state that `resetBeforeTest` ends in. -/
def afterTest : State :=
  (machine.run (init 16000000) resetBeforeTest).getD (init 16000000)

theorem reachable_init (timerNominalHz : UInt32) : machine.Reachable (init timerNominalHz) :=
  .init ⟨timerNominalHz, rfl⟩

theorem afterTest_reachable : machine.Reachable afterTest := by
  have hsome : (machine.run (init 16000000) resetBeforeTest).isSome = true := by decide +kernel
  obtain ⟨s, hs⟩ := Option.isSome_iff_exists.1 hsome
  rw [afterTest, hs]
  exact (reachable_init 16000000).run hs

theorem fifo_contract_afterTest :
    afterTest.QueueIdle ∧ afterTest.checked.map Prod.fst = afterTest.accepted ∧
      afterTest.accepted.length = 1 := by
  have hidle : afterTest.QueueIdle := by decide +kernel
  exact ⟨hidle, ((fifo_contract afterTest_reachable).1 hidle).2.1, by decide +kernel⟩

/-- A measurement whose generation is current when it is popped is not handed on if a reset comes
before the handler tests it. -/
theorem popped_then_reset :
    ∃ s, machine.Reachable s ∧ s.QueueIdle ∧ s.forwarded ≠ measurements s.popped :=
  ⟨afterTest, afterTest_reachable, by decide +kernel, by decide +kernel⟩

end State

end Timing

end LeAudioReceiver
