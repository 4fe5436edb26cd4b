import LeAudioReceiver.Hil.TransmitTold

/-!
# What a call of the transmit stage leaves to the verdict

A call that returns `0` meets the scored target of its segment exactly, whatever the surroundings
did meanwhile, so behind it a run without errors may pass, or go on to its second segment.

* `Clean` : the counters of a run whose segments so far were complete;
* `stage_clean` : **a call that returns `0` completes a segment**, and what the run may do then.
-/

namespace LeAudioReceiver

namespace Hil

open Transmit (preambleFrames tailFrames)

/-- What a segment sends on a stream. -/
def Config.segmentTotal (c : Config) : ℕ :=
  preambleFrames c.profile + c.scoredSduCount.toNat + tailFrames c.profile

/-- A run without errors whose first `n` segments were complete. -/
structure Clean (r : State) (n : ℕ) : Prop where
  aborted : r.aborted = false
  firstError : r.firstError = 0
  terminal : r.terminal = .none
  failures : ∀ i : Fin 2, i.val < r.config.mode.streamCount → (r.counters i).sendFailures = 0
  scored : ∀ i : Fin 2, i.val < r.config.mode.streamCount →
    (r.counters i).submittedScoredSdus.toNat = n * r.config.scoredSduCount.toNat
  submitted : ∀ i : Fin 2, i.val < r.config.mode.streamCount →
    (r.counters i).submittedSdus.toNat = n * r.config.segmentTotal
  callbacks : ∀ i : Fin 2, i.val < r.config.mode.streamCount →
    (r.counters i).sentCallbacks = (r.counters i).submittedSdus

/-- The start of a segment. -/
structure Opened (r : State) (n : ℕ) : Prop extends Clean r n where
  baseline : ∀ i : Fin 2, i.val < r.config.mode.streamCount →
    r.scoredBaseline i = (r.counters i).submittedScoredSdus

/-- The run state behind the teardown of a segment. -/
def State.closed (r : State) : State := (r.call (.advance (some .teardown))).1

theorem State.closed_eq {r : State} (hactive : r.active = true)
    (hstate : r.currentState = .scoredComplete) :
    r.closed = { r with currentState := .teardown } := by
  simp [closed, call, advance, hactive, hstate, RunState.index]

theorem State.pass_accepted {r : State} (hactive : r.active = true)
    (hstate : r.currentState = .teardown) (hterminal : r.terminal = .none)
    (hpasses : r.passes = true) : (r.call (.terminal (some .pass))).2 = none := by
  simp [call, acceptTerminal, hactive, hstate, hterminal, hpasses]

theorem State.nextSegment_accepted {r : State} (hactive : r.active = true)
    (hstate : r.currentState = .teardown) (haborted : r.aborted = false)
    (honce : r.config.reconnectPolicy = .once) (hused : r.reconnectUsed = false) :
    r.call .nextSegment = (r.reconnected, none) := by
  simp [call, nextSegment, hactive, hstate, haborted, honce, hused]

/-- A run that starts. -/
theorem opened_started {r r' : State} (h : r.start = (r', none)) : Opened r' 0 := by
  unfold State.start at h
  split_ifs at h
  · cases h
  · cases h
  · obtain rfl : r.started = r' := congrArg Prod.fst h
    refine ⟨⟨rfl, rfl, rfl, fun _ _ => rfl, fun _ _ => ?_, fun _ _ => ?_, fun _ _ => rfl⟩,
      fun _ _ => rfl⟩
    · rw [Nat.zero_mul]
      rfl
    · rw [Nat.zero_mul]
      rfl

theorem Clean.passes {r : State} {n : ℕ} (h : Clean r n)
    (hscored : r.config.scoredSduCount ≤ maxScoredSdus)
    (hpolicy : r.config.reconnectPolicy = .none ∧ n = 1 ∨
      r.config.reconnectPolicy = .once ∧ r.segment = 1 ∧ n = 2) : r.passes = true := by
  have hbound : r.config.scoredSduCount.toNat ≤ 20000 := UInt32.le_iff_toNat_le.1 hscored
  have hfailures : (r.config.mode.allStreams fun i => (r.counters i).sendFailures = 0) = true :=
    Mode.allStreams_iff.2 fun i hi => decide_eq_true (h.failures i hi)
  unfold State.passes
  rw [h.aborted, h.firstError, hfailures]
  rcases hpolicy with ⟨hnone, rfl⟩ | ⟨honce, hsegment, rfl⟩
  · have hall : (r.config.mode.allStreams fun i =>
        (r.counters i).submittedScoredSdus = r.config.scoredSduCount) = true := by
      refine Mode.allStreams_iff.2 fun i hi => decide_eq_true ?_
      rw [← UInt32.toNat_inj, h.scored i hi, Nat.one_mul]
    rw [hnone]
    dsimp only
    rw [hall]
    rfl
  · have htwice : (2 * r.config.scoredSduCount).toNat = 2 * r.config.scoredSduCount.toNat := by
      rw [UInt32.toNat_mul]
      exact Nat.mod_eq_of_lt (by change 2 * _ < 4294967296; omega)
    have hall : (r.config.mode.allStreams fun i =>
        (r.counters i).submittedScoredSdus = 2 * r.config.scoredSduCount) = true := by
      refine Mode.allStreams_iff.2 fun i hi => decide_eq_true ?_
      rw [← UInt32.toNat_inj, h.scored i hi, htwice]
    rw [honce, hsegment]
    dsimp only
    rw [hall]
    rfl

namespace Transmit

open Signal (Stage)

theorem countP_scored {l : List Sdu} {preamble scored : ℕ}
    (hstage : ∀ (k : ℕ) (d : Sdu), l[k]? = some d → d.stage = frameStage k preamble scored) :
    (l.countP fun d => d.stage = .scored) = min (l.length - preamble) scored := by
  induction l using List.reverseRecOn with
  | nil => simp
  | append_singleton l d ih =>
    have hlast : d.stage = frameStage l.length preamble scored := hstage l.length d (by simp)
    have hfront : ∀ (k : ℕ) (e : Sdu), l[k]? = some e → e.stage = frameStage k preamble scored := by
      intro k e he
      obtain ⟨hk, -⟩ := List.getElem?_eq_some_iff.1 he
      exact hstage k e ((List.getElem?_append_left hk).trans he)
    rw [List.countP_append, ih hfront, List.countP_singleton, hlast, List.length_append,
      List.length_singleton]
    unfold frameStage
    split_ifs <;> simp_all <;> omega

section Stage

variable {target : ℕ} {s₀ s : Tx} {h : History} {n : ℕ}

theorem Told.clean (ht : Told s₀ s h) (hk : Known s h) (ha : Accounted target s h)
    (hopen : Opened s₀.run n) (hw : s.worker = .returned 0) :
    Clean s.run (n + 1) ∧ s.run.currentState = .scoredComplete := by
  have hkept : Kept s h := hk.kept (by rw [hw]; rfl)
  have hcompleted : Completed s h := hk.completed ha hw
  have hfailed : s.worker.failed = false := by
    rw [hw]
    rfl
  have hentry : s.worker ≠ .entry := by
    rw [hw]
    nofun
  have hconfig : s.run.config = s₀.run.config := by rw [ht.frame]
  -- the SDUs of a whole segment have been sent
  have hlength (i : Fin 2) (hi : i.val < s.streams) :
      (h.sent i).length = s.run.config.segmentTotal :=
    (hkept.length i hi).trans (hkept.done (by rw [hw]; rfl) i hi)
  have hscored (i : Fin 2) (hi : i.val < s.streams) :
      ((h.sent i).countP fun d => d.stage = .scored) = s.run.config.scoredSduCount.toNat := by
    rw [countP_scored fun k d hd => (hk.traced.right i k d hd).stage, hlength i hi]
    change min (preambleFrames _ + _ + tailFrames _ - preambleFrames _) _ = _
    unfold Tx.scored
    omega
  have hcounts := ht.counts hfailed
  -- the callback of the bootstrap SDU is not one of them
  have hcalled (i : Fin 2) (hi : i.val < s.streams) :
      h.called i - bootstrap i = (h.sent i).length := by
    rw [hcompleted.called i hi, ht.accepted hfailed i, hw]
    exact Nat.add_sub_cancel ..
  -- the boundary was recorded, for the tail has been sent
  have hemitted : s.scoredCompleteEmitted = true := by
    by_contra hnot
    have hle := (hkept.before (Bool.eq_false_iff.2 hnot)).2.2
    have htotal := hkept.done (by rw [hw]; rfl) 0 s.streams_pos
    have htail := tailFrames_pos s.run.config.profile
    unfold Tx.perStreamTotal at htotal
    omega
  have hmode (i : Fin 2) (hi : i.val < s.streams) : i.val < s₀.run.config.mode.streamCount := by
    rw [← hconfig]
    exact hi
  refine ⟨⟨?_, ?_, ?_, fun i hi => ?_, fun i hi => ?_, fun i hi => ?_, fun i hi => ?_⟩,
    ht.emitted hentry hfailed hemitted⟩
  · rw [ht.frame]
    exact hopen.aborted
  · rw [ht.frame]
    exact hopen.firstError
  · rw [ht.frame]
    exact hopen.terminal
  · rw [(hcounts i hi).failures]
    exact hopen.failures i (hmode i hi)
  · rw [(hcounts i hi).scored, hscored i hi, hopen.scored i (hmode i hi), ← hconfig,
      Nat.succ_mul]
  · rw [(hcounts i hi).submitted, hlength i hi, hopen.submitted i (hmode i hi), ← hconfig,
      Nat.succ_mul]
  · rw [← UInt32.toNat_inj, (hcounts i hi).callbacks, (hcounts i hi).submitted, hcalled i hi,
      hopen.callbacks i (hmode i hi)]

/-- **A call of the stage that returns `0` completes a segment**: the run has sent, and heard back
of, exactly the SDUs of one segment more, and it may pass or go on as its policy says. -/
theorem stage_clean (hpos : 0 < target) (h₀ : s₀.Called) (hopen : Opened s₀.run n)
    (hs : ReachedFrom target s₀ s h) (hw : s.worker = .returned 0) :
    Clean s.run (n + 1) ∧
      (s.run.config.reconnectPolicy = .none → n = 0 →
        (s.run.closed.call (.terminal (some .pass))).2 = none) ∧
      (s.run.config.reconnectPolicy = .once → s.run.reconnectUsed = false →
        ∃ r, s.run.closed.call .nextSegment = (r, none) ∧ Opened r (n + 1)) ∧
      (s.run.config.reconnectPolicy = .once → s.run.segment = 1 → n = 1 →
        (s.run.closed.call (.terminal (some .pass))).2 = none) := by
  have hbase : ∀ j : Fin 2, j.val < s₀.streams →
      (s₀.run.counters j).sentCallbacks ≤ (s₀.run.counters j).submittedSdus :=
    fun j hj => UInt32.le_of_eq (hopen.callbacks j hj)
  have hreached : Reached target s h := hs.reached h₀
  have haccount : Accounted target s h := hreached.accounted hpos
  have htold : Told s₀ s h := hs.told hpos h₀ hbase
  obtain ⟨hclean, hstate⟩ := htold.clean (known hreached.reachable) haccount hopen hw
  have hclosed : s.run.closed = { s.run with currentState := .teardown } :=
    State.closed_eq haccount.active hstate
  have hscored : s.run.config.scoredSduCount ≤ maxScoredSdus := by
    rw [htold.frame]
    exact h₀.scored
  -- a PASS is accepted where the counters allow it
  have hpass (hpolicy : s.run.config.reconnectPolicy = .none ∧ n + 1 = 1 ∨
      s.run.config.reconnectPolicy = .once ∧ s.run.segment = 1 ∧ n + 1 = 2) :
      (s.run.closed.call (.terminal (some .pass))).2 = none := by
    rw [hclosed]
    exact State.pass_accepted haccount.active rfl hclean.terminal
      (hclean.passes hscored hpolicy)
  refine ⟨hclean, fun hnone hn => hpass (.inl ⟨hnone, by omega⟩), fun honce hused => ?_,
    fun honce hsegment hn => hpass (.inr ⟨honce, hsegment, by omega⟩)⟩
  refine ⟨s.run.closed.reconnected, ?_, ?_⟩
  · rw [hclosed]
    exact State.nextSegment_accepted haccount.active rfl hclean.aborted honce hused
  · rw [hclosed]
    exact ⟨⟨hclean.aborted, hclean.firstError, hclean.terminal, hclean.failures, hclean.scored,
      hclean.submitted, hclean.callbacks⟩, fun i hi => if_pos hi⟩

end Stage

/-- A whole call, and the run goes on to its second segment. -/
theorem stage_clean_late :
    Clean lateEnd.run 1 ∧ ∃ r, lateEnd.run.closed.call .nextSegment = (r, none) ∧ Opened r 1 := by
  obtain ⟨h, hs⟩ := lateEnd_reached
  have hopen : Opened lateEntry.run 0 := by
    refine ⟨⟨rfl, rfl, rfl, fun _ _ => rfl, fun _ _ => ?_, fun _ _ => ?_, fun _ _ => rfl⟩,
      fun _ _ => rfl⟩
    · rw [Nat.zero_mul]
      rfl
    · rw [Nat.zero_mul]
      rfl
  obtain ⟨hclean, -, hnext, -⟩ := stage_clean (by decide : 0 < 3) lateEntry_called hopen hs rfl
  exact ⟨hclean, hnext rfl rfl⟩

end Transmit

end Hil

end LeAudioReceiver
