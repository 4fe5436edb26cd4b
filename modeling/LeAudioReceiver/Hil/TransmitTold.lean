import LeAudioReceiver.Hil.TransmitComplete

/-!
# What the counters tell of the transmit stage

The counters of the run state beside the log of a call of the stage.

* `Counts` : the counters of a stream stand for what it sent;
* `Told` : the invariant of a call that started in a given state;
* `ReachedFrom.told` : **it holds throughout the call**.
-/

namespace LeAudioReceiver

namespace Hil

namespace Transmit

open Signal (Stage)

/-! ### Places -/

/-- The backend has taken the bootstrap SDU. -/
def Pc.booted : Pc → Bool
  | .entry | .encoders false | .anchorEncode | .anchorCheck | .anchorAccount | .anchorSend => false
  | _ => true

/-- The call has ended with an error. -/
def Pc.failed : Pc → Bool
  | .returned ret => ret ≠ 0
  | _ => false

/-- The steps between places that the counters do not see. -/
structure Pc.Stands (pc pc' : Pc) : Prop where
  entry : pc ≠ .entry
  booted : pc'.booted = pc.booted
  send : pc' ≠ .anchorSend
  read : pc' ≠ .readback
  failed : pc.failed = false

theorem Pc.Moves.stands {pc pc' : Pc} (hpc : pc.Moves pc') : pc.Stands pc' := by
  cases hpc <;> exact ⟨nofun, rfl, nofun, nofun, rfl⟩

theorem Pc.Checks.stands {pc pc' : Pc} (hpc : pc.Checks pc') : pc.Stands pc' := by
  cases hpc <;> exact ⟨nofun, rfl, nofun, nofun, rfl⟩

theorem Pc.Waits.stands {pc pc' : Pc} (hpc : pc.Waits pc') : pc.Stands pc' := by
  cases hpc <;> exact ⟨nofun, rfl, nofun, nofun, rfl⟩

theorem Pc.booting {pc : Pc} (hentry : pc ≠ .entry) (hfresh : pc.fresh = false) :
    pc = .anchorSend ∨ pc.booted = true := by
  cases pc with
  | entry => exact absurd rfl hentry
  | encoders again =>
    cases again with
    | false => cases hfresh
    | true => exact .inr rfl
  | anchorEncode | anchorCheck | anchorAccount => cases hfresh
  | anchorSend => exact .inl rfl
  | _ => exact .inr rfl

/-! ### What the counters tell -/

/-- The counters `c` of a stream that began with `c₀`, sent `sent` and had `called` callbacks that
count. -/
structure Counts (c₀ c : StreamCounter) (sent : List Sdu) (called : ℕ) : Prop where
  submitted : c.submittedSdus.toNat = c₀.submittedSdus.toNat + sent.length
  scored : c.submittedScoredSdus.toNat =
    c₀.submittedScoredSdus.toNat + sent.countP fun d => d.stage = .scored
  failures : c.sendFailures = c₀.sendFailures
  callbacks : c.sentCallbacks.toNat = c₀.sentCallbacks.toNat + called

/-- The callback of the bootstrap SDU does not count. -/
def bootstrap (i : Fin 2) : ℕ := if i = 0 then 1 else 0

/-- What is known of a call that started in `s₀`; the counters tell nothing behind an error. -/
structure Told (s₀ s : Tx) (h : History) : Prop where
  frame : s.run = { s₀.run with
    stopRequested := s.run.stopRequested, currentState := s.run.currentState
    counters := s.run.counters }
  due : s.worker ≠ .entry → s.worker.failed = false → s.readbackDue = true → h.called 0 ≠ 0
  read : s.worker = .readback → h.called 0 ≠ 0
  pending : s.worker = .anchorSend ∨ s.worker.booted = true → s.worker.failed = false →
    s.anchorPending = decide (h.called 0 = 0)
  accepted : s.worker.failed = false → ∀ i,
    h.accepted i = (h.sent i).length + if s.worker.booted = true then bootstrap i else 0
  emitted : s.worker ≠ .entry → s.worker.failed = false → s.scoredCompleteEmitted = true →
    s.run.currentState = .scoredComplete
  counts : s.worker.failed = false → ∀ i : Fin 2, i.val < s.streams →
    Counts (s₀.run.counters i) (s.run.counters i) (h.sent i) (h.called i - bootstrap i)

section Told

variable {target : ℕ} {s₀ s s' : Tx} {h h' : History}

theorem Told.streams (hs : Told s₀ s h) : s.streams = s₀.streams := by
  unfold Tx.streams
  rw [hs.frame]

theorem Told.stand (hs : Told s₀ s h) (hpc : s.worker.Stands s'.worker) (hrun : s'.run = s.run)
    (hpending : s'.anchorPending = s.anchorPending)
    (hdue : s'.readbackDue = true → s.readbackDue = true)
    (hemitted : s'.scoredCompleteEmitted = s.scoredCompleteEmitted)
    (hsent : ∀ i, h'.sent i = h.sent i) (haccepted : h'.accepted = h.accepted)
    (hcalled : h'.called = h.called) : Told s₀ s' h' := by
  have hstreams : s'.streams = s.streams := by
    unfold Tx.streams
    rw [hrun]
  refine ⟨?_, fun _ _ hd => ?_, fun hr => absurd hr hpc.read, fun hboot _ => ?_, fun _ i => ?_,
    fun _ _ he => ?_, fun _ i hi => ?_⟩
  · rw [hrun]
    exact hs.frame
  · rw [hcalled]
    exact hs.due hpc.entry hpc.failed (hdue hd)
  · rw [hpending, hcalled]
    refine hs.pending (.inr ?_) hpc.failed
    rw [← hpc.booted]
    exact hboot.resolve_left hpc.send
  · rw [haccepted, hsent, hpc.booted]
    exact hs.accepted hpc.failed i
  · rw [hrun]
    exact hs.emitted hpc.entry hpc.failed (hemitted ▸ he)
  · rw [hrun, hsent, hcalled]
    exact hs.counts hpc.failed i (hstreams ▸ hi)

theorem Told.ended (hs : Told s₀ s h) (hfailed : s'.worker.failed = true)
    (hrun : ∃ counters, s'.run = { s.run with counters := counters } ∨
      s'.run = { s.run with currentState := .scoredComplete, counters := counters }) :
    Told s₀ s' h' := by
  have hnot {p : Prop} (hf : s'.worker.failed = false) : p := by
    rw [hfailed] at hf
    cases hf
  refine ⟨?_, fun _ => hnot, fun hr => ?_, fun _ => hnot, hnot, fun _ => hnot, hnot⟩
  · obtain ⟨counters, heq | heq⟩ := hrun
    · rw [heq, hs.frame]
    · rw [heq, hs.frame]
  · rw [hr] at hfailed
    cases hfailed

/-- Nothing is with the backend before the bootstrap SDU. -/
theorem Told.uncalled (hs : Told s₀ s h) (hk : Known s h) (ha : Accounted target s h)
    (hw : s.worker = .anchorAccount) (i : Fin 2) : h.called i = 0 := by
  have hbalance := ha.balance (by rw [hw]; nofun) i
  have hlog : h.log = [] := (hk.learns (by rw [hw]; rfl)).log
  have haccepted := hs.accepted (by rw [hw]; rfl) i
  unfold History.sent at haccepted
  rw [hw, hlog] at haccepted
  rw [haccepted, ha.fresh (by rw [hw]; rfl) i, Tx.taking_of_ne (by rw [hw]; nofun)] at hbalance
  simpa [sdus, Pc.booted] using hbalance

/-! ### Counting -/

theorem toNat_succ {n : UInt32} (h : n ≠ uint32Max) : (n + 1).toNat = n.toNat + 1 := by
  have hmax : uint32Max.toNat = 4294967295 := rfl
  have hne : n.toNat ≠ 4294967295 := fun heq => h (UInt32.toNat_inj.1 (heq.trans hmax.symm))
  have hlt := n.toNat_lt
  rw [UInt32.toNat_add]
  exact Nat.mod_eq_of_lt (by change n.toNat + 1 < _; omega)

/-- The counter operation of an SDU counts it, and leaves the other stream alone. -/
theorem submit_counts {i : Fin 2} {counters : Fin 2 → StreamCounter}
    (hcall : s.run.call (s.submitOp i) = ({ s.run with counters := counters }, none))
    {c₀ : StreamCounter} {sent : List Sdu} {called : ℕ}
    (hc : Counts c₀ (s.run.counters i) sent called) {d : Sdu} (hstage : d.stage = s.stageOf i) :
    Counts c₀ (counters i) (sent ++ [d]) called ∧ ∀ j, j ≠ i → counters j = s.run.counters j := by
  obtain ⟨hsubmitted, hscored, hfailures, hcallbacks⟩ := hc
  unfold Tx.submitOp at hcall
  split_ifs at hcall with hs
  · change s.run.counterSubmitScored i = _ at hcall
    unfold State.counterSubmitScored at hcall
    obtain ⟨hfull, hrun⟩ := State.counterOp_ok hcall
    rw [Bool.or_eq_false_iff, decide_eq_false_iff_not, decide_eq_false_iff_not] at hfull
    obtain rfl : counters = _ := congrArg State.counters hrun
    refine ⟨?_, fun j hj => s.run.counted_of_ne hj _⟩
    rw [State.counted_self]
    refine ⟨?_, ?_, hfailures, hcallbacks⟩
    · rw [toNat_succ hfull.1, hsubmitted, List.length_append]
      rfl
    · rw [toNat_succ hfull.2, hscored, List.countP_append, List.countP_singleton,
        hstage, if_pos (decide_eq_true hs)]
      rfl
  · change s.run.counterSubmit i = _ at hcall
    unfold State.counterSubmit at hcall
    obtain ⟨hfull, hrun⟩ := State.counterOp_ok hcall
    rw [decide_eq_false_iff_not] at hfull
    obtain rfl : counters = _ := congrArg State.counters hrun
    refine ⟨?_, fun j hj => s.run.counted_of_ne hj _⟩
    rw [State.counted_self]
    refine ⟨?_, ?_, hfailures, hcallbacks⟩
    · rw [toNat_succ hfull, hsubmitted, List.length_append]
      rfl
    · rw [hscored, List.countP_append, List.countP_singleton, hstage,
        if_neg (by simpa using hs)]
      rfl

theorem Told.sends {i : Fin 2} {pin now : UInt32} {counters : Fin 2 → StreamCounter}
    (hs : Told s₀ s h) (hk : Kept s h) (hw : s.worker = .send i pin now)
    (hcall : s.run.call (s.submitOp i) = ({ s.run with counters := counters }, none))
    (hrun : s'.run = { s.run with counters := counters })
    (hbooted : s'.worker.booted = true) (hread : s'.worker ≠ .readback)
    (hpending : s'.anchorPending = s.anchorPending) (hdue : s'.readbackDue = s.readbackDue)
    (hemitted : s'.scoredCompleteEmitted = s.scoredCompleteEmitted) :
    Told s₀ s' (s.noteSent i pin now h) := by
  have hfailed : s.worker.failed = false := by rw [hw]; rfl
  have hboot : s.worker.booted = true := by rw [hw]; rfl
  have hentry : s.worker ≠ .entry := by rw [hw]; nofun
  have hcalled : (s.noteSent i pin now h).called = h.called := s.noteSent_called h
  have hstreams : s'.streams = s.streams := by
    unfold Tx.streams
    rw [hrun]
  have hi : i.val < s.streams := hk.lt_streams hw
  -- the operation on the counters goes by the stage of the SDU
  have hstage : (s.sdu i pin now h).stage = s.stageOf i := by
    have hturn : s.worker.turn = i := by
      unfold Pc.turn
      rw [hw]
      match i with
      | 0 => rfl
      | 1 => rfl
    have hstage := (hk.stage (by rw [hw]; rfl)).1
    rwa [hturn] at hstage
  refine ⟨?_, fun _ _ hd => ?_, fun hr => absurd hr hread, fun _ _ => ?_, fun _ j => ?_,
    fun _ _ he => ?_, fun _ j hj => ?_⟩
  · rw [hrun, hs.frame]
  · rw [hcalled]
    exact hs.due hentry hfailed (hdue ▸ hd)
  · rw [hpending, hcalled]
    exact hs.pending (.inr hboot) hfailed
  · -- one SDU more is accepted, and one more is in the log
    have haccepted := hs.accepted hfailed j
    rw [hboot] at haccepted
    rw [hbooted, s.noteSent_accepted h]
    by_cases hj : j = i
    · subst hj
      rw [Function.update_self, noteSent_self, List.length_append, haccepted]
      exact Nat.add_right_comm _ _ _
    · rw [Function.update_of_ne hj, noteSent_of_ne s i pin now h hj]
      exact haccepted
  · rw [hrun]
    exact hs.emitted hentry hfailed (hemitted ▸ he)
  · rw [hrun, hcalled]
    rw [hstreams] at hj
    by_cases hji : j = i
    · subst hji
      rw [noteSent_self]
      exact (submit_counts hcall (hs.counts hfailed j hj) hstage).1
    · rw [noteSent_of_ne s i pin now h hji]
      have hother := (submit_counts hcall (hs.counts hfailed i hi) hstage).2 j hji
      change Counts _ (counters j) _ _
      rw [hother]
      exact hs.counts hfailed j hj

/-- A step of the worker. -/
theorem Works.told {f : History → History} (hworks : Works target s s' f) (hs : Told s₀ s h)
    (hk : Known s h) (ha : Accounted target s h) : Told s₀ s' (f h) := by
  cases hworks with
  | enter hw =>
    have hsent (i : Fin 2) : h.sent i = [] := by
      unfold History.sent
      rw [hk.entry hw]
      rfl
    refine ⟨hs.frame, nofun, nofun, nofun, fun _ i => ?_, nofun, fun _ i hi => ?_⟩
    · change h.accepted i = (h.sent i).length + 0
      rw [hsent]
      exact (ha.idle hw i).1
    · exact hs.counts (by rw [hw]; rfl) i hi
  | @encoders again hw =>
    refine hs.stand ?_ rfl rfl id rfl (fun _ => rfl) rfl rfl
    rw [hw]
    cases again <;> exact ⟨nofun, rfl, nofun, nofun, rfl⟩
  | ends hends =>
    obtain ⟨ret, hret, hw'⟩ := hends.worker
    exact hs.ended (by rw [hw']; exact decide_eq_true hret) hends.run
  | endsBehind hends =>
    obtain ⟨ret, hret, hw'⟩ := hends.worker
    exact hs.ended (by rw [hw']; exact decide_eq_true hret) hends.run
  | moves hpc => exact hs.stand hpc.stands rfl rfl id rfl (fun _ => rfl) rfl rfl
  | checked hpc => exact hs.stand hpc.stands rfl rfl id rfl (fun _ => rfl) rfl rfl
  | woken hpc => exact hs.stand hpc.stands rfl rfl id rfl (fun _ => rfl) rfl rfl
  | expired hpc => exact hs.stand hpc.stands rfl rfl id rfl (fun _ => rfl) rfl rfl
  | account hw =>
    have hzero : h.called 0 = 0 := hs.uncalled hk ha hw 0
    have hentry : s.worker ≠ .entry := by rw [hw]; nofun
    have hfailed : s.worker.failed = false := by rw [hw]; rfl
    refine ⟨hs.frame, fun _ _ hd => hs.due hentry hfailed hd, nofun, fun _ _ => ?_, fun _ i => ?_,
      fun _ _ => hs.emitted hentry hfailed, fun _ => hs.counts hfailed⟩
    · exact (decide_eq_true hzero).symm
    · have haccepted := hs.accepted hfailed i
      rwa [hw] at haccepted
  | anchorAccepted hw =>
    have hentry : s.worker ≠ .entry := by rw [hw]; nofun
    have hfailed : s.worker.failed = false := by rw [hw]; rfl
    refine ⟨hs.frame, fun _ _ hd => hs.due hentry hfailed hd, nofun,
      fun _ _ => hs.pending (.inl hw) hfailed, fun _ i => ?_,
      fun _ _ => hs.emitted hentry hfailed, fun _ => hs.counts hfailed⟩
    have haccepted := hs.accepted hfailed
    rw [hw] at haccepted
    change Function.update h.accepted 0 (h.accepted 0 + 1) i = (h.sent i).length + bootstrap i
    match i with
    | 0 =>
      rw [Function.update_self, haccepted 0]
      rfl
    | 1 =>
      rw [Function.update_of_ne (by decide), haccepted 1]
      rfl
  | @anchorRefused ret counters hw hret =>
    exact hs.ended (decide_eq_true hret) ⟨counters, .inl rfl⟩
  | anchorSequence hw =>
    exact hs.stand (by rw [hw]; exact ⟨nofun, rfl, nofun, nofun, rfl⟩) rfl rfl id rfl
      (fun _ => rfl) rfl rfl
  | due hw hdue =>
    have hentry : s.worker ≠ .entry := by rw [hw]; nofun
    have hfailed : s.worker.failed = false := by rw [hw]; rfl
    refine ⟨hs.frame, nofun, fun _ => hs.due hentry hfailed hdue,
      fun _ _ => hs.pending (.inr (by rw [hw]; rfl)) hfailed, fun _ i => ?_,
      fun _ _ => hs.emitted hentry hfailed, fun _ => hs.counts hfailed⟩
    have haccepted := hs.accepted hfailed i
    rwa [hw] at haccepted
  | notDue hw =>
    exact hs.stand (by rw [hw]; exact ⟨nofun, rfl, nofun, nofun, rfl⟩) rfl rfl id rfl
      (fun _ => rfl) rfl rfl
  | anchored hw =>
    have hentry : s.worker ≠ .entry := by rw [hw]; nofun
    have hfailed : s.worker.failed = false := by rw [hw]; rfl
    -- the timestamp is read behind the callback of the bootstrap SDU
    refine ⟨hs.frame, fun _ _ hd => hs.due hentry hfailed hd, nofun, fun _ _ => ?_, fun _ i => ?_,
      fun _ _ => hs.emitted hentry hfailed, fun _ => hs.counts hfailed⟩
    · exact (decide_eq_false (hs.read hw)).symm
    · have haccepted := hs.accepted hfailed i
      rwa [hw] at haccepted
  | finished hw =>
    exact hs.stand (by rw [hw]; exact ⟨nofun, rfl, nofun, nofun, rfl⟩) rfl rfl id rfl
      (fun _ => rfl) rfl rfl
  | noSpace hw =>
    exact hs.stand (by rw [hw]; exact ⟨nofun, rfl, nofun, nofun, rfl⟩) rfl rfl id rfl
      (fun _ => rfl) rfl rfl
  | staged hw =>
    exact hs.stand (by rw [hw]; exact ⟨nofun, rfl, nofun, nofun, rfl⟩) rfl rfl id rfl
      (fun _ => rfl) rfl rfl
  | boundary hw =>
    have hentry : s.worker ≠ .entry := by rw [hw]; nofun
    have hfailed : s.worker.failed = false := by rw [hw]; rfl
    have hboot : s.worker.booted = true := by rw [hw]; rfl
    have hsent (i : Fin 2) : (h.enter .scoredComplete).sent i = h.sent i :=
      History.sent_scoredComplete h i
    refine ⟨?_, fun _ _ hd => hs.due hentry hfailed hd, nofun,
      fun _ _ => hs.pending (.inr hboot) hfailed, fun _ i => ?_, fun _ _ _ => rfl,
      fun _ i hi => ?_⟩
    · exact congrArg (fun r : State => { r with currentState := .scoredComplete }) hs.frame
    · have haccepted := hs.accepted hfailed i
      rw [hboot] at haccepted
      rw [hsent]
      exact haccepted
    · rw [hsent]
      exact hs.counts hfailed i hi
  | caught hw =>
    exact hs.stand (by rw [hw]; exact ⟨nofun, rfl, nofun, nofun, rfl⟩) rfl rfl id rfl
      (fun i => History.sent_read h _ _ i) rfl rfl
  | inTime hw _ hpc =>
    refine hs.stand ?_ rfl rfl id rfl (fun i => History.sent_read h _ _ i) rfl rfl
    rw [hw]
    rcases hpc with rfl | rfl <;> exact ⟨nofun, rfl, nofun, nofun, rfl⟩
  | caughtAtGate hw =>
    exact hs.stand (by rw [hw]; exact ⟨nofun, rfl, nofun, nofun, rfl⟩) rfl rfl id rfl
      (fun i => History.sent_read h _ _ i) rfl rfl
  | passed hw =>
    exact hs.stand (by rw [hw]; exact ⟨nofun, rfl, nofun, nofun, rfl⟩) rfl rfl id rfl
      (fun i => History.sent_read h _ _ i) rfl rfl
  | advanced hw =>
    refine hs.stand ?_ rfl rfl id rfl (fun _ => rfl) rfl rfl
    rcases hw with ⟨d, hw⟩ | hw
    · rw [hw]
      exact ⟨nofun, rfl, nofun, nofun, rfl⟩
    · rw [hw]
      exact ⟨nofun, rfl, nofun, nofun, rfl⟩
  | sent hw _ _ hcall =>
    exact hs.sends (hk.batch (by rw [hw]; rfl)) hw hcall rfl rfl nofun rfl rfl rfl
  | sentLast hw _ _ hcall =>
    exact hs.sends (hk.batch (by rw [hw]; rfl)) hw hcall rfl rfl nofun rfl rfl rfl
  | overflow hw _ hret => exact hs.ended (decide_eq_true hret) ⟨s.run.counters, .inl rfl⟩
  | drained hw =>
    exact hs.stand (by rw [hw]; exact ⟨nofun, rfl, nofun, nofun, rfl⟩) rfl rfl id rfl
      (fun _ => rfl) rfl rfl
  | undrained hw =>
    exact hs.stand (by rw [hw]; exact ⟨nofun, rfl, nofun, nofun, rfl⟩) rfl rfl id rfl
      (fun _ => rfl) rfl rfl
  | synced _ hpc => exact hs.stand hpc.stands rfl rfl id rfl (fun _ => rfl) rfl rfl

/-! ### Callbacks -/

theorem Tx.sent_bootstrap (hstale : s.stale = false) (hpending : s.anchorPending = true)
    (hout : (s.stream 0).outstanding ≠ 0) :
    s.sent 0 = { s.modify 0 fun t => { t.drop with lastActivity := s.uptime } with
      anchorPending := false, readbackDue := true, wake := true } := by
  unfold Tx.sent
  simp only [hstale, hpending, if_neg hout, decide_true, Bool.not_false, Bool.and_self,
    Bool.not_true, Bool.and_false, Bool.or_true, Bool.false_eq_true, if_false]

theorem Tx.sent_counted {i : Fin 2} (hstale : s.stale = false) (hactive : s.run.active = true)
    (hother : ¬(i = 0 ∧ s.anchorPending = true)) (hout : (s.stream i).outstanding ≠ 0) :
    s.sent i = { s.modify i fun t => { t.drop with lastActivity := s.uptime } with
      run := (s.run.call (.counterSentCallback i)).1, wake := true } := by
  have hanchor : (!s.stale && decide (i = 0) && s.anchorPending) = false := by
    rw [hstale, Bool.not_false, Bool.true_and, Bool.and_eq_false_iff, decide_eq_false_iff_not]
    by_cases hzero : i = 0
    · exact .inr (Bool.eq_false_iff.2 fun hpending => hother ⟨hzero, hpending⟩)
    · exact .inl hzero
  unfold Tx.sent
  dsimp only
  rw [hanchor, hstale, hactive]
  simp only [Bool.not_false, Bool.and_self, Bool.and_true, Bool.or_false, if_true,
    Bool.false_eq_true, if_false, if_neg hout]
  rfl

theorem Accounted.fresh_of_due (ha : Accounted target s h) {i : Fin 2}
    (hout : (s.stream i).outstanding ≠ 0) : s.worker.fresh = false :=
  Bool.eq_false_iff.2 fun hfresh => hout (ha.fresh hfresh i)

theorem Accounted.not_stale (ha : Accounted target s h) (hbegun : s.worker ≠ .entry) :
    s.stale = false := by
  have hstate : s.run.currentState ≠ .teardown := by
    rcases ha.state with hstate | hstate <;>
    · rw [hstate]
      nofun
  unfold Tx.stale
  rw [ha.active, ha.begun hbegun, decide_eq_false hstate]
  rfl

/-- The callback of the bootstrap SDU does not count. -/
theorem Told.bootstrapped (hs : Told s₀ s h) (ha : Accounted target s h)
    (hpending : s.anchorPending = true) (hcall : h.called 0 < h.accepted 0 + s.taking 0) :
    Told s₀ (s.sent 0) (h.call 0) := by
  obtain ⟨hbegun, hout⟩ := ha.due hcall
  have hboot := Pc.booting hbegun (ha.fresh_of_due hout)
  rw [Tx.sent_bootstrap (ha.not_stale hbegun) hpending hout]
  have hcalled (j : Fin 2) : (h.call 0).called j = if j = 0 then h.called 0 + 1 else h.called j :=
    Function.update_apply ..
  have hne : (h.call 0).called 0 ≠ 0 := by
    rw [hcalled, if_pos rfl]
    exact Nat.succ_ne_zero _
  refine ⟨hs.frame, fun _ _ _ => hne, fun _ => hne, fun _ _ => (decide_eq_false hne).symm,
    fun hf => hs.accepted hf, fun _ hf => hs.emitted hbegun hf, fun hf i hi => ?_⟩
  have hcounts := hs.counts hf i hi
  match i with
  | 0 =>
    have hzero : h.called 0 = 0 := by
      have heq := hs.pending hboot hf
      rw [hpending] at heq
      exact of_decide_eq_true heq.symm
    rw [hzero] at hcounts
    rw [hcalled, if_pos rfl, hzero]
    exact hcounts
  | 1 =>
    rw [hcalled, if_neg (by decide)]
    exact hcounts

/-- A callback that counts belongs to an SDU that was counted. -/
theorem Told.called_lt {i : Fin 2} (hs : Told s₀ s h) (ha : Accounted target s h)
    (hother : ¬(i = 0 ∧ s.anchorPending = true)) (hf : s.worker.failed = false)
    (hcall : h.called i < h.accepted i + s.taking i) :
    h.called i - bootstrap i < (h.sent i).length ∧ bootstrap i ≤ h.called i := by
  obtain ⟨hbegun, hout⟩ := ha.due hcall
  have hboot := Pc.booting hbegun (ha.fresh_of_due hout)
  have hle : bootstrap i ≤ h.called i := by
    unfold bootstrap
    split_ifs with hzero
    · subst hzero
      have heq := hs.pending hboot hf
      have hnot : s.anchorPending = false := Bool.eq_false_iff.2 fun hp => hother ⟨rfl, hp⟩
      rw [hnot] at heq
      exact Nat.one_le_iff_ne_zero.2 (of_decide_eq_false heq.symm)
    · exact Nat.zero_le _
  refine ⟨?_, hle⟩
  have haccepted := hs.accepted hf i
  rcases hboot with hw | hboot
  · rw [hw] at haccepted
    have htaking : s.taking i = bootstrap i := by
      unfold Tx.taking bootstrap
      rw [hw]
      simp
    change h.accepted i = (h.sent i).length + 0 at haccepted
    omega
  · rw [hboot, if_pos rfl] at haccepted
    have htaking : s.taking i = 0 := by
      refine Tx.taking_of_ne (fun hw => ?_) i
      rw [hw] at hboot
      cases hboot
    omega

theorem Told.counted {i : Fin 2} (hs : Told s₀ s h) (ha : Accounted target s h)
    (hbase : ∀ j : Fin 2, j.val < s₀.streams →
      (s₀.run.counters j).sentCallbacks ≤ (s₀.run.counters j).submittedSdus)
    (hother : ¬(i = 0 ∧ s.anchorPending = true))
    (hcall : h.called i < h.accepted i + s.taking i) : Told s₀ (s.sent i) (h.call i) := by
  obtain ⟨hbegun, hout⟩ := ha.due hcall
  -- the callback moves counters of the run and nothing else
  obtain ⟨counters, hcounters⟩ := @State.call_counter s.run (.counterSentCallback i) rfl
  rw [Tx.sent_counted (ha.not_stale hbegun) ha.active hother hout, hcounters]
  have hcalled (j : Fin 2) :
      (h.call i).called j = if j = i then h.called i + 1 else h.called j :=
    Function.update_apply ..
  have hmono (hne : h.called 0 ≠ 0) : (h.call i).called 0 ≠ 0 := by
    rw [hcalled]
    split_ifs
    · exact Nat.succ_ne_zero _
    · exact hne
  refine ⟨?_, fun _ hf hd => hmono (hs.due hbegun hf hd), fun hr => hmono (hs.read hr),
    fun hboot hf => ?_, fun hf => hs.accepted hf, fun _ hf => hs.emitted hbegun hf,
    fun hf j hj => ?_⟩
  · exact congrArg (fun r : State => { r with counters := counters }) hs.frame
  · have heq := hs.pending hboot hf
    refine heq.trans (decide_eq_decide.2 ?_)
    rw [hcalled]
    split_ifs with hzero
    · subst hzero
      have hle := (hs.called_lt ha hother hf hcall).2
      change 1 ≤ h.called 0 at hle
      exact iff_of_false (by omega) id
    · rfl
  · have hcounts := hs.counts hf j hj
    have hprepared : (s.run.call (.counterSentCallback i)).1.counters = counters := by
      rw [hcounters]
    rw [hcalled]
    split_ifs with hji
    · subst hji
      obtain ⟨hlt, hle⟩ := hs.called_lt ha hother hf hcall
      -- the counter is below its maximum, for it is below the one of the submissions
      have hroom : (s.run.counters j).sentCallbacks ≠ uint32Max := by
        intro hmax
        have hcallbacks := hcounts.callbacks
        have hsubmitted := hcounts.submitted
        have hbelow := (s.run.counters j).submittedSdus.toNat_lt
        have hfirst := UInt32.le_iff_toNat_le.1 (hbase j (hs.streams ▸ hj))
        rw [hmax, show uint32Max.toNat = 4294967295 from rfl] at hcallbacks
        omega
      have hop : s.run.counterSentCallback j = (s.run.counted j { s.run.counters j with
          sentCallbacks := (s.run.counters j).sentCallbacks + 1 }, none) := by
        unfold State.counterSentCallback
        rw [State.counterOp_eq ha.active hj (decide_eq_false hroom)]
      rw [show s.run.call (.counterSentCallback j) = _ from hop] at hprepared
      change Counts _ (counters j) _ _
      rw [← hprepared, State.counted_self]
      obtain ⟨hsubmitted, hscored, hfailures, hcallbacks⟩ := hcounts
      refine ⟨hsubmitted, hscored, hfailures, ?_⟩
      rw [toNat_succ hroom, hcallbacks]
      omega
    · -- the other stream keeps its counters
      have hsame : counters j = s.run.counters j := by
        rw [← hprepared]
        rcases s.run.counterOp_cases i (fun c => c.sentCallbacks = uint32Max)
          (fun c => { c with sentCallbacks := c.sentCallbacks + 1 }) with
          ⟨e, he⟩ | ⟨k, hik, -, -, -, hk⟩
        · change (s.run.counterOp i _ _).1.counters j = _
          rw [he]
        · change (s.run.counterOp i _ _).1.counters j = _
          rw [hk]
          exact s.run.counted_of_ne (fun hjk => hji (hjk.trans (Fin.ext hik.symm))) _
      change Counts _ (counters j) _ _
      rw [hsame]
      exact hcounts

theorem Told.aside (hs : Told s₀ s h) (hworker : s'.worker = s.worker)
    (hrun : s'.run = { s.run with stopRequested := s'.run.stopRequested })
    (hpending : s'.anchorPending = s.anchorPending) (hdue : s'.readbackDue = s.readbackDue)
    (hemitted : s'.scoredCompleteEmitted = s.scoredCompleteEmitted) : Told s₀ s' h := by
  have hstreams : s'.streams = s.streams := by
    unfold Tx.streams
    rw [hrun]
  refine ⟨?_, ?_, ?_, ?_, ?_, ?_, ?_⟩
  · rw [hrun]
    exact congrArg (fun r : State => { r with stopRequested := s'.run.stopRequested }) hs.frame
  · rw [hworker, hdue]
    exact hs.due
  · rw [hworker]
    exact hs.read
  · rw [hworker, hpending]
    exact hs.pending
  · rw [hworker]
    exact hs.accepted
  · rw [hworker, hemitted, hrun]
    exact hs.emitted
  · rw [hworker, hstreams, hrun]
    exact hs.counts

theorem Told.emitStatus (hs : Told s₀ s h) (e : Emission) : Told s₀ (s.emitStatus e) h := by
  rcases s.emitStatus_cases e with heq | heq
  · rw [heq]
    exact hs
  · rw [heq]
    exact hs.aside rfl rfl rfl rfl rfl

/-- Every step keeps the invariant. -/
theorem Told.step {a : Tx.Action} (hs : Told s₀ s h) (hk : Known s h) (ha : Accounted target s h)
    (hbase : ∀ j : Fin 2, j.val < s₀.streams →
      (s₀.run.counters j).sentCallbacks ≤ (s₀.run.counters j).submittedSdus)
    (hanswer : Tx.Answers (s, h) a) (hnext : (machine target).next s a = some s') :
    Told s₀ s' (s.note a s' h) := by
  cases a with
  | work a =>
    obtain ⟨f, hworks, hnote⟩ := works (show s.work target a = some s' from hnext)
    change Told s₀ s' (s.noteWork a s' h)
    rw [hnote]
    exact hworks.told hs hk ha
  | sent i =>
    change (if _ then none else some (s.sent i)) = some s' at hnext
    split_ifs at hnext
    obtain rfl := Option.some.inj hnext
    by_cases hanchor : i = 0 ∧ s.anchorPending = true
    · obtain ⟨rfl, hpending⟩ := hanchor
      exact hs.bootstrapped ha hpending hanswer
    · exact hs.counted ha hbase hanchor hanswer
  | status e =>
    change (if _ then none else some (s.emitStatus e)) = some s' at hnext
    split_ifs at hnext
    exact Option.some.inj hnext ▸ hs.emitStatus e
  | stop e =>
    change (if _ then none else some (s.stop e)) = some s' at hnext
    split_ifs at hnext
    obtain rfl := Option.some.inj hnext
    have hstopped : Told s₀
        ({ s with run := { s.run with stopRequested := true }, wake := true } : Tx) h :=
      hs.aside rfl rfl rfl rfl rfl
    rw [Tx.stop_eq ha.active]
    exact hstopped.emitStatus e
  | tick ms =>
    obtain rfl := Option.some.inj hnext
    exact hs.aside rfl rfl rfl rfl rfl

end Told

/-! ### Throughout a call -/

theorem Told.init {s₀ : Tx} (h₀ : s₀.Called) : Told s₀ s₀ .empty := by
  refine ⟨rfl, fun hw => absurd h₀.worker hw, fun hr => ?_, fun hboot => ?_, fun _ i => ?_,
    fun hw => absurd h₀.worker hw, fun _ i _ => ⟨rfl, rfl, rfl, ?_⟩⟩
  · rw [h₀.worker] at hr
    cases hr
  · rw [h₀.worker] at hboot
    rcases hboot with hw | hb
    · cases hw
    · cases hb
  · rw [h₀.worker]
    rfl
  · change _ = _ + (0 - bootstrap i)
    rw [Nat.zero_sub, Nat.add_zero]

/-- **The counters stand for the log throughout a call.** -/
theorem ReachedFrom.told {target : ℕ} (hpos : 0 < target) {s₀ s : Tx} {h : History}
    (h₀ : s₀.Called)
    (hbase : ∀ j : Fin 2, j.val < s₀.streams →
      (s₀.run.counters j).sentCallbacks ≤ (s₀.run.counters j).submittedSdus)
    (hs : ReachedFrom target s₀ s h) : Told s₀ s h := by
  have hall : ∀ p : Tx × History,
      ((observed target).startingAt (s₀, .empty)).ReachableBy Tx.Answers p → Told s₀ p.1 p.2 := by
    intro p hp
    induction hp with
    | init hp =>
      obtain rfl : _ = (s₀, History.empty) := hp
      exact .init h₀
    | @step p p' a hp hanswer hnext ih =>
      obtain ⟨s, h⟩ := p
      have hreached : Reached target s h := ReachedFrom.reached h₀ hp
      have hwatched : (observed target).next (s, h) a = some p' := hnext
      obtain ⟨hstep, hnote⟩ := Machine.watch_next hwatched
      rw [hnote]
      exact ih.step (known hreached.reachable) (hreached.accounted hpos) hbase hanswer hstep
  exact hall (s, h) hs

end Transmit

end Hil

end LeAudioReceiver
