import LeAudioReceiver.Handshake.System

/-!
# The health of the remote core

A remote core without a heartbeat for `FLPR_HEARTBEAT_MISS_MAX` intervals is to be marked
unhealthy.  Two contexts run the check, the receive callback and the heartbeat work, each with a
clock sample of its own that it takes before the lock.

* `marked_cases` : the two places at which a peer is marked;
* `marked_late` : a peer is marked only without a heartbeat in that time, as long as the heartbeat
  work finds no heartbeat behind its own sample and none is recorded late;
* `marked_by_old_sample` : otherwise a heartbeat of the same millisecond does not prevent it.
-/

namespace LeAudioReceiver

namespace Handshake

/-- `FLPR_HEARTBEAT_MISS_MAX * FLPR_HEARTBEAT_INTERVAL_MS`. -/
def staleMs : ℕ := 5000

/-- The clock sample of the receive callback. -/
def RxPc.sampled : RxPc → Option ℕ
  | .entered _ _ nowMs => some nowMs
  | .validated _ nowMs => some nowMs
  | _ => none

/-- The clock sample of the heartbeat work. -/
def WorkPc.sampled : WorkPc → Option ℕ
  | .sending _ nowMs => some nowMs
  | .sent _ nowMs => some nowMs
  | _ => none

/-- The 32-bit difference of two times in order is at most their difference. -/
theorem lt_of_elapsed {last now : ℕ} (h : last ≤ now)
    (hlate : UInt32.ofNat now - UInt32.ofNat last > heartbeatMissMax * heartbeatIntervalMs) :
    last + staleMs < now := by
  rw [← UInt32.ofNat_sub h, gt_iff_lt, UInt32.lt_iff_toNat_lt, UInt32.toNat_ofNat'] at hlate
  have hlimit : (heartbeatMissMax * heartbeatIntervalMs).toNat = 5000 := by decide
  rw [hlimit] at hlate
  have hle := Nat.mod_le (now - last) (2 ^ 32)
  unfold staleMs
  omega

namespace Sys

/-! ### When a peer is marked -/

/-- The times at which a heartbeat in order or a duplicate was recorded, the last one first. -/
abbrev Beats := List ℕ

/-- What a step adds. -/
def noteBeat (s : Sys) (a : Action) (_ : Sys) (beats : Beats) : Beats :=
  match a with
  | .rxHandle =>
    match s.rx with
    | .validated m _ =>
      if m.type = msgHeartbeat ∧ Accepts s.peer m.seq then s.clock :: beats else beats
    | _ => beats
  | _ => beats

/-- The system with the times of its heartbeats. -/
def timed : Machine (Sys × Beats) Action := machine.watch [] noteBeat

/-- A heartbeat is recorded in the millisecond of its clock sample.  When the heartbeat work takes
the lock again, no heartbeat was recorded behind its sample, and if the peer was healthy before, no
unbound has cleared it since. -/
def Punctual (p : Sys × Beats) (a : Action) : Prop :=
  match a with
  | .rxHandle =>
    match p.1.rx with
    | .validated m nowMs => m.type = msgHeartbeat → Accepts p.1.peer m.seq → nowMs = p.1.clock
    | _ => True
  | .workCheck =>
    match p.1.work with
    | .sent wasHealthy nowMs =>
      (∀ t ∈ p.2, t ≤ nowMs) ∧
        (wasHealthy = true → p.1.peer.healthy = true ∨ p.1.peer.rxLastMs ≠ 0)
    | _ => True
  | _ => True

instance (p : Sys × Beats) (a : Action) : Decidable (Punctual p a) := by
  unfold Punctual
  repeat' split
  all_goals infer_instance

/-- The peer's time of the last heartbeat is the low word of the newest time. -/
def Newest (p : Peer) (beats : Beats) : Prop :=
  p.rxLastMs ≠ 0 → ∃ t ∈ beats, p.rxLastMs = UInt32.ofNat t ∧ ∀ t' ∈ beats, t' ≤ t

/-- No heartbeat for the time after which a peer is stale. -/
def Silent (clock : ℕ) (beats : Beats) : Prop := ∀ t ∈ beats, t + staleMs < clock

/-- What holds between two steps. -/
structure BeatInv (s : Sys) (beats : Beats) : Prop where
  newest : Newest s.peer beats
  past : ∀ t ∈ beats, t ≤ s.clock
  rxSampled : ∀ n, s.rx.sampled = some n → (∀ t ∈ beats, t ≤ n) ∧ n ≤ s.clock
  workSampled : ∀ n, s.work.sampled = some n → n ≤ s.clock
  /-- A peer that a check found stale has stayed silent. -/
  silent : s.peer.healthy = false → s.peer.rxLastMs ≠ 0 → Silent s.clock beats

section Beats

variable {s s' : Sys} {a : Action} {beats : Beats} {p p' : Peer} {clock nowMs : ℕ}

theorem Newest.of_eq (h : Newest p beats) (hlast : p'.rxLastMs = p.rxLastMs) :
    Newest p' beats := by
  rw [Newest, hlast]
  exact h

/-- A check with a sample behind every heartbeat finds a peer stale only if it was silent. -/
theorem silent_of_check (hnewest : Newest p beats) (hnow : ∀ t ∈ beats, t ≤ nowMs)
    (hclock : nowMs ≤ clock) (h₀ : p.rxLastMs ≠ 0)
    (hstale : (peerCheckHealth p (UInt32.ofNat nowMs)).1.healthy = false) :
    Silent clock beats := by
  obtain ⟨t, ht, hlast, hmax⟩ := hnewest h₀
  have hover : Overdue p (UInt32.ofNat nowMs) := by
    by_contra hnot
    rw [peerCheckHealth_of_not_overdue hnot h₀] at hstale
    exact Bool.noConfusion hstale
  have hlate := lt_of_elapsed (hnow t ht) (hlast ▸ hover.2)
  intro t' ht'
  have := hmax t' ht'
  omega

theorem BeatInv.keep (h : s.BeatInv beats) (hlast : s'.peer.rxLastMs = s.peer.rxLastMs)
    (hhealthy : s'.peer.healthy = s.peer.healthy) (hclock : s.clock ≤ s'.clock)
    (hrx : ∀ n, s'.rx.sampled = some n → s.rx.sampled = some n)
    (hwork : ∀ n, s'.work.sampled = some n → s.work.sampled = some n) : s'.BeatInv beats where
  newest := h.newest.of_eq hlast
  past t ht := Nat.le_trans (h.past t ht) hclock
  rxSampled n hn :=
    ⟨(h.rxSampled n (hrx n hn)).1, Nat.le_trans (h.rxSampled n (hrx n hn)).2 hclock⟩
  workSampled n hn := Nat.le_trans (h.workSampled n (hwork n hn)) hclock
  silent hun h₀ t ht := Nat.lt_of_lt_of_le (h.silent (hhealthy ▸ hun) (hlast ▸ h₀) t ht) hclock

theorem BeatInv.clear (h : s.BeatInv beats) (hlast : s'.peer.rxLastMs = 0)
    (hclock : s'.clock = s.clock) (hrx : ∀ n, s'.rx.sampled = some n → s.rx.sampled = some n)
    (hwork : s'.work = s.work) : s'.BeatInv beats where
  newest h₀ := absurd hlast h₀
  past t ht := hclock ▸ h.past t ht
  rxSampled n hn := hclock ▸ h.rxSampled n (hrx n hn)
  workSampled n hn := hclock ▸ h.workSampled n (hwork ▸ hn)
  silent _ h₀ := absurd hlast h₀

theorem BeatInv.heartbeat (h : s.BeatInv beats) {m : Msg} (hrx : s.rx = .validated m nowMs)
    (hm : m.type = msgHeartbeat) (hok : Punctual (s, beats) .rxHandle) :
    (s.handleHeartbeat m.seq nowMs).BeatInv (noteBeat s .rxHandle (s.handle m nowMs) beats) := by
  have hsampled := h.rxSampled nowMs (by rw [hrx, RxPc.sampled])
  have hidle : ∀ n, (s.handleHeartbeat m.seq nowMs).rx.sampled = some n → False := by
    intro n hn
    unfold handleHeartbeat at hn
    dsimp only at hn
    split_ifs at hn <;> simp [RxPc.sampled] at hn
  simp only [noteBeat, hrx]
  by_cases hacc : Accepts s.peer m.seq
  · -- recorded now: the check that follows finds it
    rw [if_pos ⟨hm, hacc⟩]
    have hnow : nowMs = s.clock := by
      simp only [Punctual, hrx] at hok
      exact hok hm hacc
    have hlast : (heartbeatPeer s.peer m.seq nowMs).rxLastMs = UInt32.ofNat s.clock := by
      rw [heartbeatPeer, peerCheckHealth_rxLastMs, peerRxSeq_of_accepts hacc, hnow]
    have hmem : ∀ t ∈ s.clock :: beats, t ≤ s.clock := by
      intro t ht
      rcases List.mem_cons.1 ht with rfl | ht
      · exact Nat.le_refl _
      · exact h.past t ht
    refine ⟨fun _ => ⟨s.clock, List.mem_cons_self, hlast, hmem⟩, hmem,
      fun n hn => (hidle n hn).elim, h.workSampled, fun hun h₀ => ?_⟩
    have h₁ : (peerRxSeq s.peer m.seq (UInt32.ofNat nowMs)).rxLastMs = UInt32.ofNat nowMs :=
      peerRxSeq_of_accepts hacc
    have h₂ : (peerRxSeq s.peer m.seq (UInt32.ofNat nowMs)).rxLastMs ≠ 0 := by
      rw [h₁, hnow, ← hlast]
      exact h₀
    have hfresh : ¬ Overdue (peerRxSeq s.peer m.seq (UInt32.ofNat nowMs)) (UInt32.ofNat nowMs) := by
      intro hover
      rw [Overdue, h₁, UInt32.sub_self] at hover
      exact absurd hover.2 (by decide)
    exact absurd ((peerCheckHealth_of_not_overdue hfresh h₂).symm.trans hun) Bool.noConfusion
  · -- out of order: nothing is recorded
    rw [if_neg fun hboth => hacc hboth.2]
    have hlast : (peerRxSeq s.peer m.seq (UInt32.ofNat nowMs)).rxLastMs = s.peer.rxLastMs :=
      peerRxSeq_of_not_accepts hacc
    have hlast' : (heartbeatPeer s.peer m.seq nowMs).rxLastMs = s.peer.rxLastMs := by
      rw [heartbeatPeer, peerCheckHealth_rxLastMs, hlast]
    refine ⟨h.newest.of_eq hlast', h.past, fun n hn => (hidle n hn).elim, h.workSampled,
      fun hun h₀ => ?_⟩
    refine silent_of_check (h.newest.of_eq hlast) hsampled.1 hsampled.2 ?_ hun
    rw [hlast, ← hlast']
    exact h₀

theorem BeatInv.check (h : s.BeatInv beats) {wasHealthy : Bool}
    (hwork : s.work = .sent wasHealthy nowMs) (hnow : ∀ t ∈ beats, t ≤ nowMs) :
    (s.check wasHealthy nowMs).BeatInv beats := by
  have hclock := h.workSampled nowMs (by rw [hwork, WorkPc.sampled])
  have hlast : (s.check wasHealthy nowMs).peer.rxLastMs = s.peer.rxLastMs :=
    peerCheckHealth_rxLastMs
  refine ⟨h.newest.of_eq hlast, h.past, h.rxSampled, fun n hn => ?_, fun hun h₀ => ?_⟩
  · unfold Sys.check at hn
    dsimp only at hn
    split_ifs at hn <;> simp [WorkPc.sampled] at hn
  · have hnewest : Newest { s.peer with txSeq := s.peer.txSeq + 1 } beats := h.newest
    exact silent_of_check hnewest hnow hclock (hlast ▸ h₀) hun

theorem BeatInv.handleReady (h : s.BeatInv beats) (epoch : UInt32) :
    (s.handleReady epoch).BeatInv beats := by
  by_cases hnew : newEpoch s.peer epoch = true
  · refine h.clear ?_ rfl nofun rfl
    show (peerHandleReady s.peer epoch).1.rxLastMs = 0
    rw [peerHandleReady, if_pos hnew]
  · refine h.keep ?_ ?_ (Nat.le_refl _) nofun fun _ hn => hn
    · show (peerHandleReady s.peer epoch).1.rxLastMs = s.peer.rxLastMs
      rw [peerHandleReady, if_neg hnew]
    · show (peerHandleReady s.peer epoch).1.healthy = s.peer.healthy
      rw [peerHandleReady, if_neg hnew]

/-- A message that is neither READY nor HEARTBEAT leaves the health of the peer alone. -/
theorem handle_health {m : Msg} (hready : m.type ≠ msgReady) (hbeat : m.type ≠ msgHeartbeat) :
    (s.handle m nowMs).peer.rxLastMs = s.peer.rxLastMs ∧
      (s.handle m nowMs).peer.healthy = s.peer.healthy ∧ (s.handle m nowMs).rx = .idle ∧
      (s.handle m nowMs).work = s.work ∧ (s.handle m nowMs).clock = s.clock ∧
      (s.handle m nowMs).healthCb = s.healthCb := by
  unfold Sys.handle
  rw [if_neg hready, if_neg hbeat]
  split_ifs
  · unfold peerHandleHeartbeatAck
    split_ifs <;> exact ⟨rfl, rfl, rfl, rfl, rfl, rfl⟩
  · exact ⟨rfl, rfl, rfl, rfl, rfl, rfl⟩
  · exact ⟨rfl, rfl, rfl, rfl, rfl, rfl⟩

theorem BeatInv.step (h : s.BeatInv beats) (hok : Punctual (s, beats) a) (hs : Step s a s') :
    s'.BeatInv (noteBeat s a s' beats) := by
  cases hs with
  | enter m len =>
    refine ⟨h.newest, h.past, fun n hn => ?_, h.workSampled, h.silent⟩
    obtain rfl := Option.some.inj hn
    exact ⟨h.past, Nat.le_refl _⟩
  | accept hrx hv =>
    obtain ⟨hlast, hhealthy⟩ := (msgValidate_frame hv).2
    refine h.keep hlast hhealthy (Nat.le_refl _) (fun n hn => ?_) fun _ hn => hn
    rw [hrx]
    exact hn
  | reject hrx hv =>
    obtain ⟨hlast, hhealthy⟩ := (msgValidate_frame hv).2
    exact h.keep hlast hhealthy (Nat.le_refl _) nofun fun _ hn => hn
  | @handle m nowMs hrx =>
    -- READY clears the time of the last heartbeat, and HEARTBEAT sets it
    by_cases hready : m.type = msgReady
    · have hnote : noteBeat s .rxHandle (s.handle m nowMs) beats = beats := by
        simp only [noteBeat, hrx, hready]
        exact if_neg fun hboth => absurd hboth.1 (by decide)
      rw [hnote]
      unfold Sys.handle
      rw [if_pos hready]
      exact h.handleReady m.data
    by_cases hbeat : m.type = msgHeartbeat
    · have hhandle : s.handle m nowMs = s.handleHeartbeat m.seq nowMs := by
        rw [Sys.handle, if_neg hready, if_pos hbeat]
      have hstep := h.heartbeat hrx hbeat hok
      rw [hhandle] at hstep ⊢
      exact hstep
    · have hnote : noteBeat s .rxHandle (s.handle m nowMs) beats = beats := by
        simp only [noteBeat, hrx]
        exact if_neg fun hboth => hbeat hboth.1
      obtain ⟨hlast, hhealthy, hidle, hwork, hclock, -⟩ := @handle_health s nowMs m hready hbeat
      rw [hnote]
      refine h.keep hlast hhealthy (Nat.le_of_eq hclock.symm) (fun n hn => ?_) fun n hn => ?_
      · rw [hidle] at hn
        exact absurd hn nofun
      · exact hwork ▸ hn
  | ackSent | ackLost | echoSent | echoLost | recordAck | recordAckLost | recordEchoLost | give
  | finish => exact h.keep rfl rfl (Nat.le_refl _) nofun fun _ hn => hn
  | sample hw =>
    refine ⟨h.newest, h.past, h.rxSampled, fun n hn => ?_, h.silent⟩
    obtain rfl := Option.some.inj hn
    exact Nat.le_refl _
  | send sent hw =>
    refine h.keep rfl rfl (Nat.le_refl _) (fun _ hn => hn) fun n hn => ?_
    rw [hw]
    cases sent
    · exact absurd hn nofun
    · exact hn
  | check hw =>
    simp only [Punctual, hw] at hok
    exact h.check hw hok.1
  | begin | beginIdle | recordSendLost | call | reschedule =>
    exact h.keep rfl rfl (Nat.le_refl _) (fun _ hn => hn) nofun
  | epUnbound => exact h.clear rfl rfl (fun _ hn => hn) rfl
  | elapse ms => exact h.keep rfl rfl (Nat.le_add_right _ _) (fun _ hn => hn) fun _ hn => hn
  | _ => exact h.keep rfl rfl (Nat.le_refl _) (fun _ hn => hn) fun _ hn => hn

theorem beatInv_init {p : Sys × Beats} (h : timed.init p) : p.1.BeatInv p.2 := by
  obtain ⟨s, beats⟩ := p
  obtain ⟨hs, hbeats⟩ := h
  obtain rfl : beats = [] := hbeats
  have hlast : s.peer.rxLastMs = 0 := by rw [hs.peer, peerReset]
  refine ⟨fun h₀ => absurd hlast h₀, fun t ht => absurd ht List.not_mem_nil, fun n hn => ?_,
    fun n hn => ?_, fun _ h₀ => absurd hlast h₀⟩
  · rw [hs.rx] at hn
    exact absurd hn nofun
  · rw [hs.work] at hn
    exact absurd hn nofun

/-- The two places at which a peer turns unhealthy without an unbound. -/
theorem marked_cases (hs : Step s a s') (h : s.peer.healthy = true)
    (h' : s'.peer.healthy = false) (ha : a ≠ .epUnbound) :
    (∃ m n, a = .rxHandle ∧ s.rx = .validated m n ∧ m.type = msgHeartbeat ∧
      s' = s.handleHeartbeat m.seq n) ∨
    ∃ w n, a = .workCheck ∧ s.work = .sent w n ∧ s' = s.check w n := by
  have hsame : s'.peer.healthy ≠ s.peer.healthy := by
    rw [h, h']
    exact Bool.false_ne_true
  cases hs with
  | accept _ hv => exact absurd (msgValidate_frame hv).2.2 hsame
  | reject _ hv => exact absurd (msgValidate_frame hv).2.2 hsame
  | @handle m n hrx =>
    by_cases hready : m.type = msgReady
    · have hkeep : (peerHandleReady s.peer m.data).1.healthy = true := by
        unfold peerHandleReady
        split_ifs
        · rfl
        · exact h
      rw [Sys.handle, if_pos hready] at h'
      exact absurd (hkeep.symm.trans h') Bool.noConfusion
    by_cases hbeat : m.type = msgHeartbeat
    · refine .inl ⟨m, n, rfl, hrx, hbeat, ?_⟩
      rw [Sys.handle, if_neg hready, if_pos hbeat]
    · exact absurd (handle_health hready hbeat).2.1 hsame
  | check hw => exact .inr ⟨_, _, rfl, hw, rfl⟩
  | epUnbound => exact absurd rfl ha
  | _ => exact absurd rfl hsame

theorem check_of_step (hs : Step s .workCheck s') :
    ∃ w n, s.work = .sent w n ∧ s' = s.check w n := by
  cases hs with
  | check hw => exact ⟨_, _, hw, rfl⟩

/-- **No spurious staleness.**  In every run whose heartbeats are recorded in the millisecond of
their clock sample, and whose heartbeat work finds no heartbeat recorded behind its own sample, a
peer is marked unhealthy, or the health callback decided on, only if no heartbeat in order or
duplicate was recorded in the time after which a peer is stale. -/
theorem marked_late {p p' : Sys × Beats} (h : timed.ReachableBy Punctual p)
    (hok : Punctual p a) (hnext : timed.next p a = some p')
    (hmark : p.1.peer.healthy = true ∧ p'.1.peer.healthy = false ∧ a ≠ .epUnbound ∨
      a = .workCheck ∧ p'.1.work = .calling) : Silent p.1.clock p'.2 := by
  obtain ⟨hs, hbeats⟩ := Machine.watch_next hnext
  have hinv : p.1.BeatInv p.2 := by
    refine h.invariant (fun p h₀ => beatInv_init h₀) fun p a p' hp hok hnext => ?_
    obtain ⟨hs, hbeats⟩ := Machine.watch_next hnext
    rw [hbeats]
    exact hp.step hok (step_of_next hs)
  have hinv' : p'.1.BeatInv p'.2 := by
    rw [hbeats]
    exact hinv.step hok (step_of_next hs)
  rcases hmark with ⟨hwas, hun, ha⟩ | ⟨rfl, hcall⟩
  · obtain ⟨m, n, rfl, hrx, -, heq⟩ | ⟨w, n, rfl, hw, heq⟩ :=
      marked_cases (step_of_next hs) hwas hun ha
    · -- the mark by the receive callback
      have hclock : p'.1.clock = p.1.clock := by rw [heq, handleHeartbeat]
      refine hclock ▸ hinv'.silent hun ?_
      rw [heq] at hun ⊢
      have hover := overdue_of_marks (peerRxSeq_healthy.trans hwas) hun
      show (heartbeatPeer _ _ _).rxLastMs ≠ 0
      rw [heartbeatPeer, peerCheckHealth_rxLastMs]
      exact hover.1
    · -- the mark by the heartbeat work
      have hclock : p'.1.clock = p.1.clock := by rw [heq, Sys.check]
      refine hclock ▸ hinv'.silent hun ?_
      rw [heq] at hun ⊢
      have hover := @overdue_of_marks { p.1.peer with txSeq := p.1.peer.txSeq + 1 } _ hwas hun
      show (peerCheckHealth _ _).1.rxLastMs ≠ 0
      rw [peerCheckHealth_rxLastMs]
      exact hover.1
  · obtain ⟨w, n, hw, heq⟩ := check_of_step (step_of_next hs)
    simp only [Punctual, hw] at hok
    have hclock : p'.1.clock = p.1.clock := by rw [heq, Sys.check]
    rw [heq] at hcall hinv' hclock
    have hboth : w = true ∧ (p.1.check w n).peer.healthy = false := by
      unfold Sys.check at hcall ⊢
      dsimp only at hcall ⊢
      split_ifs at hcall with hcond
      simp only [Bool.and_eq_true, Bool.not_eq_true'] at hcond
      exact hcond.1
    refine hclock ▸ hinv'.silent hboth.2 fun h₀ => ?_
    -- a peer without a time of its last heartbeat keeps its health
    have hlast : p.1.peer.rxLastMs = 0 :=
      (@peerCheckHealth_rxLastMs { p.1.peer with txSeq := p.1.peer.txSeq + 1 } _).symm.trans h₀
    have hkeep : (p.1.check w n).peer.healthy = p.1.peer.healthy :=
      @peerCheckHealth_of_zero { p.1.peer with txSeq := p.1.peer.txSeq + 1 } _ hlast
    rcases hok.2 hboth.1 with hwas | hne
    · exact absurd (hboth.2.symm.trans (hkeep.trans hwas)) Bool.false_ne_true
    · exact hne hlast

end Beats

theorem timed_boot : timed.init (boot, []) := ⟨start_boot, rfl⟩

/-- A core that is silent for six seconds is marked by the heartbeat work. -/
theorem marked_late_silent : ∃ p p', timed.next p .workCheck = some p' ∧
    p.1.peer.healthy = true ∧ p'.1.peer.healthy = false ∧ Silent p.1.clock p'.2 := by
  have hrun : ((timed.runBy Punctual (boot, [])
      (readyAcked 1 ++ .elapse 1000 :: beat 1 ++ .elapse 6000 ::
        [.workBegin, .workSample, .workSend true])).bind fun p =>
      (timed.next p .workCheck).map fun p' =>
        (p.1.peer.healthy, p'.1.peer.healthy, decide (Punctual p .workCheck))) =
      some (true, false, true) := by
    decide +kernel
  obtain ⟨p, hp, hrun⟩ := Option.bind_eq_some_iff.1 hrun
  obtain ⟨p', hp', hread⟩ := Option.map_eq_some_iff.1 hrun
  obtain ⟨hwas, hread⟩ := Prod.mk.inj hread
  obtain ⟨hun, hok⟩ := Prod.mk.inj hread
  have hreach : timed.ReachableBy Punctual p :=
    Machine.ReachableBy.runBy (.init timed_boot) hp
  exact ⟨p, p', hp', hwas, hun, marked_late hreach (of_decide_eq_true hok) hp'
    (.inl ⟨hwas, hun, Action.noConfusion⟩)⟩

/-- The heartbeat work samples the clock, and a heartbeat arrives in the next millisecond while
the work is still sending: the difference wraps, and the peer is marked in the same millisecond. -/
theorem marked_by_old_sample : ¬ ∀ p a p', timed.Reachable p → timed.next p a = some p' →
    p.1.peer.healthy = true → p'.1.peer.healthy = false → a ≠ .epUnbound →
    Silent p.1.clock p'.2 := by
  intro hall
  have hrun : ((timed.run (boot, [])
      (readyAcked 1 ++ .elapse 1000 :: beat 1 ++ [.workBegin, .workSample, .elapse 1] ++ beat 2 ++
        [.workSend true])).bind fun p =>
      (timed.next p .workCheck).map fun p' =>
        (p.1.peer.healthy, p'.1.peer.healthy, p.1.clock, p'.2)) =
      some (true, false, 1001, [1001, 1000]) := by
    decide +kernel
  obtain ⟨p, hp, hrun⟩ := Option.bind_eq_some_iff.1 hrun
  obtain ⟨p', hp', hread⟩ := Option.map_eq_some_iff.1 hrun
  obtain ⟨hwas, hread⟩ := Prod.mk.inj hread
  obtain ⟨hun, hread⟩ := Prod.mk.inj hread
  obtain ⟨hclock, hbeats⟩ := Prod.mk.inj hread
  have hreach : timed.Reachable p := Machine.Reachable.run (.init timed_boot) hp
  have hsilent := hall p .workCheck p' hreach hp' hwas hun Action.noConfusion
  rw [hclock, hbeats] at hsilent
  exact absurd (hsilent 1001 List.mem_cons_self) (by decide)

end Sys

end Handshake

end LeAudioReceiver
