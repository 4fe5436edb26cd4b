import LeAudioReceiver.Handshake.Health

/-!
# The health callback

The heartbeat work calls the health callback when the peer was healthy at its start and is not
after its check.  `Counts` counts the transitions to unhealthy that are not an unbound, and the
calls.

* `callback_once` : every transition is called back once and before the peer is healthy again, as
  long as the receive callback does not mark the peer, and its health does not change between the
  work's first look and a check that fails, nor before the call;
* `transition_lost` : the receive callback can consume a transition, which is then never reported.
-/

namespace LeAudioReceiver

namespace Handshake

/-- Transitions from healthy to unhealthy, and calls of the health callback. -/
structure Counts where
  transitions : ℕ
  calls : ℕ
  deriving DecidableEq

/-- A health check fails. -/
def Fails (p : Peer) (nowMs : ℕ) : Prop := (peerCheckHealth p (UInt32.ofNat nowMs)).2 = false

instance (p : Peer) (nowMs : ℕ) : Decidable (Fails p nowMs) := inferInstanceAs (Decidable (_ = _))

theorem peerCheckHealth_snd {p : Peer} {nowMs : UInt32} :
    (peerCheckHealth p nowMs).1.healthy = (peerCheckHealth p nowMs).2 := by
  unfold peerCheckHealth
  dsimp only
  split_ifs with h₀ hlate hhealthy
  · rfl
  · rfl
  · exact Bool.eq_false_iff.2 hhealthy
  · rfl

namespace Sys

/-- What a step counts. -/
def noteHealth (s : Sys) (a : Action) (s' : Sys) (c : Counts) : Counts :=
  match a with
  | .workCall => { c with calls := c.calls + 1 }
  | .epUnbound => c
  | _ =>
    if s.peer.healthy = true ∧ s'.peer.healthy = false then
      { c with transitions := c.transitions + 1 }
    else c

/-- The system with its transitions and calls. -/
def counted : Machine (Sys × Counts) Action := machine.watch ⟨0, 0⟩ noteHealth

/-- The receive callback does not find a healthy peer stale, and does not restore the peer before
a call that is due; a check of the heartbeat work that fails finds the health as the work first
saw it. -/
def Steady (s : Sys) (a : Action) : Prop :=
  match a with
  | .rxHandle =>
    match s.rx with
    | .validated m nowMs =>
      if m.type = msgReady then s.work = .calling → newEpoch s.peer m.data = false
      else if m.type = msgHeartbeat then
        (s.peer.healthy = true → ¬ Fails (peerRxSeq s.peer m.seq (UInt32.ofNat nowMs)) nowMs) ∧
          (s.work = .calling → Fails (peerRxSeq s.peer m.seq (UInt32.ofNat nowMs)) nowMs)
      else True
    | _ => True
  | .workCheck =>
    match s.work with
    | .sent wasHealthy nowMs => Fails s.peer nowMs → wasHealthy = s.peer.healthy
    | _ => True
  | _ => True

instance (s : Sys) (a : Action) : Decidable (s.Steady a) := by
  unfold Steady
  repeat' split
  all_goals infer_instance

/-- What holds between two steps. -/
structure CallInv (s : Sys) (c : Counts) : Prop where
  count : c.calls + (if s.work = .calling then 1 else 0) = c.transitions
  unhealthy : s.work = .calling → s.peer.healthy = false
  registered : s.healthCb = true

section Calls

variable {s s' : Sys} {a : Action} {c : Counts}

theorem noteHealth_same (hhealthy : s'.peer.healthy = s.peer.healthy) (ha : a ≠ .workCall) :
    noteHealth s a s' c = c := by
  unfold noteHealth
  split
  · exact absurd rfl ha
  · rfl
  · refine if_neg fun hboth => ?_
    rw [hhealthy, hboth.1] at hboth
    exact Bool.noConfusion hboth.2

theorem CallInv.keep (h : s.CallInv c) (hhealthy : s'.peer.healthy = s.peer.healthy)
    (hwork : s'.work = .calling ↔ s.work = .calling) (hcb : s'.healthCb = s.healthCb)
    (ha : a ≠ .workCall) : s'.CallInv (noteHealth s a s' c) := by
  rw [noteHealth_same hhealthy ha]
  refine ⟨?_, fun hcall => hhealthy ▸ h.unhealthy (hwork.1 hcall), hcb ▸ h.registered⟩
  simp only [hwork]
  exact h.count

/-- The heartbeat work checks the peer: a transition and a call come together. -/
theorem CallInv.check (h : s.CallInv c) {wasHealthy : Bool} {nowMs : ℕ}
    (hwork : s.work = .sent wasHealthy nowMs) (hok : s.Steady .workCheck) :
    (s.check wasHealthy nowMs).CallInv
      (noteHealth s .workCheck (s.check wasHealthy nowMs) c) := by
  have hidle : s.work ≠ .calling := by
    rw [hwork]
    exact WorkPc.noConfusion
  have hcount : c.calls = c.transitions := by
    have := h.count
    rwa [if_neg hidle] at this
  simp only [Steady, hwork] at hok
  have hcheck : (s.check wasHealthy nowMs).peer.healthy =
      (peerCheckHealth s.peer (UInt32.ofNat nowMs)).2 := by
    rw [← peerCheckHealth_snd]
    unfold Sys.check peerCheckHealth
    dsimp only
    split_ifs <;> rfl
  have hpc : (s.check wasHealthy nowMs).work =
      if wasHealthy && !(s.check wasHealthy nowMs).peer.healthy && s.healthCb then .calling
      else .ending := rfl
  rw [h.registered, Bool.and_true] at hpc
  by_cases hfails : Fails s.peer nowMs
  · have hun : (s.check wasHealthy nowMs).peer.healthy = false := hcheck.trans hfails
    cases hwas : s.peer.healthy with
    | true =>
      -- marked and called back
      have hcall : (s.check wasHealthy nowMs).work = .calling := by
        rw [hpc, hun, hok hfails, hwas]
        rfl
      refine ⟨?_, fun _ => hun, h.registered⟩
      rw [if_pos hcall]
      show (noteHealth s .workCheck _ c).calls + 1 = (noteHealth s .workCheck _ c).transitions
      have hnote : noteHealth s .workCheck (s.check wasHealthy nowMs) c =
          { c with transitions := c.transitions + 1 } := if_pos ⟨hwas, hun⟩
      rw [hnote, hcount]
    | false =>
      have hend : (s.check wasHealthy nowMs).work = .ending := by
        rw [hpc, hun, hok hfails, hwas]
        rfl
      rw [noteHealth_same (hun.trans hwas.symm) Action.noConfusion]
      refine ⟨?_, fun hcall => ?_, h.registered⟩
      · rw [hend, if_neg WorkPc.noConfusion]
        exact hcount
      · exact WorkPc.noConfusion (hend.symm.trans hcall)
  · have hhealthy : (s.check wasHealthy nowMs).peer.healthy = true := by
      rw [hcheck]
      exact eq_true_of_ne_false hfails
    have hend : (s.check wasHealthy nowMs).work = .ending := by
      rw [hpc, hhealthy, Bool.not_true, Bool.and_false]
      rfl
    have hnote : noteHealth s .workCheck (s.check wasHealthy nowMs) c = c :=
      if_neg fun hboth => Bool.noConfusion (hhealthy.symm.trans hboth.2)
    rw [hnote]
    refine ⟨?_, fun hcall => ?_, h.registered⟩
    · rw [hend, if_neg WorkPc.noConfusion]
      exact hcount
    · exact WorkPc.noConfusion (hend.symm.trans hcall)

theorem CallInv.handle (h : s.CallInv c) {m : Msg} {nowMs : ℕ} (hrx : s.rx = .validated m nowMs)
    (hok : s.Steady .rxHandle) :
    (s.handle m nowMs).CallInv (noteHealth s .rxHandle (s.handle m nowMs) c) := by
  simp only [Steady, hrx] at hok
  have hcontrol : (s.handle m nowMs).work = s.work ∧
      (s.handle m nowMs).healthCb = s.healthCb := by
    unfold Sys.handle
    split_ifs <;> exact ⟨rfl, rfl⟩
  obtain ⟨hwork, hcb⟩ := hcontrol
  -- no transition, and the peer stays unhealthy while a call is due
  suffices hboth : (s.peer.healthy = true → (s.handle m nowMs).peer.healthy = true) ∧
      (s.work = .calling → (s.handle m nowMs).peer.healthy = false) by
    have hnote : noteHealth s .rxHandle (s.handle m nowMs) c = c :=
      if_neg fun hmark => Bool.noConfusion ((hboth.1 hmark.1).symm.trans hmark.2)
    rw [hnote]
    refine ⟨?_, fun hcall => hboth.2 (hwork ▸ hcall), hcb.trans h.registered⟩
    rw [hwork]
    exact h.count
  by_cases hready : m.type = msgReady
  · rw [if_pos hready] at hok
    rw [Sys.handle, if_pos hready]
    show (_ → (peerHandleReady s.peer m.data).1.healthy = true) ∧
      (_ → (peerHandleReady s.peer m.data).1.healthy = false)
    refine ⟨fun hwas => ?_, fun hcall => ?_⟩
    · unfold peerHandleReady
      split_ifs
      · rfl
      · exact hwas
    · rw [peerHandleReady, if_neg (Bool.eq_false_iff.1 (hok hcall))]
      exact h.unhealthy hcall
  rw [if_neg hready] at hok
  by_cases hbeat : m.type = msgHeartbeat
  · rw [if_pos hbeat] at hok
    rw [Sys.handle, if_neg hready, if_pos hbeat]
    show (_ → (heartbeatPeer s.peer m.seq nowMs).healthy = true) ∧
      (_ → (heartbeatPeer s.peer m.seq nowMs).healthy = false)
    rw [heartbeatPeer, peerCheckHealth_snd]
    exact ⟨fun hwas => eq_true_of_ne_false (hok.1 hwas), hok.2⟩
  · have hhealthy := (@handle_health s nowMs m hready hbeat).2.1
    rw [hhealthy]
    exact ⟨id, h.unhealthy⟩

theorem CallInv.step (h : s.CallInv c) (hok : s.Steady a) (hs : Step s a s') :
    s'.CallInv (noteHealth s a s' c) := by
  cases hs with
  | accept hrx hv | reject hrx hv =>
    exact h.keep (msgValidate_frame hv).2.2 Iff.rfl rfl Action.noConfusion
  | handle hrx => exact h.handle hrx hok
  | check hw => exact h.check hw hok
  | call hw =>
    have hcount := h.count
    rw [if_pos hw] at hcount
    exact ⟨hcount, nofun, h.registered⟩
  | epUnbound => exact ⟨h.count, fun _ => rfl, h.registered⟩
  | begin hw | beginIdle hw | sample hw | recordSendLost hw | reschedule hw =>
    exact h.keep rfl (by simp [hw]) rfl Action.noConfusion
  | send sent hw =>
    refine h.keep rfl ?_ rfl Action.noConfusion
    rw [hw]
    cases sent <;> exact ⟨nofun, nofun⟩
  | _ => exact h.keep rfl Iff.rfl rfl Action.noConfusion

end Calls

/-- **The health callback, exactly once.**  In every run that is steady, the calls and the one that
is due are as many as the transitions, and the peer is unhealthy while a call is due: every
transition is called back once and before the peer is healthy again, by the next step of the
heartbeat work, and nothing else is. -/
theorem callback_once {p : Sys × Counts} (h : counted.ReachableBy (fun p => p.1.Steady) p) :
    p.2.calls + (if p.1.work = .calling then 1 else 0) = p.2.transitions ∧
      (p.1.work = .calling → p.1.peer.healthy = false) := by
  have hinv : p.1.CallInv p.2 := by
    refine h.invariant (I := fun p => p.1.CallInv p.2) (fun p h₀ => ?_)
      fun p a p' hp hok hnext => ?_
    · obtain ⟨s, c⟩ := p
      obtain ⟨hs, hc⟩ := h₀
      obtain rfl : c = ⟨0, 0⟩ := hc
      have hidle : s.work ≠ .calling := by
        rw [hs.work]
        exact WorkPc.noConfusion
      exact ⟨by rw [if_neg hidle], fun hcall => absurd hcall hidle, hs.healthCb⟩
    · obtain ⟨hs, hc⟩ := Machine.watch_next hnext
      rw [hc]
      exact hp.step hok (step_of_next hs)
  exact ⟨hinv.count, hinv.unhealthy⟩

theorem counted_boot : counted.init (boot, ⟨0, 0⟩) := ⟨start_boot, rfl⟩

/-- A run of the heartbeat work of an acknowledged core, up to its check. -/
def tick : List Action := [.workBegin, .workSample, .workSend true, .workCheck]

/-- A core that is silent for six seconds is reported once. -/
theorem callback_once_silent : ∃ p, counted.ReachableBy (fun p => p.1.Steady) p ∧
    p.2.transitions = 1 ∧ p.2.calls + (if p.1.work = .calling then 1 else 0) = p.2.transitions := by
  have hrun : (counted.runBy (fun p => p.1.Steady) (boot, ⟨0, 0⟩)
      (readyAcked 1 ++ .elapse 1000 :: beat 1 ++ .elapse 6000 :: tick ++
        [.workCall, .workReschedule])).map (fun p => p.2.transitions) = some 1 := by
    decide +kernel
  obtain ⟨p, hp, htransitions⟩ := Option.map_eq_some_iff.1 hrun
  have hreach : counted.ReachableBy (fun p => p.1.Steady) p :=
    Machine.ReachableBy.runBy (.init counted_boot) hp
  exact ⟨p, hreach, htransitions, (callback_once hreach).1⟩

/-- A delayed heartbeat, out of order, marks the silent peer in the receive callback.  The
heartbeat work that runs next sees an unhealthy peer from the start and calls nobody, and a
heartbeat in order makes the peer healthy again. -/
theorem transition_lost : ¬ ∀ p, counted.Reachable p → p.1.peer.healthy = true →
    p.2.calls = p.2.transitions := by
  intro hall
  have hrun : (counted.run (boot, ⟨0, 0⟩)
      (readyAcked 1 ++ .elapse 1000 :: beat 5 ++ .elapse 6000 :: beat 4 ++ tick ++
        .workReschedule :: beat 6)).map (fun p => (p.1.peer.healthy, p.2)) =
      some (true, ⟨1, 0⟩) := by
    decide +kernel
  obtain ⟨p, hp, hread⟩ := Option.map_eq_some_iff.1 hrun
  obtain ⟨hhealthy, hcounts⟩ := Prod.mk.inj hread
  have hreach : counted.Reachable p := Machine.Reachable.run (.init counted_boot) hp
  have heq := hall p hreach hhealthy
  rw [hcounts] at heq
  exact absurd heq (by decide)

end Sys

end Handshake

end LeAudioReceiver
