import LeAudioReceiver.FlprRuntime.FailSafe

/-!
# Restarting after a failure

A call of `flpr_runtime_restart` first deregisters the endpoint, and the IPC service refuses that
where the endpoint is not registered.  A call that has failed between there and the new registration
leaves the endpoint unregistered.

* `Runtime.Link` : where the restarting thread is in the handshake, and whether the endpoint is
  registered there;
* `Runtime.Session` : what holds in a call that meets no error;
* `Runtime.retryable_iff` : **a later call can succeed exactly if no check of the hardware and no
  registration has failed before**;
* `Runtime.not_retryable` : after the check of the context retention has failed once, a call in
  which everything else goes well fails too.
-/

namespace LeAudioReceiver

namespace FlprRuntime

/-- A step that needs no event: one of the restarting thread, or of a heartbeat work or a callback
that has begun. -/
def own : Action → Bool
  | .env .rxRecord | .env .rxFinish | .env .workSample | .env (.workSend _) | .env .workRecord
  | .env .workCheck | .env .workCall | .env .workReschedule => true
  | .env _ | .call _ | .busy => false
  | _ => true

end FlprRuntime

/-! ### The other contexts of the handshake -/

namespace Handshake

/-- READY_ACK for a new epoch has been sent, and the semaphore is still to be given. -/
def RxPc.gives : RxPc → Bool
  | .acked _ true _ | .finishing true _ => true
  | _ => false

/-- The steps of the callback until the semaphore is given. -/
def RxPc.rank : RxPc → ℕ
  | .acked _ true _ => 2
  | .finishing true _ => 1
  | _ => 0

/-- The steps of the heartbeat work until it ends. -/
def WorkPc.rank : WorkPc → ℕ
  | .idle => 0
  | .ending => 1
  | .calling | .sendFailed => 2
  | .sent _ _ => 3
  | .sending _ _ => 4
  | .begun _ => 5

namespace Sys

variable {s s' : Sys} {b : Action}

theorem handle_frame (m : Msg) (nowMs : ℕ) :
    (s.handle m nowMs).ctl = s.ctl ∧ (s.handle m nowMs).registered = s.registered ∧
      (s.handle m nowMs).sessionAvailable = s.sessionAvailable ∧
      (s.handle m nowMs).newReadySem = s.newReadySem := by
  unfold handle handleReady handleHeartbeat
  split_ifs <;> exact ⟨rfl, rfl, rfl, rfl⟩

/-- The other contexts do not move the restarting thread, and neither register nor deregister the
endpoint; only its loss closes the session and takes the semaphore. -/
theorem env_frame (henv : FlprRuntime.isEnv b = true) (hs : Step s b s') :
    s'.ctl = s.ctl ∧ s'.registered = s.registered ∧
      (b ≠ .epUnbound → s'.sessionAvailable = s.sessionAvailable ∧
        (s.newReadySem = true → s'.newReadySem = true)) := by
  cases hs with
  | handle _ =>
    obtain ⟨hctl, hregistered, havailable, hsem⟩ := handle_frame (s := s) _ _
    exact ⟨hctl, hregistered, fun _ => ⟨havailable, fun h => hsem.trans h⟩⟩
  | epUnbound => exact ⟨rfl, rfl, fun hne => absurd rfl hne⟩
  | give _ => exact ⟨rfl, rfl, fun _ => ⟨rfl, fun _ => rfl⟩⟩
  | disconnect _ | cancel _ _ | cancelAgain _ _ | deregister _ _ | reconnect _ | makeAvailable _
  | install _ | register _ _ | registerFailed _ | rollback _ | drain _ | succeed _
  | waitCancelled _ _ _ | waitFast _ _ _ _ _ | waitSlow _ _ _ | take _ _ | timeout _ => cases henv
  | _ => exact ⟨rfl, rfl, fun _ => ⟨rfl, id⟩⟩

/-! The steps of the restarting thread, where they are open. -/

theorem ctlNext_disconnect (h : s.ctl = .idle) :
    s.ctlNext .disconnect = some { s with
      sessionAvailable := false, hbStarted := false, newReadySem := false, ctl := .closing } := by
  unfold ctlNext
  simp only [h]

theorem ctlNext_cancel (h : s.ctl = .closing) (hwork : s.work = .idle) :
    s.ctlNext .cancel = some { s with hbScheduled := false, ctl := .closed } := by
  unfold ctlNext
  simp only [h, if_pos hwork]

theorem ctlNext_deregister (h : s.ctl = .closed) (done : Bool) :
    s.ctlNext (.deregister done) =
      some { s with registered := s.registered && !done, ctl := .idle } := by
  unfold ctlNext
  simp only [h]

theorem ctlNext_reconnect (h : s.ctl = .idle) :
    s.ctlNext .reconnect = some { s with newReadySem := false, ctl := .admitting } := by
  unfold ctlNext
  simp only [h]

theorem ctlNext_makeAvailable (h : s.ctl = .admitting) :
    s.ctlNext .makeAvailable = some { s with sessionAvailable := true, ctl := .registering } := by
  unfold ctlNext
  simp only [h]

theorem ctlNext_install (h : s.ctl = .registering) :
    s.ctlNext .install = some { s with registered := true } := by
  unfold ctlNext
  simp only [h]

theorem ctlNext_register (h : s.ctl = .registering) (hregistered : s.registered = true) :
    s.ctlNext (.register true) = some { s with ctl := .idle } := by
  unfold ctlNext
  simp only [h, hregistered, if_true]

/-- The wait is not cancelled while the session is open. -/
theorem ctlNext_wait (h : s.ctl = .idle) (havailable : s.sessionAvailable = true)
    (previous : UInt32) :
    s.ctlNext (.wait previous) = some { s with
      ctl := if s.peer.ready && s.peer.acked && s.peer.epoch != previous then .succeeding previous
        else .waiting previous } := by
  unfold ctlNext
  simp only [h, havailable, Bool.not_true, Bool.false_eq_true, if_false]
  split_ifs <;> rfl

theorem ctlNext_take {previous : UInt32} (h : s.ctl = .waiting previous)
    (hsem : s.newReadySem = true) :
    s.ctlNext .take = some { s with newReadySem := false, ctl := .succeeding previous } := by
  unfold ctlNext
  simp only [h, if_pos hsem]

theorem ctlNext_drain {previous : UInt32} (h : s.ctl = .succeeding previous) :
    s.ctlNext .drain = some { s with newReadySem := false, ctl := .idle } := by
  unfold ctlNext
  simp only [h]

theorem work_moves (hw : s.work ≠ .idle) :
    ∃ b s', FlprRuntime.own (.env b) = true ∧ s.next b = some s' ∧
      s'.work.rank < s.work.rank ∧ s'.rx = s.rx ∧ s'.registered = s.registered := by
  cases hpc : s.work with
  | idle => exact absurd hpc hw
  | begun wasHealthy =>
    exact ⟨.workSample, { s with work := .sending wasHealthy s.clock }, rfl,
      by simp [next, rxNext, workNext, hpc], by simp [WorkPc.rank], rfl, rfl⟩
  | sending wasHealthy nowMs =>
    exact ⟨.workSend true, { s with work := .sent wasHealthy nowMs }, rfl,
      by simp [next, rxNext, workNext, hpc], by simp [WorkPc.rank], rfl, rfl⟩
  | sent wasHealthy nowMs =>
    refine ⟨.workCheck, s.check wasHealthy nowMs, rfl,
      by simp [next, rxNext, workNext, hpc], ?_, rfl, rfl⟩
    unfold check
    dsimp only
    split_ifs <;> simp [WorkPc.rank]
  | sendFailed =>
    exact ⟨.workRecord, { s.noteSendFailure with work := .ending }, rfl,
      by simp [next, rxNext, workNext, hpc], by simp [WorkPc.rank], rfl, rfl⟩
  | calling =>
    exact ⟨.workCall, { s with work := .ending }, rfl,
      by simp [next, rxNext, workNext, hpc], by simp [WorkPc.rank], rfl, rfl⟩
  | ending =>
    exact ⟨.workReschedule, { s with hbScheduled := true, work := .idle }, rfl,
      by simp [next, rxNext, workNext, hpc], by simp [WorkPc.rank], rfl, rfl⟩

theorem rx_moves (hgives : s.rx.gives = true) :
    ∃ b s', FlprRuntime.own (.env b) = true ∧ s.next b = some s' ∧
      s'.rx.rank < s.rx.rank ∧ s'.work = s.work ∧ s'.registered = s.registered := by
  cases hpc : s.rx with
  | acked epoch give start =>
    rw [hpc] at hgives
    cases give with
    | false => cases hgives
    | true =>
      exact ⟨.rxRecord,
        { s with peer := { s.peer with acked := true }, rx := .finishing true start }, rfl,
        by simp [next, rxNext, hpc], by simp [RxPc.rank], rfl, rfl⟩
  | finishing give start =>
    rw [hpc] at hgives
    cases give with
    | false => cases hgives
    | true =>
      exact ⟨.rxFinish, { s with newReadySem := true, rx := .finishing false start }, rfl,
        by simp [next, rxNext, hpc], by simp [RxPc.rank], rfl, rfl⟩
  | _ =>
    rw [hpc] at hgives
    cases hgives

/-- A READY with another epoch that is handled in an open session gives the semaphore, unless its
READY_ACK cannot be sent. -/
theorem give_of_handle {m : Msg} {nowMs : ℕ} (havailable : s.sessionAvailable = true)
    (hfresh : m.data ≠ s.peer.epoch) {epoch : UInt32} {give start : Bool}
    (hrx : (s.handle m nowMs).rx = .acking epoch give start) : give = true := by
  unfold handle handleReady handleHeartbeat at hrx
  split_ifs at hrx <;> simp only [RxPc.acking.injEq] at hrx
  · rw [← hrx.2.1, havailable, Bool.and_true]
    simp [peerHandleReady, newEpoch, hfresh]
  · split_ifs at hrx

end Sys

end Handshake

namespace FlprRuntime

open FlprRing (crc32)
open Handshake (Sys)

namespace Pc

/-- Where the restarting thread is in the handshake. -/
def ctlAt (pc : Pc) (c : Handshake.CtlPc) : Prop :=
  match pc with
  | drainBound | cancel => c = .closing
  | deregister => c = .closed
  | admitSession => c = .admitting
  | register => c = .registering
  | rollback _ => c = .failing
  | rollbackCancel _ => c = .rolledBack
  | rollbackBound _ | rollbackDrain _ => c = .draining
  | readyWaiting => ∃ previous, c = .waiting previous
  | readyDrain => ∃ previous, c = .succeeding previous
  | _ => c = .idle

/-- The session is admitted, and the remote core is awaited. -/
def linked : Pc → Bool
  | register | waitBound | repost | waitReady | readyWaiting => true
  | _ => false

/-- The steps of a call that does not fail until it returns. -/
def rank : Pc → ℕ
  | snapshot => 26
  | sourceCrc => 25
  | disconnect => 24
  | drainBound => 23
  | cancel => 22
  | deregister => 21
  | stop => 20
  | retention => 19
  | assertReset => 18
  | copy => 17
  | verify => 16
  | initpc => 15
  | cpurun => 14
  | release => 13
  | intEnable => 12
  | intCheck => 11
  | reconnect => 10
  | reconnectDrain => 9
  | admitSession => 8
  | register => 7
  | waitBound => 6
  | repost => 5
  | waitReady => 4
  | readyWaiting => 3
  | readyDrain => 2
  | success => 1
  | _ => 0

end Pc

namespace Runtime

variable {s s' t : Runtime} {a : Action} {stranded : Bool}

/-! ### The answers -/

/-- `ipc_service_deregister_endpoint` returns an error exactly where the endpoint is not
registered. -/
def ipc (s : Runtime) : Action → Bool
  | .deregister ret => decide (0 ≤ ret) == s.hs.registered
  | _ => true

/-- A check of the hardware will fail, or the registration fails. -/
def strands (s : Runtime) : Action → Bool
  | .retention cleared => !cleared
  | .copy image => crc32 image ≠ crc32 s.source
  | .intEnable taken => s.savedMask &&& taken ≠ s.savedMask
  | .register ret => ret < 0
  | _ => false

/-- The remote core comes in time, and does not leave while it is awaited. -/
def comes (s : Runtime) : Action → Bool
  | .boundTimeout | .readyTimeout => false
  | .env .epUnbound => !s.pc.linked
  | _ => true

/-- A step of a call in which every check and the registration succeed. -/
def Good (s : Runtime) (a : Action) : Prop :=
  s.pc ≠ .idle ∧ s.ipc a = true ∧ s.strands a = false ∧ s.comes a = true

instance (s : Runtime) (a : Action) : Decidable (s.Good a) :=
  inferInstanceAs (Decidable (_ ∧ _ ∧ _ ∧ _))

/-- The call waits for the remote core, which has not been bound or has not sent a READY with a
fresh epoch that was acknowledged. -/
def Awaits (s : Runtime) : Prop :=
  s.pc = .waitBound ∧ s.bound = false ∨ s.pc = .readyWaiting ∧ s.readied = false

/-- A later call. -/
def laterCall (s : Runtime) : Machine Runtime Action :=
  ⟨fun t => ∃ timeoutMs, s.next (.call timeoutMs) = some t, next⟩

/-- A later call in which every check and the registration succeed and the remote core comes
returns `0`, and nothing but the remote core can keep it from returning. -/
def Retryable (s : Runtime) : Prop :=
  ∀ t, (laterCall s).ReachableBy Good t →
    (t.pc = .idle → t.result = 0) ∧
    ∃ as t', (∀ a ∈ as, own a = true) ∧ (laterCall s).runBy Good t as = some t' ∧
      (t'.pc = .idle ∨ t'.Awaits)

/-- The restarts, with a note whether a check of the hardware or a registration has failed. -/
def noted : Machine (Runtime × Bool) Action :=
  machine.watch false fun s a _ stranded => s.strands a || stranded

/-! ### The endpoint -/

/-- Whether the endpoint is registered, where the restarting thread is. -/
def Registered (s : Runtime) (stranded : Bool) : Pc → Prop
  | .stop | .retention | .assertReset | .copy | .initpc | .cpurun | .release | .intEnable
  | .reconnect | .reconnectDrain | .admitSession => s.hs.registered = false ∧ stranded = false
  | .verify => s.hs.registered = false ∧ stranded = decide (crc32 s.exec ≠ crc32 s.source)
  | .intCheck =>
    s.hs.registered = false ∧ stranded = decide (s.vpr.inten &&& s.savedMask ≠ s.savedMask)
  | .register => stranded = false
  | .rollback _ | .rollbackCancel _ | .rollbackBound _ | .rollbackDrain _ =>
    s.hs.registered = false ∧ stranded = true
  | .waitBound | .repost | .waitReady | .readyWaiting | .readyDrain | .success =>
    s.hs.registered = true ∧ stranded = false
  | .idle | .snapshot | .sourceCrc | .disconnect | .drainBound | .cancel | .deregister
  | .failStop _ | .failReset _ | .fail _ => s.hs.registered = !stranded

/-- The restarting thread, the handshake and the endpoint agree. -/
structure Link (s : Runtime) (stranded : Bool) : Prop where
  ctl : s.pc.ctlAt s.hs.ctl
  registered : s.Registered stranded s.pc

theorem Link.ctlAt (h : Link s stranded) {pc : Pc} (hpc : s.pc = pc) : pc.ctlAt s.hs.ctl :=
  hpc ▸ h.ctl

theorem Link.at (h : Link s stranded) {pc : Pc} (hpc : s.pc = pc) : s.Registered stranded pc :=
  hpc ▸ h.registered

theorem Link.after (h : Link s stranded) {b : Handshake.Action} {hs : Sys}
    (henv : isEnv b = true) (hnext : s.hs.next b = some hs) : Link (s.after b hs) stranded := by
  obtain ⟨hctl, hregistered, -⟩ := Sys.env_frame henv (Sys.step_of_next hnext)
  constructor
  · change s.pc.ctlAt hs.ctl
    rw [hctl]
    exact h.ctl
  · have hreg := h.registered
    change Registered _ stranded s.pc
    revert hreg
    cases s.pc <;> simp only [Registered, Runtime.after, hregistered] <;> exact id

theorem Link.ctlStep (h : Link s stranded) {pc pc' : Pc} {b : Handshake.Action} {hs : Sys}
    (hpc : s.pc = pc) (hmove : CtlMove pc a b pc') (hipc : s.ipc a = true)
    (hnext : s.hs.ctlNext b = some hs) :
    Link { s with hs := hs, pc := pc' } (s.strands a || stranded) := by
  have hctl := h.ctlAt hpc
  have hreg := h.at hpc
  cases hmove with
  | disconnect =>
    cases Sys.step_of_ctlNext hnext
    exact ⟨rfl, hreg⟩
  | cancel =>
    cases Sys.step_of_ctlNext hnext with
    | cancel _ _ => exact ⟨rfl, hreg⟩
    | cancelAgain hagain _ => cases hctl.symm.trans hagain
  | deregister hret =>
    cases Sys.step_of_ctlNext hnext
    -- the service agreed, so the endpoint was registered
    have hregistered : s.hs.registered = true := by
      simpa [ipc, hret] using hipc
    have hclean : (!stranded) = true := hreg.symm.trans hregistered
    exact ⟨rfl, Bool.and_false _, Bool.not_eq_true' stranded ▸ hclean⟩
  | deregisterFailed hret =>
    cases Sys.step_of_ctlNext hnext
    refine ⟨rfl, ?_⟩
    change (s.hs.registered && true) = !stranded
    rw [Bool.and_true]
    exact hreg
  | reconnect =>
    cases Sys.step_of_ctlNext hnext
    exact ⟨rfl, hreg⟩
  | install =>
    cases Sys.step_of_ctlNext hnext
    exact ⟨rfl, hreg⟩
  | registerFailed hret =>
    cases Sys.step_of_ctlNext hnext
    exact ⟨rfl, rfl, by simp [strands, hret]⟩
  | rollback ret =>
    cases Sys.step_of_ctlNext hnext
    exact ⟨rfl, hreg⟩
  | rollbackCancel ret =>
    cases Sys.step_of_ctlNext hnext with
    | cancel hagain _ => cases hctl.symm.trans hagain
    | cancelAgain _ _ => exact ⟨rfl, hreg⟩
  | rollbackDrain ret =>
    cases Sys.step_of_ctlNext hnext with
    | drain _ =>
      obtain ⟨hregistered, rfl⟩ := hreg
      exact ⟨rfl, hregistered⟩
    | succeed hagain => cases hctl.symm.trans hagain
  | take =>
    cases Sys.step_of_ctlNext hnext
    exact ⟨⟨_, rfl⟩, hreg⟩
  | readyDrain =>
    obtain ⟨previous, hctl⟩ := hctl
    cases Sys.step_of_ctlNext hnext with
    | drain hagain => cases hctl.symm.trans hagain
    | succeed _ => exact ⟨rfl, hreg⟩

theorem Link.waitReady (h : Link s stranded) {hs : Sys} (hpc : s.pc = .waitReady)
    (hnext : s.hs.ctlNext (.wait s.epochBefore) = some hs) :
    Link { s with hs := hs, status := s.stage .waitReady, pc := .waiting hs.ctl } stranded := by
  have hreg := h.at hpc
  cases Sys.step_of_ctlNext hnext with
  | waitCancelled _ hctl _ =>
    obtain ⟨hregistered, rfl⟩ := hreg
    rw [hctl]
    exact ⟨hctl, hregistered⟩
  | waitFast _ _ _ _ _ => exact ⟨⟨_, rfl⟩, hreg⟩
  | waitSlow _ _ _ => exact ⟨⟨_, rfl⟩, hreg⟩

/-- A step that is none of the handshake. -/
theorem Link.move (h : Link s stranded) {pc : Pc} (hpc : s.pc = pc)
    (hctl : pc.ctlAt s.hs.ctl → s'.pc.ctlAt s'.hs.ctl)
    (hreg : s.Registered stranded pc → s'.Registered (s.strands a || stranded) s'.pc) :
    Link s' (s.strands a || stranded) :=
  ⟨hctl (h.ctlAt hpc), hreg (h.at hpc)⟩

theorem Link.next (h : Link s stranded) (hinv : Inv s) (hipc : s.ipc a = true)
    (hs : s.next a = some s') : Link s' (s.strands a || stranded) := by
  -- what the step strands, and that the endpoint stays registered until it is deregistered
  cases step_of_next hs with
  | env henv hnext => exact h.after henv hnext
  | busy _ =>
    refine ⟨h.ctl, ?_⟩
    have hreg := h.registered
    change Registered _ stranded s.pc
    revert hreg
    cases s.pc <;> exact id
  | ctl hpc hmove hnext => exact h.ctlStep hpc hmove hipc hnext
  | retained hpc => exact h.move hpc id And.left
  | copy image hpc =>
    refine h.move hpc id ?_
    rintro ⟨hregistered, rfl⟩
    exact ⟨hregistered, Bool.or_false _⟩
  | verified hpc hcrc =>
    refine h.move hpc id ?_
    rintro ⟨hregistered, rfl⟩
    have hsource : crc32 s.exec = crc32 s.source := hcrc.symm.trans (hinv.crc hpc rfl)
    exact ⟨hregistered, decide_eq_false (not_not_intro hsource)⟩
  | corrupted hpc hcrc =>
    refine h.move hpc id ?_
    rintro ⟨hregistered, rfl⟩
    -- a copy that is refused differs from the source
    have hsource : crc32 s.exec ≠ crc32 s.source := by
      intro heq
      exact hcrc ((hinv.crc hpc rfl).trans heq.symm)
    change s.hs.registered = !decide (crc32 s.exec ≠ crc32 s.source)
    rw [hregistered, decide_eq_true hsource, Bool.not_true]
  | intEnable taken hpc =>
    -- the reset has cleared the enable register
    have hzero : s.vpr.inten = 0 := hinv.regsAt hpc
    refine h.move hpc id ?_
    rintro ⟨hregistered, rfl⟩
    refine ⟨hregistered, ?_⟩
    change (decide (s.savedMask &&& taken ≠ s.savedMask) || false) = _
    rw [Bool.or_false, enabled_and_saved hzero]
  | intKept hpc hmask =>
    refine h.move hpc id ?_
    rintro ⟨hregistered, rfl⟩
    exact ⟨hregistered, decide_eq_false (not_not_intro hmask)⟩
  | intLost hpc hmask =>
    refine h.move hpc id ?_
    rintro ⟨hregistered, rfl⟩
    change s.hs.registered = !decide (s.vpr.inten &&& s.savedMask ≠ s.savedMask)
    rw [hregistered, decide_eq_true hmask, Bool.not_true]
  | admitSession hpc hnext =>
    cases Sys.step_of_ctlNext hnext
    exact h.move hpc (fun _ => rfl) And.right
  | register hpc hret hnext =>
    cases Sys.step_of_ctlNext hnext with
    | register _ hregistered =>
      refine h.move hpc (fun _ => rfl) ?_
      rintro rfl
      exact ⟨hregistered, by simp [strands, hret]⟩
  | boundTimeout hpc | success hpc =>
    refine h.move hpc id ?_
    rintro ⟨hregistered, rfl⟩
    exact hregistered
  | waitReady hpc hnext => exact h.waitReady hpc hnext
  | readyTimeout hpc hnext =>
    cases Sys.step_of_ctlNext hnext
    refine h.move hpc (fun _ => rfl) ?_
    rintro ⟨hregistered, rfl⟩
    exact hregistered
  | call _ hpc | snapshot hpc | sourceCrc hpc | drainBound hpc | stop hpc | cleared hpc
  | assertReset hpc | initpc hpc | cpurun hpc | release hpc | reconnect hpc | rollbackBound hpc
  | bound hpc _ | repost hpc | failStop hpc | failReset hpc | fail hpc =>
    exact h.move hpc id id

/-! ### A call that meets no error -/

/-- READY_ACK for a READY with a fresh epoch gives the semaphore. -/
def Announced (s : Runtime) : Prop :=
  (s.fresh = true → ∀ epoch give start, s.hs.rx = .acking epoch give start → give = true) ∧
    (s.readied = true → s.hs.newReadySem = true ∨ s.hs.rx.gives = true)

/-- What holds of the session in a call that meets no error, where the restarting thread is. -/
def Session (s : Runtime) : Pc → Prop
  | .idle => s.result = 0
  | .reconnectDrain | .admitSession => s.bound = true → s.boundSem = true
  | .register | .waitBound =>
    s.hs.sessionAvailable = true ∧ s.Announced ∧ (s.bound = true → s.boundSem = true)
  | .repost | .waitReady | .readyWaiting => s.hs.sessionAvailable = true ∧ s.Announced
  | .rollback _ | .rollbackCancel _ | .rollbackBound _ | .rollbackDrain _ | .failStop _
  | .failReset _ | .fail _ => False
  | _ => True

theorem Announced.keep (h : s.Announced) {b : Handshake.Action} {hs : Sys}
    (hfresh : s.freshAfter b = s.fresh) (hreadied : s.readiedAfter b = s.readied)
    (hsem : s.hs.newReadySem = true → hs.newReadySem = true)
    (hacking : ∀ epoch give start, hs.rx = .acking epoch give start →
      s.hs.rx = .acking epoch give start)
    (hgives : s.hs.rx.gives = true → hs.newReadySem = true ∨ hs.rx.gives = true) :
    (s.after b hs).Announced := by
  constructor
  · intro hf epoch give start hrx
    exact h.1 (hfresh.symm.trans hf) epoch give start (hacking epoch give start hrx)
  · intro hr
    exact (h.2 (hreadied.symm.trans hr)).elim (fun hgiven => .inl (hsem hgiven)) hgives

theorem Announced.after (h : s.Announced) (havailable : s.hs.sessionAvailable = true)
    {b : Handshake.Action} {hs : Sys} (henv : isEnv b = true) (hne : b ≠ .epUnbound)
    (hnext : s.hs.next b = some hs) : (s.after b hs).Announced := by
  have hstep := Sys.step_of_next hnext
  obtain ⟨-, -, hstay⟩ := Sys.env_frame henv hstep
  obtain ⟨-, hsem⟩ := hstay hne
  cases hstep with
  | @handle m nowMs hrx =>
    refine ⟨fun hfresh epoch give start => ?_, fun hreadied => .inl (hsem ?_)⟩
    · have hnew : m.type = Handshake.msgReady ∧ m.data ≠ s.hs.peer.epoch := by
        simpa [Runtime.after, freshAfter, hrx] using hfresh
      exact Sys.give_of_handle havailable hnew.2
    · simpa [hrx, Handshake.RxPc.gives] using h.2 hreadied
  | @ackSent epoch give start hrx =>
    refine ⟨fun _ _ _ _ hrx' => (nomatch hrx'), fun hreadied => ?_⟩
    have hcases : s.readied = true ∨ s.fresh = true := by
      simpa [Runtime.after, readiedAfter, hrx] using hreadied
    rcases hcases with hr | hf
    · have hgiven : s.hs.newReadySem = true := by
        simpa [hrx, Handshake.RxPc.gives] using h.2 hr
      exact .inl hgiven
    · obtain rfl := h.1 hf epoch give start hrx
      exact .inr rfl
  | @recordAck epoch give start hrx =>
    refine h.keep rfl rfl hsem (fun _ _ _ hrx' => nomatch hrx') fun hgives => .inr ?_
    rw [hrx] at hgives
    cases give
    · cases hgives
    · rfl
  | give hrx => exact h.keep rfl rfl hsem (fun _ _ _ hrx' => nomatch hrx') fun _ => .inl rfl
  | echoSent hrx =>
    refine h.keep rfl (by simp [readiedAfter, hrx]) hsem (fun _ _ _ hrx' => nomatch hrx') ?_
    intro hgives
    rw [hrx] at hgives
    cases hgives
  | enter _ _ hrx _ | accept hrx _ | reject hrx _ | ackLost hrx | echoLost hrx
  | recordAckLost hrx | recordEchoLost hrx | finish hrx =>
    refine h.keep rfl rfl hsem (fun _ _ _ hrx' => nomatch hrx') fun hgives => ?_
    rw [hrx] at hgives
    cases hgives
  | _ => exact h.keep rfl rfl hsem (fun _ _ _ => id) .inr

theorem bound_after {b : Handshake.Action} {hs : Sys} (h : s.bound = true → s.boundSem = true)
    (hbound : (s.after b hs).bound = true) : (s.after b hs).boundSem = true := by
  simp only [Runtime.after, Bool.or_eq_true] at hbound ⊢
  exact hbound.imp_left h

theorem Session.after {pc : Pc} (h : s.Session pc) {b : Handshake.Action} {hs : Sys}
    (henv : isEnv b = true) (hstay : pc.linked = true → b ≠ .epUnbound)
    (hnext : s.hs.next b = some hs) : (s.after b hs).Session pc := by
  have hopen : pc.linked = true → s.hs.sessionAvailable = true → s.Announced →
      hs.sessionAvailable = true ∧ (s.after b hs).Announced := by
    intro hlinked havailable hannounced
    have hne := hstay hlinked
    obtain ⟨-, -, hframe⟩ := Sys.env_frame henv (Sys.step_of_next hnext)
    exact ⟨(hframe hne).1.trans havailable, hannounced.after havailable henv hne hnext⟩
  cases pc with
  | reconnectDrain | admitSession => exact bound_after h
  | register | waitBound =>
    obtain ⟨havailable, hannounced, hbound⟩ := h
    obtain ⟨havailable, hannounced⟩ := hopen rfl havailable hannounced
    exact ⟨havailable, hannounced, bound_after hbound⟩
  | repost | waitReady | readyWaiting => exact hopen rfl h.1 h.2
  | _ => exact h

theorem sessionAt (h : s.Session s.pc) {pc : Pc} (hpc : s.pc = pc) : s.Session pc := hpc ▸ h

theorem Session.ctlStep {pc pc' : Pc} (h : s.Session pc) (hlink : Link s false)
    {b : Handshake.Action} {hs : Sys} (hpc : s.pc = pc) (hmove : CtlMove pc a b pc')
    (hgood : s.Good a) (hnext : s.hs.ctlNext b = some hs) :
    Session { s with hs := hs, pc := pc' } pc' := by
  obtain ⟨-, hipc, hstrands, -⟩ := hgood
  cases hmove with
  | deregisterFailed hret =>
    -- the endpoint is registered
    have hregistered : s.hs.registered = true := hlink.at hpc
    simp [ipc, hregistered, not_le.2 hret] at hipc
  | registerFailed hret => simp [strands, hret] at hstrands
  | rollback _ | rollbackCancel _ | rollbackDrain _ => exact h
  | reconnect => exact h
  | install =>
    cases Sys.step_of_ctlNext hnext
    exact h
  | disconnect | cancel | deregister _ | take | readyDrain => trivial

theorem Session.next (h : s.Session s.pc) (hlink : Link s false) (hinv : Inv s)
    (hgood : s.Good a) (hs : s.next a = some s') : s'.Session s'.pc := by
  obtain ⟨hopen, hipc, hstrands, hcomes⟩ := id hgood
  cases step_of_next hs with
  | env henv hnext =>
    refine Session.after h henv ?_ hnext
    rintro hlinked rfl
    simp [comes, hlinked] at hcomes
  | call _ hpc => exact absurd hpc hopen
  | busy _ =>
    change Session _ s.pc
    revert h
    cases s.pc <;> exact id
  | ctl hpc hmove hnext => exact (sessionAt h hpc).ctlStep hlink hpc hmove hgood hnext
  | retained _ => cases hstrands
  | boundTimeout _ | readyTimeout _ _ => cases hcomes
  | corrupted hpc hcrc =>
    have hexec : crc32 s.exec = crc32 s.source := by simpa using (hlink.at hpc).2
    exact hcrc ((hinv.crc hpc rfl).trans hexec.symm)
  | intLost hpc hmask =>
    have hkept : s.vpr.inten &&& s.savedMask = s.savedMask := by simpa using (hlink.at hpc).2
    exact hmask hkept
  | reconnect _ => exact (nomatch ·)
  | admitSession hpc hnext =>
    cases Sys.step_of_ctlNext hnext
    exact ⟨rfl, ⟨(nomatch ·), (nomatch ·)⟩, sessionAt h hpc⟩
  | register hpc _ hnext =>
    cases Sys.step_of_ctlNext hnext
    exact sessionAt h hpc
  | bound hpc _ => exact (sessionAt h hpc).imp_right And.left
  | repost hpc => exact sessionAt h hpc
  | waitReady hpc hnext =>
    have hsession := sessionAt h hpc
    cases Sys.step_of_ctlNext hnext with
    | waitCancelled _ _ hclosed => cases hsession.1.symm.trans hclosed
    | waitFast _ _ _ _ _ => trivial
    | waitSlow _ _ _ => exact hsession
  | success _ => rfl
  | rollbackBound hpc | failStop hpc | failReset hpc | fail hpc => exact (sessionAt h hpc).elim
  | _ => trivial

/-! ### A call returns -/

/-- The steps that are left to the call, to the work it cancels and to the callback it waits for.  A
step of the call counts twice, since a deregistered endpoint is to be installed again. -/
def rank (s : Runtime) : ℕ :=
  2 * s.pc.rank + s.hs.work.rank + s.hs.rx.rank + (!s.hs.registered).toNat

/-- Some step needs no event and brings the return nearer. -/
def Advances (s : Runtime) : Prop :=
  ∃ a s', own a = true ∧ s.Good a ∧ s.next a = some s' ∧ s'.rank < s.rank

theorem advances_run (hopen : s.pc ≠ .idle) (hs : s.run = some s') (hrank : s'.rank < s.rank) :
    s.Advances :=
  ⟨.run, s', rfl, ⟨hopen, rfl, rfl, rfl⟩, hs, hrank⟩

theorem advances_ctl {pc pc' : Pc} {b : Handshake.Action} {hs : Sys} (hpc : s.pc = pc)
    (hmove : CtlMove pc .run b pc') (hnext : s.hs.ctlNext b = some hs)
    (hsame : hs.work = s.hs.work ∧ hs.rx = s.hs.rx ∧ hs.registered = s.hs.registered)
    (hrank : pc'.rank < pc.rank) : s.Advances := by
  have hrun : s.run = s.ctl b pc' := by
    cases hmove <;> simp only [Runtime.run, hpc]
  have hopen : s.pc ≠ .idle := by
    rw [hpc]
    cases hmove <;> simp
  refine advances_run hopen (hrun.trans (congrArg (Option.map _) hnext)) ?_
  simp only [rank, hsame.1, hsame.2.1, hsame.2.2, hpc]
  omega

theorem advances_env {b : Handshake.Action} {hs : Sys} (hopen : s.pc ≠ .idle)
    (hown : own (.env b) = true) (hnext : s.hs.next b = some hs)
    (hrank : hs.work.rank + hs.rx.rank < s.hs.work.rank + s.hs.rx.rank)
    (hregistered : hs.registered = s.hs.registered) : s.Advances := by
  have hgood : isEnv b = true ∧ s.Good (.env b) := by
    cases b <;> first | exact ⟨rfl, hopen, rfl, rfl, rfl⟩ | cases hown
  refine ⟨.env b, s.after b hs, hown, hgood.2, ?_, ?_⟩
  · change s.env b = _
    rw [env, if_pos hgood.1, hnext]
    rfl
  · simp only [rank, Runtime.after, hregistered]
    omega

theorem advances_cancel (hpc : s.pc = .cancel) (hclosing : s.hs.ctl = .closing) :
    s.Advances := by
  by_cases hwork : s.hs.work = .idle
  · exact advances_ctl hpc .cancel (Sys.ctlNext_cancel hclosing hwork) ⟨rfl, rfl, rfl⟩ (by decide)
  · obtain ⟨b, hs, hown, hnext, hrank, hrx, hregistered⟩ := Sys.work_moves hwork
    exact advances_env (by simp [hpc]) hown hnext (by rw [hrx]; omega) hregistered

theorem advances_register (hpc : s.pc = .register) (hregistering : s.hs.ctl = .registering) :
    s.Advances := by
  by_cases hregistered : s.hs.registered = true
  · refine ⟨.register 0, { s with
      hs := { s.hs with ctl := .idle }, status := s.stage .waitBound, pc := .waitBound }, rfl,
      ⟨by simp [hpc], rfl, rfl, rfl⟩, ?_, ?_⟩
    · simp [Runtime.next, hpc, Runtime.ctl, Sys.ctlNext_register hregistering hregistered]
    · simp [rank, hpc, Pc.rank]
  · refine ⟨.install, { s with hs := { s.hs with registered := true }, pc := .register }, rfl,
      ⟨by simp [hpc], rfl, rfl, rfl⟩, ?_, ?_⟩
    · simp [Runtime.next, hpc, Runtime.ctl, Sys.ctlNext_install hregistering]
    · simp [rank, hpc, Pc.rank, hregistered]

theorem advances_waitReady (hpc : s.pc = .waitReady) (hidle : s.hs.ctl = .idle)
    (havailable : s.hs.sessionAvailable = true) : s.Advances := by
  have hrun := congrArg (Option.map fun hs : Sys => { s with
    hs := hs, status := s.stage .waitReady, pc := .waiting hs.ctl })
    (Sys.ctlNext_wait hidle havailable s.epochBefore)
  refine advances_run (by simp [hpc]) (by simp only [Runtime.run, hpc]; exact hrun) ?_
  simp only [rank, hpc]
  split_ifs <;> simp [Pc.waiting, Pc.rank]

theorem advances_readyWaiting {previous : UInt32} (hpc : s.pc = .readyWaiting)
    (hwaiting : s.hs.ctl = .waiting previous)
    (hgiven : s.hs.newReadySem = true ∨ s.hs.rx.gives = true) : s.Advances := by
  by_cases hsem : s.hs.newReadySem = true
  · exact advances_ctl hpc .take (Sys.ctlNext_take hwaiting hsem) ⟨rfl, rfl, rfl⟩ (by decide)
  · obtain ⟨b, hs, hown, hnext, hrank, hwork, hregistered⟩ :=
      Sys.rx_moves (hgiven.resolve_left hsem)
    exact advances_env (by simp [hpc]) hown hnext (by rw [hwork]; omega) hregistered

/-- A call that meets no error is over, waits for the remote core, or goes on. -/
theorem progress (hinv : Inv s) (hlink : Link s false) (hsession : s.Session s.pc) :
    s.pc = .idle ∨ s.Awaits ∨ s.Advances := by
  have hctl := hlink.ctl
  have hreg := hlink.registered
  -- each place has a step that lowers the rank, or waits for a message of the remote core
  cases hpc : s.pc with rw [hpc] at hctl hreg hsession
  | idle => exact .inl rfl
  | rollback _ | rollbackCancel _ | rollbackBound _ | rollbackDrain _ | failStop _ | failReset _
  | fail _ => exact hsession.elim
  | snapshot | sourceCrc | drainBound | stop | assertReset | initpc | cpurun | release | reconnect
  | repost | success =>
    refine .inr (.inr (advances_run (by simp [hpc]) (by simp only [Runtime.run, hpc]; rfl) ?_))
    simp [rank, hpc, Pc.rank, succeed]
  | disconnect =>
    exact .inr (.inr (advances_ctl hpc .disconnect (Sys.ctlNext_disconnect hctl)
      ⟨rfl, rfl, rfl⟩ (by decide)))
  | cancel => exact .inr (.inr (advances_cancel hpc hctl))
  | deregister =>
    have hregistered : s.hs.registered = true := hreg
    have hclosed : s.hs.ctl = .closed := hctl
    refine .inr (.inr ⟨.deregister 0, { s with
      hs := { s.hs with registered := false, ctl := .idle }, pc := .stop }, rfl,
      ⟨by simp [hpc], by simp [ipc, hregistered], rfl, rfl⟩, ?_, ?_⟩)
    · simp [Runtime.next, Runtime.ctl, hpc, Sys.ctlNext_deregister hclosed]
    · simp only [rank, hpc, Pc.rank, hregistered, Bool.not_true, Bool.not_false, Bool.toNat_true,
        Bool.toNat_false]
      omega
  | retention =>
    refine .inr (.inr ⟨.retention true, { s with
      status := s.stage .assertReset, pc := .assertReset }, rfl,
      ⟨by simp [hpc], rfl, rfl, rfl⟩, ?_, ?_⟩)
    · simp [Runtime.next, hpc]
    · simp [rank, hpc, Pc.rank]
  | copy =>
    refine .inr (.inr ⟨.copy s.source, { s with
      exec := s.source
      status := { s.stage .copy with reloadBytes := UInt32.ofNat s.source.length }
      pc := .verify }, rfl, ⟨by simp [hpc], rfl, by simp [strands], rfl⟩, ?_, ?_⟩)
    · simp [Runtime.next, hpc]
    · simp [rank, hpc, Pc.rank]
  | verify =>
    have hexec : crc32 s.exec = crc32 s.source := by simpa using hreg.2
    -- without an error the copy has the checksum of the source
    have hcrc : s.expectedCrc = crc32 s.exec := (hinv.crc hpc rfl).trans hexec.symm
    refine .inr (.inr (advances_run (by simp [hpc])
      (by simp only [Runtime.run, hpc, if_pos hcrc]; rfl) ?_))
    simp [rank, hpc, Pc.rank]
  | intEnable =>
    refine .inr (.inr ⟨.intEnable s.savedMask, { s with
      vpr := { s.vpr with inten := s.vpr.inten ||| (s.savedMask &&& s.savedMask) }
      status := s.stage .reconnect
      pc := .intCheck }, rfl, ⟨by simp [hpc], rfl, by simp [strands], rfl⟩, ?_, ?_⟩)
    · simp only [Runtime.next, if_pos hpc]
    · simp [rank, hpc, Pc.rank]
  | intCheck =>
    have hmask : s.vpr.inten &&& s.savedMask = s.savedMask := by simpa using hreg.2
    refine .inr (.inr (advances_run (by simp [hpc])
      (by simp only [Runtime.run, hpc, if_pos hmask]; rfl) ?_))
    simp [rank, hpc, Pc.rank]
  | reconnectDrain =>
    exact .inr (.inr (advances_ctl hpc .reconnect (Sys.ctlNext_reconnect hctl)
      ⟨rfl, rfl, rfl⟩ (by decide)))
  | admitSession =>
    have hadmitting : s.hs.ctl = .admitting := hctl
    have hrun : s.run = some { s with
        hs := { s.hs with sessionAvailable := true, ctl := .registering }
        fresh := false, readied := false, pc := .register } := by
      simp only [Runtime.run, hpc, Runtime.ctl, Sys.ctlNext_makeAvailable hadmitting]
      rfl
    refine .inr (.inr (advances_run (by simp [hpc]) hrun ?_))
    simp [rank, hpc, Pc.rank]
  | register => exact .inr (.inr (advances_register hpc hctl))
  | waitBound =>
    obtain ⟨-, -, hbound⟩ := hsession
    -- the endpoint is bound by the remote core
    cases hb : s.bound with
    | false => exact .inr (.inl (.inl ⟨hpc, hb⟩))
    | true =>
      refine .inr (.inr (advances_run (by simp [hpc])
        (by simp only [Runtime.run, hpc, if_pos (hbound hb)]; rfl) ?_))
      simp [rank, hpc, Pc.rank]
  | waitReady => exact .inr (.inr (advances_waitReady hpc hctl hsession.1))
  | readyWaiting =>
    obtain ⟨previous, hwaiting⟩ := hctl
    obtain ⟨-, -, hsent⟩ := hsession
    -- READY comes from the remote core
    cases hr : s.readied with
    | false => exact .inr (.inl (.inr ⟨hpc, hr⟩))
    | true => exact .inr (.inr (advances_readyWaiting hpc hwaiting (hsent hr)))
  | readyDrain =>
    obtain ⟨previous, hsucceeding⟩ := hctl
    exact .inr (.inr (advances_ctl hpc .readyDrain (Sys.ctlNext_drain hsucceeding)
      ⟨rfl, rfl, rfl⟩ (by decide)))

/-! ### Runs of a later call -/

theorem Link.good (h : Link s stranded) (hinv : Inv s) (hgood : s.Good a)
    (hs : s.next a = some s') : Link s' stranded := by
  obtain ⟨-, hipc, hstrands, -⟩ := hgood
  have hlink := h.next hinv hipc hs
  rwa [hstrands, Bool.false_or] at hlink

theorem later_link (hinv : Inv s) (hlink : Link s stranded)
    (h : (laterCall s).ReachableBy Good t) : Inv t ∧ Link t stranded := by
  refine h.invariant (I := fun t => Inv t ∧ Link t stranded) ?_ ?_
  · rintro t ⟨timeoutMs, ht⟩
    exact ⟨hinv.next ht, hlink.next hinv rfl ht⟩
  · rintro t a t' ⟨hinv, hlink⟩ hgood hnext
    exact ⟨hinv.next hnext, hlink.good hinv hgood hnext⟩

theorem begin_of_call {timeoutMs : UInt32} (hs : s.next (.call timeoutMs) = some t) :
    t = s.begin timeoutMs := by
  simp only [Runtime.next] at hs
  split_ifs at hs
  exact (Option.some.inj hs).symm

theorem later_session (hinv : Inv s) (hlink : Link s false)
    (h : (laterCall s).ReachableBy Good t) : t.Session t.pc := by
  induction h with
  | init ht =>
    obtain ⟨timeoutMs, ht⟩ := ht
    obtain rfl := begin_of_call ht
    trivial
  | step ht hgood hnext ih =>
    obtain ⟨hinv, hlink⟩ := later_link hinv hlink ht
    exact ih.next hlink hinv hgood hnext

/-- A call that meets no error comes to its return, or to where it waits for the remote core. -/
theorem completes (hinv : Inv s) (hlink : Link s false) (h : (laterCall s).ReachableBy Good t) :
    ∃ as t', (∀ a ∈ as, own a = true) ∧ (laterCall s).runBy Good t as = some t' ∧
      (t'.pc = .idle ∨ t'.Awaits) := by
  induction hn : t.rank using Nat.strong_induction_on generalizing t with
  | _ n ih =>
    obtain ⟨htinv, htlink⟩ := later_link hinv hlink h
    rcases progress htinv htlink (later_session hinv hlink h) with hidle | hawaits | hadvances
    · exact ⟨[], t, by simp, rfl, .inl hidle⟩
    · exact ⟨[], t, by simp, rfl, .inr hawaits⟩
    · obtain ⟨a, t₁, hown, hgood, hnext, hrank⟩ := hadvances
      obtain ⟨as, t', howns, hrun, hend⟩ := ih _ (hn ▸ hrank) (h.step hgood hnext) rfl
      refine ⟨a :: as, t', by simpa using ⟨hown, howns⟩, ?_, hend⟩
      rw [Machine.runBy, if_pos hgood]
      exact Option.bind_eq_some_iff.2 ⟨t₁, hnext, hrun⟩

/-- Where a call can be, and what it returns, when the endpoint is not registered. -/
def Doomed (s : Runtime) : Pc → Prop
  | .idle => s.result ≠ 0
  | .snapshot | .sourceCrc | .disconnect | .drainBound | .cancel | .deregister | .fail _ => True
  | _ => False

theorem Doomed.next (h : s.Doomed s.pc) (hlink : Link s true) (hinv : Inv s) (hgood : s.Good a)
    (hs : s.next a = some s') : s'.Doomed s'.pc := by
  have hat : ∀ {pc : Pc}, s.pc = pc → s.Doomed pc := fun hpc => hpc ▸ h
  obtain ⟨hopen, hipc, -, -⟩ := hgood
  cases step_of_next hs with
  | env _ _ | busy _ =>
    change Doomed _ s.pc
    revert h
    cases s.pc <;> exact id
  | call _ hpc => exact absurd hpc hopen
  | ctl hpc hmove _ =>
    cases hmove with
    | deregister hret =>
      have hregistered : s.hs.registered = false := hlink.at hpc
      simp [ipc, hregistered, hret] at hipc
    | disconnect | cancel | deregisterFailed _ => trivial
    | _ => exact hat hpc
  | snapshot _ | sourceCrc _ | drainBound _ => trivial
  | fail hpc => exact hinv.failing _ (by rw [hpc]; rfl)
  | copy _ hpc | intEnable _ hpc | _ hpc => exact (hat hpc).elim

/-- A call that finds the endpoint unregistered does not return `0`. -/
theorem not_retryable_of_link (hinv : Inv s) (hlink : Link s true) (hidle : s.pc = .idle) :
    ¬ Retryable s := by
  intro hretryable
  have hcall : (laterCall s).ReachableBy Good (s.begin 0) :=
    .init ⟨0, by rw [Runtime.next, if_pos hidle]⟩
  have hdoomed : ∀ t, (laterCall s).ReachableBy Good t → t.Doomed t.pc := by
    intro t ht
    induction ht with
    | init h₀ =>
      obtain ⟨timeoutMs, h₀⟩ := h₀
      obtain rfl := begin_of_call h₀
      trivial
    | step ht hgood hnext ih =>
      obtain ⟨htinv, htlink⟩ := later_link hinv hlink ht
      exact ih.next htlink htinv hgood hnext
  obtain ⟨-, as, t, -, hrun, hend⟩ := hretryable _ hcall
  have ht := hcall.runBy hrun
  have hstuck := hdoomed t ht
  rcases hend with hreturned | ⟨hpc, -⟩ | ⟨hpc, -⟩
  · rw [hreturned] at hstuck
    exact hstuck ((hretryable t ht).1 hreturned)
  · rw [hpc] at hstuck
    exact hstuck
  · rw [hpc] at hstuck
    exact hstuck

theorem noted_link {p : Runtime × Bool} (h : noted.ReachableBy (fun p a => p.1.ipc a = true) p) :
    Inv p.1 ∧ Link p.1 p.2 := by
  refine h.invariant (I := fun p => Inv p.1 ∧ Link p.1 p.2) ?_ ?_
  · rintro ⟨s, stranded⟩ ⟨hs, rfl⟩
    refine ⟨inv_start hs, ?_, ?_⟩
    · rw [hs.pc]
      exact hs.hs.ctl
    · rw [hs.pc]
      exact hs.hs.registered
  · rintro p a p' ⟨hinv, hlink⟩ hipc hnext
    obtain ⟨hnext, hnote⟩ := Machine.watch_next hnext
    rw [hnote]
    exact ⟨hinv.next hnext, hlink.next hinv hipc hnext⟩

/-- **A call is retryable exactly if no check has failed before.**  After any run of restarts, in
which the IPC service refuses to deregister exactly where the endpoint is not registered, a later
call in which every check and the registration succeed and the remote core comes returns `0` if and
only if no check of the hardware and no registration has failed so far. -/
theorem retryable_iff {p : Runtime × Bool}
    (h : noted.ReachableBy (fun p a => p.1.ipc a = true) p) (hidle : p.1.pc = .idle) :
    Retryable p.1 ↔ p.2 = false := by
  obtain ⟨hinv, hlink⟩ := noted_link h
  constructor
  · intro hretryable
    cases hnote : p.2 with
    | false => rfl
    | true =>
      rw [hnote] at hlink
      exact absurd hretryable (not_retryable_of_link hinv hlink hidle)
  · intro hclean t ht
    rw [hclean] at hlink
    refine ⟨fun hreturned => ?_, completes hinv hlink ht⟩
    have hsession := later_session hinv hlink ht
    rw [hreturned] at hsession
    exact hsession

/-- The core is loaded and started again, and the endpoint is registered. -/
def toWaitBound : List Action :=
  toCopy ++ [.copy [0x13, 0x37], .run, .run, .run, .run, .intEnable 0xFFFFFFFF, .run, .run, .run,
    .run, .install, .register 0]

/-- A call is retryable after one in which the remote core was not bound in time. -/
theorem retryable_after_timeout :
    ∃ p : Runtime × Bool, p.1.pc = .idle ∧ p.1.result = -eagain ∧ Retryable p.1 := by
  have hrun : ((noted.runBy (fun p a => p.1.ipc a = true) (boot, false)
      (toWaitBound ++ [.boundTimeout, .run, .run, .run])).map
        fun p => (p.1.pc, p.1.result, p.2)) = some (.idle, -eagain, false) := by
    decide +kernel
  obtain ⟨p, hp, hstate⟩ := Option.map_eq_some_iff.1 hrun
  obtain ⟨hpc, hresult, hnote⟩ : p.1.pc = .idle ∧ p.1.result = -eagain ∧ p.2 = false := by
    simpa using hstate
  have hinit : noted.ReachableBy (fun p a => p.1.ipc a = true) (boot, false) :=
    .init ⟨start_boot, rfl⟩
  exact ⟨p, hpc, hresult, (retryable_iff (hinit.runBy hp) hpc).2 hnote⟩

/-- After the check of the context retention has failed, a call in which every check would succeed
cannot deregister the endpoint and fails. -/
theorem not_retryable : ¬ ∀ s, machine.ReachableBy (fun s a => s.ipc a = true) s → s.pc = .idle →
    Retryable s := by
  intro hall
  have hrun : ((machine.runBy (fun s a => s.ipc a = true) boot
      (toDeregister ++ [.deregister 0, .run, .retention false, .run, .run, .run])).bind
        fun s => ((laterCall s).runBy Good (s.begin 1500)
          (List.replicate 5 .run ++ [.deregister (-2), .run])).map
            fun t => (s.pc, t.pc, t.result)) = some (.idle, .idle, -2) := by
    decide +kernel
  obtain ⟨s, hs, hlater⟩ := Option.bind_eq_some_iff.1 hrun
  obtain ⟨t, ht, hstate⟩ := Option.map_eq_some_iff.1 hlater
  obtain ⟨hpc, hpc', hresult⟩ : s.pc = .idle ∧ t.pc = .idle ∧ t.result = -2 := by
    simpa using hstate
  have hreach := Machine.ReachableBy.runBy (.init start_boot) hs
  have hcall : (laterCall s).ReachableBy Good (s.begin 1500) :=
    .init ⟨1500, by rw [Runtime.next, if_pos hpc]⟩
  have hzero := (hall s hreach hpc t (hcall.runBy ht)).1 hpc'
  rw [hresult] at hzero
  cases hzero

end Runtime

end FlprRuntime

end LeAudioReceiver
