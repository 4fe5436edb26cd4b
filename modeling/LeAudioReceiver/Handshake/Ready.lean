import LeAudioReceiver.Handshake.System

/-!
# What a successful wait means

`flpr_handshake_wait_new_ready` is to return `0` only for a remote core that has booted and was
acknowledged in the session that is being opened.  `Log` notes what happens in a session: which
READYs arrive in it, which of them are acknowledged, and what the previous session left behind.

* `acked_sent` : in every run, `acked` means that READY_ACK was sent for the stored epoch;
* `wait_sound` : as long as nothing of the previous session is left when a session is admitted,
  and no READY brings back the previous epoch, a wait succeeds only for a READY of its session;
* `wait_leftover` : otherwise it can succeed although no READY has arrived.
-/

namespace LeAudioReceiver

namespace Handshake

/-- A READY is under way in the receive callback. -/
def RxPc.pendsReady : RxPc → Bool
  | .entered m _ _ => m.type = msgReady
  | .validated m _ => m.type = msgReady
  | .acking _ _ _ => true
  | .acked _ _ _ => true
  | .finishing giveNewReady _ => giveNewReady
  | _ => false

/-- What happens in a session. -/
structure Log where
  /-- A READY was under way or a token was left when the session was admitted. -/
  leftover : Bool
  /-- The stored epoch when the session was admitted. -/
  epoch : UInt32
  /-- Whether it was acknowledged. -/
  acked : Bool
  /-- The epochs of the READYs taken as new since. -/
  renewed : List UInt32
  /-- The running callback has started in this session. -/
  current : Bool
  /-- The epochs of the READYs that arrived in this session and were acknowledged. -/
  acks : List UInt32
  /-- The epochs for which READY_ACK was ever sent. -/
  sent : List UInt32

namespace Log

/-- Before the first session. -/
def empty : Log := ⟨false, 0, false, [], false, [], []⟩

/-- What a step adds. -/
def note (s : Sys) (a : Action) (_ : Sys) (l : Log) : Log :=
  match a with
  | .rxEnter _ _ => { l with current := true }
  | .rxHandle =>
    match s.rx with
    | .validated m _ =>
      if m.type = msgReady ∧ newEpoch s.peer m.data then
        { l with renewed := m.data :: l.renewed }
      else l
    | _ => l
  | .rxSend true =>
    match s.rx with
    | .acking epoch _ _ =>
      { l with
        sent := epoch :: l.sent, acks := if l.current then epoch :: l.acks else l.acks }
    | _ => l
  | .makeAvailable =>
    { l with
      leftover := s.rx.pendsReady || s.newReadySem, epoch := s.peer.epoch, acked := s.peer.acked
      renewed := [], current := false, acks := [] }
  | _ => l

/-- A READY of another epoch has arrived in this session and was acknowledged. -/
def Booted (l : Log) (previousEpoch : UInt32) : Prop := ∃ e ∈ l.acks, e ≠ previousEpoch

/-- The session was opened with nothing left of the one before, except an acknowledgement of
`previousEpoch`, and no READY has brought that epoch back. -/
def Fits (l : Log) (previousEpoch : UInt32) : Prop :=
  l.leftover = false ∧ (l.epoch = previousEpoch ∨ l.acked = false) ∧ previousEpoch ∉ l.renewed

instance (l : Log) (previousEpoch : UInt32) : Decidable (l.Fits previousEpoch) :=
  inferInstanceAs (Decidable (_ ∧ _))

end Log

namespace Sys

/-- The system with the log of the current session. -/
def logged : Machine (Sys × Log) Action := machine.watch Log.empty Log.note

/-- The READY being handled is taken as new, and carries this epoch. -/
def Renews (s : Sys) (epoch : UInt32) : Prop :=
  match s.rx with
  | .validated m _ => m.type = msgReady ∧ newEpoch s.peer m.data ∧ m.data = epoch
  | _ => False

/-- The epoch that a running wait was given is not brought back. -/
def KeepsEpoch (s : Sys) : Prop :=
  match s.ctl with
  | .waiting previousEpoch => ¬ s.Renews previousEpoch
  | _ => True

instance (s : Sys) (epoch : UInt32) : Decidable (s.Renews epoch) :=
  match s with
  | { rx := .validated _ _, .. } => inferInstanceAs (Decidable (_ ∧ _ ∧ _))
  | { rx := .idle, .. } | { rx := .entered .., .. } | { rx := .acking .., .. }
  | { rx := .acked .., .. } | { rx := .ackFailed _, .. } | { rx := .finishing .., .. }
  | { rx := .echoing, .. } | { rx := .echoFailed, .. } => inferInstanceAs (Decidable False)

instance (s : Sys) : Decidable s.KeepsEpoch := by
  unfold KeepsEpoch
  split <;> infer_instance

/-- A wait is called in a session that fits its argument, and does not see the epoch again. -/
def Fitting (p : Sys × Log) (a : Action) : Prop :=
  match a with
  | .wait previousEpoch => p.2.Fits previousEpoch
  | .rxHandle => p.1.KeepsEpoch
  | _ => True

instance (p : Sys × Log) (a : Action) : Decidable (Fitting p a) :=
  match a with
  | .wait previousEpoch => inferInstanceAs (Decidable (p.2.Fits previousEpoch))
  | .rxHandle => inferInstanceAs (Decidable p.1.KeepsEpoch)
  | .rxEnter .. | .rxValidate | .rxSend _ | .rxRecord | .rxFinish | .workBegin | .workSample
  | .workSend _ | .workRecord | .workCheck | .workCall | .workReschedule | .disconnect | .cancel
  | .deregister _ | .reconnect | .makeAvailable | .install | .register _ | .rollback | .drain
  | .take | .timeout | .epBound | .epUnbound | .elapse _ => inferInstanceAs (Decidable True)

/-! ### The invariant -/

/-- What the session so far has established. -/
structure LogInv (s : Sys) (l : Log) : Prop where
  acked : s.peer.acked = true → s.peer.epoch ∈ l.sent
  acking : ∀ e g st, s.rx = .acking e g st → s.peer.epoch = e
  ackSent : ∀ e g st, s.rx = .acked e g st →
    s.peer.epoch = e ∧ e ∈ l.sent ∧ (l.current = true → e ∈ l.acks)
  current : l.leftover = false → s.rx.pendsReady = true → l.current = true
  renewed : ∀ e st, s.rx = .acking e true st ∨ s.rx = .acked e true st → l.leftover = false →
    e ∈ l.renewed
  fast : ∀ e, l.Fits e → s.peer.acked = true → s.peer.epoch ≠ e → l.Booted e
  giving : ∀ e st, l.Fits e → s.rx = .finishing true st → l.Booted e
  token : ∀ e, l.Fits e → s.newReadySem = true → l.Booted e

/-- What the session has established for a wait. -/
structure WaitInv (s : Sys) (l : Log) : Prop where
  waiting : ∀ e, s.ctl = .waiting e → l.Fits e
  succeeding : ∀ e, s.ctl = .succeeding e → l.Booted e

/-- A step that neither takes a READY on nor sends its acknowledgement. -/
structure Calm (s s' : Sys) : Prop where
  acked : s'.peer.acked = true → s.peer.acked = true
  epoch : s'.peer.epoch = s.peer.epoch
  token : s'.newReadySem = true → s.newReadySem = true
  acking : ∀ e g st, s'.rx = .acking e g st → s.rx = .acking e g st
  ackSent : ∀ e g st, s'.rx = .acked e g st → s.rx = .acked e g st
  giving : ∀ st, s'.rx = .finishing true st → s.rx = .finishing true st
  pends : s'.rx.pendsReady = true → s.rx.pendsReady = true

section Runs

variable {s s' : Sys} {l : Log} {a : Action}

theorem Calm.of_rx (hp : s'.peer.acked = true → s.peer.acked = true)
    (he : s'.peer.epoch = s.peer.epoch) (ht : s'.newReadySem = true → s.newReadySem = true)
    (hrx : s'.rx = s.rx) : Calm s s' :=
  ⟨hp, he, ht, fun _ _ _ h => hrx ▸ h, fun _ _ _ h => hrx ▸ h, fun _ h => hrx ▸ h,
    fun h => hrx ▸ h⟩

theorem LogInv.calm (h : s.LogInv l) (hc : Calm s s') : s'.LogInv l where
  acked hacked := hc.epoch ▸ h.acked (hc.acked hacked)
  acking e g st hrx := hc.epoch.trans (h.acking e g st (hc.acking e g st hrx))
  ackSent e g st hrx := by
    rw [hc.epoch]
    exact h.ackSent e g st (hc.ackSent e g st hrx)
  current hl hrx := h.current hl (hc.pends hrx)
  renewed e st hrx := h.renewed e st (hrx.imp (hc.acking e true st) (hc.ackSent e true st))
  fast e hfits hacked hne := h.fast e hfits (hc.acked hacked) (hc.epoch ▸ hne)
  giving e st hfits hrx := h.giving e st hfits (hc.giving st hrx)
  token e hfits ht := h.token e hfits (hc.token ht)

theorem calm_check (wasHealthy : Bool) (nowMs : ℕ) : Calm s (s.check wasHealthy nowMs) := by
  obtain ⟨hacked, hepoch, -⟩ := @peerCheckHealth_session { s.peer with txSeq := s.peer.txSeq + 1 }
    (UInt32.ofNat nowMs)
  exact .of_rx (fun h => hacked ▸ h) hepoch id rfl

theorem calm_handle {m : Msg} {nowMs : ℕ} (hm : m.type ≠ msgReady) : Calm s (s.handle m nowMs) := by
  unfold handle
  rw [if_neg hm]
  split_ifs
  · -- the answer to a heartbeat
    obtain ⟨h₁, h₂, -⟩ := @peerCheckHealth_session
      (peerRxSeq s.peer m.seq (UInt32.ofNat nowMs)) (UInt32.ofNat nowMs)
    obtain ⟨h₃, h₄, -⟩ := @peerRxSeq_session s.peer m.seq (UInt32.ofNat nowMs)
    have hrx : (s.handleHeartbeat m.seq nowMs).rx = .echoing ∨
        (s.handleHeartbeat m.seq nowMs).rx = .idle := by
      unfold handleHeartbeat
      dsimp only
      split_ifs
      · exact .inl rfl
      · exact .inr rfl
    refine ⟨fun h => ?_, h₂.trans h₄, id, ?_, ?_, ?_, ?_⟩
    · exact h₃ ▸ h₁ ▸ h
    all_goals rcases hrx with hrx | hrx <;> rw [hrx] <;> simp [RxPc.pendsReady]
  · have hp : (peerHandleHeartbeatAck s.peer m.seq).acked = s.peer.acked ∧
        (peerHandleHeartbeatAck s.peer m.seq).epoch = s.peer.epoch := by
      unfold peerHandleHeartbeatAck
      split_ifs <;> exact ⟨rfl, rfl⟩
    exact ⟨fun h => hp.1 ▸ h, hp.2, id, nofun, nofun, nofun, nofun⟩
  · exact ⟨id, rfl, id, nofun, nofun, nofun, nofun⟩
  · exact ⟨id, rfl, id, nofun, nofun, nofun, nofun⟩

theorem calm_of_step (hs : Step s a s') (h₁ : ∀ m len, a ≠ .rxEnter m len) (h₂ : a ≠ .rxHandle)
    (h₃ : a ≠ .rxSend true) (h₄ : a ≠ .rxRecord) (h₅ : a ≠ .rxFinish) : Calm s s' := by
  cases hs with
  | enter m len => exact absurd rfl (h₁ m len)
  | handle => exact absurd rfl h₂
  | ackSent | echoSent => exact absurd rfl h₃
  | recordAck | recordAckLost | recordEchoLost => exact absurd rfl h₄
  | give | finish => exact absurd rfl h₅
  | accept hrx hv =>
    have hp := (msgValidate_frame hv).1
    refine ⟨fun h => hp.1 ▸ h, hp.2, id, nofun, nofun, nofun, fun h => ?_⟩
    rw [hrx]
    exact h
  | reject hrx hv =>
    have hp := (msgValidate_frame hv).1
    exact ⟨fun h => hp.1 ▸ h, hp.2, id, nofun, nofun, nofun, nofun⟩
  | ackLost hrx => exact ⟨id, rfl, id, nofun, nofun, nofun, nofun⟩
  | echoLost hrx => exact ⟨id, rfl, id, nofun, nofun, nofun, nofun⟩
  | check hw => exact calm_check _ _
  | take _ hsem => exact .of_rx id rfl nofun rfl
  | disconnect | reconnect | drain | succeed => exact .of_rx id rfl nofun rfl
  | epUnbound => exact .of_rx nofun rfl nofun rfl
  | _ => exact .of_rx id rfl id rfl

/-! ### One step -/

theorem LogInv.handleReady (h : s.LogInv l) {m : Msg} {nowMs : ℕ} (hrx : s.rx = .validated m nowMs)
    (hm : m.type = msgReady) :
    (s.handleReady m.data).LogInv (Log.note s .rxHandle (s.handleReady m.data) l) := by
  have hpends : s.rx.pendsReady = true := by
    rw [hrx]
    exact decide_eq_true hm
  by_cases hnew : newEpoch s.peer m.data = true
  · -- a new epoch is not acknowledged yet
    have hnote : Log.note s .rxHandle (s.handleReady m.data) l =
        { l with renewed := m.data :: l.renewed } := by
      simp only [Log.note, hrx]
      exact if_pos ⟨hm, hnew⟩
    have hacked : (peerHandleReady s.peer m.data).1.acked = false := by
      unfold peerHandleReady
      rw [if_pos hnew]
    have hepoch : (peerHandleReady s.peer m.data).1.epoch = m.data := by
      unfold peerHandleReady
      rw [if_pos hnew]
    have hfits : ∀ e, ({ l with renewed := m.data :: l.renewed } : Log).Fits e → l.Fits e :=
      fun e hfits => ⟨hfits.1, hfits.2.1, fun hmem => hfits.2.2 (List.mem_cons_of_mem _ hmem)⟩
    rw [hnote]
    -- what the READY leaves to its acknowledgement
    refine ⟨fun ha => ?_, fun e g st ha => ?_, nofun, fun hl _ => h.current hl hpends, ?_, ?_,
      nofun, fun e he ht => h.token e (hfits e he) ht⟩
    · exact absurd (hacked ▸ ha) Bool.false_ne_true
    · obtain ⟨rfl, -⟩ := RxPc.acking.inj ha
      exact hepoch
    · rintro e st (ha | ha) -
      · obtain ⟨rfl, -⟩ := RxPc.acking.inj ha
        exact List.mem_cons_self
      · exact RxPc.noConfusion ha
    · intro e _ ha
      exact absurd (hacked ▸ ha) Bool.false_ne_true
  · -- a duplicate keeps the epoch and its acknowledgement
    have hsame : m.data = s.peer.epoch := by
      by_contra hne
      exact hnew (decide_eq_true (.inr hne))
    have hready : peerHandleReady s.peer m.data =
        ({ s.peer with ready := true, readyCount := s.peer.readyCount + 1, epoch := m.data },
          false) := by
      unfold peerHandleReady
      rw [if_neg hnew]
    have hnote : Log.note s .rxHandle (s.handleReady m.data) l = l := by
      simp only [Log.note, hrx]
      exact if_neg fun hboth => hnew hboth.2
    rw [hnote]
    unfold Sys.handleReady
    rw [hready]
    refine ⟨fun ha => ?_, fun e g st ha => ?_, nofun, fun hl _ => h.current hl hpends, ?_, ?_,
      nofun, h.token⟩
    · exact hsame ▸ h.acked ha
    · obtain ⟨rfl, -⟩ := RxPc.acking.inj ha
      rfl
    · rintro e st (ha | ha) -
      · obtain ⟨-, hgive, -⟩ := RxPc.acking.inj ha
        exact absurd hgive Bool.false_ne_true
      · exact RxPc.noConfusion ha
    · intro e he ha hne
      exact h.fast e he ha (hsame ▸ hne)

theorem note_handle {m : Msg} {nowMs : ℕ} (hrx : s.rx = .validated m nowMs)
    (hm : m.type ≠ msgReady) : Log.note s .rxHandle s' l = l := by
  simp only [Log.note, hrx]
  exact if_neg fun hboth => hm hboth.1

theorem LogInv.ackSent_step (h : s.LogInv l) {epoch : UInt32} {give start : Bool}
    (hrx : s.rx = .acking epoch give start) :
    LogInv { s with rx := .acked epoch give start }
      { l with
        sent := epoch :: l.sent, acks := if l.current then epoch :: l.acks else l.acks } := by
  have hpends : s.rx.pendsReady = true := by rw [hrx, RxPc.pendsReady]
  have hbooted : ∀ e, l.Booted e → Log.Booted
      { l with
        sent := epoch :: l.sent, acks := if l.current then epoch :: l.acks else l.acks } e := by
    rintro e ⟨e', hmem, hne⟩
    refine ⟨e', ?_, hne⟩
    dsimp only
    split_ifs
    · exact List.mem_cons_of_mem _ hmem
    · exact hmem
  refine ⟨fun ha => List.mem_cons_of_mem _ (h.acked ha), nofun, fun e g st ha => ?_,
    fun hl _ => h.current hl hpends, ?_, fun e hfits ha hne => hbooted e (h.fast e hfits ha hne),
    nofun, fun e hfits ht => hbooted e (h.token e hfits ht)⟩
  · obtain ⟨rfl, -⟩ := RxPc.acked.inj ha
    refine ⟨h.acking _ _ _ hrx, List.mem_cons_self, fun hcurrent => ?_⟩
    dsimp only at hcurrent ⊢
    rw [if_pos hcurrent]
    exact List.mem_cons_self
  · rintro e st (ha | ha) hl
    · exact RxPc.noConfusion ha
    · obtain ⟨rfl, rfl, rfl⟩ := RxPc.acked.inj ha
      exact h.renewed _ _ (.inl hrx) hl

theorem LogInv.recordAck_step (h : s.LogInv l) {epoch : UInt32} {give start : Bool}
    (hrx : s.rx = .acked epoch give start) :
    LogInv { s with peer := { s.peer with acked := true }, rx := .finishing give start } l := by
  have hpends : s.rx.pendsReady = true := by rw [hrx, RxPc.pendsReady]
  obtain ⟨hepoch, hsent, hack⟩ := h.ackSent _ _ _ hrx
  refine ⟨fun _ => hepoch ▸ hsent, nofun, nofun, fun hl _ => h.current hl hpends, ?_, ?_, ?_,
    h.token⟩
  · rintro e st (ha | ha)
    · exact RxPc.noConfusion ha
    · exact RxPc.noConfusion ha
  · intro e hfits _ hne
    exact ⟨epoch, hack (h.current hfits.1 hpends), fun heq => hne (hepoch.trans heq)⟩
  · intro e st hfits ha
    obtain ⟨rfl, rfl⟩ := RxPc.finishing.inj ha
    -- the token is for an epoch that was new in this session
    have hmem := h.renewed _ _ (.inr hrx) hfits.1
    exact ⟨epoch, hack (h.current hfits.1 hpends), fun heq => hfits.2.2 (heq ▸ hmem)⟩

theorem LogInv.makeAvailable_step (h : s.LogInv l) (hs : Step s .makeAvailable s') :
    s'.LogInv (Log.note s .makeAvailable s' l) := by
  cases hs
  have hclean : ∀ {l' : Log}, l' = Log.note s .makeAvailable s l → l'.leftover = false →
      s.rx.pendsReady = false ∧ s.newReadySem = false := by
    rintro l' rfl hl
    exact Bool.or_eq_false_iff.1 hl
  refine ⟨h.acked, h.acking, fun e g st hrx => ?_, ?_, ?_, ?_, ?_, ?_⟩
  · obtain ⟨hepoch, hsent, -⟩ := h.ackSent e g st hrx
    exact ⟨hepoch, hsent, nofun⟩
  · intro hl hrx
    exact absurd ((hclean rfl hl).1.symm.trans hrx) Bool.false_ne_true
  · intro e st hrx hl
    have hpends : s.rx.pendsReady = true := by
      rcases hrx with hrx | hrx <;> rw [show s.rx = _ from hrx, RxPc.pendsReady]
    exact absurd ((hclean rfl hl).1.symm.trans hpends) Bool.false_ne_true
  · intro e hfits hacked hne
    rcases hfits.2.1 with he | he
    · exact absurd he hne
    · exact absurd (he.symm.trans hacked) Bool.false_ne_true
  · intro e st hfits hrx
    have hpends : s.rx.pendsReady = true := by rw [show s.rx = _ from hrx, RxPc.pendsReady]
    exact absurd ((hclean rfl hfits.1).1.symm.trans hpends) Bool.false_ne_true
  · intro e hfits ht
    exact absurd ((hclean rfl hfits.1).2.symm.trans ht) Bool.false_ne_true

theorem LogInv.step (h : s.LogInv l) (hs : Step s a s') : s'.LogInv (Log.note s a s' l) := by
  cases hs with
  | enter m len =>
    exact ⟨h.acked, nofun, nofun, fun _ _ => rfl, fun e st ha => by simp at ha, h.fast, nofun,
      h.token⟩
  | @handle m nowMs hrx =>
    by_cases hm : m.type = msgReady
    · unfold Sys.handle
      rw [if_pos hm]
      exact h.handleReady hrx hm
    · rw [note_handle hrx hm]
      exact h.calm (calm_handle hm)
  | ackSent hrx =>
    simp only [Log.note, hrx]
    exact h.ackSent_step hrx
  | echoSent hrx =>
    simp only [Log.note, hrx]
    exact h.calm ⟨id, rfl, id, nofun, nofun, nofun, nofun⟩
  | recordAck hrx => exact h.recordAck_step hrx
  | recordAckLost hrx => exact h.calm ⟨id, rfl, id, nofun, nofun, nofun, nofun⟩
  | recordEchoLost hrx => exact h.calm ⟨id, rfl, id, nofun, nofun, nofun, nofun⟩
  | give hrx =>
    exact ⟨h.acked, nofun, nofun, nofun, fun e st ha => by simp at ha, h.fast, nofun,
      fun e hfits _ => h.giving e _ hfits hrx⟩
  | finish hrx => exact h.calm ⟨id, rfl, id, nofun, nofun, nofun, nofun⟩
  | makeAvailable hc => exact h.makeAvailable_step (.makeAvailable hc)
  | accept hrx hv =>
    exact h.calm (calm_of_step (.accept hrx hv) nofun nofun nofun nofun nofun)
  | reject hrx hv =>
    exact h.calm (calm_of_step (.reject hrx hv) nofun nofun nofun nofun nofun)
  | ackLost hrx => exact h.calm (calm_of_step (.ackLost hrx) nofun nofun nofun nofun nofun)
  | echoLost hrx => exact h.calm (calm_of_step (.echoLost hrx) nofun nofun nofun nofun nofun)
  | check hw => exact h.calm (calm_check _ _)
  | take hc ht => exact h.calm (.of_rx id rfl nofun rfl)
  | disconnect | reconnect | drain | succeed => exact h.calm (.of_rx id rfl nofun rfl)
  | epUnbound => exact h.calm (.of_rx nofun rfl nofun rfl)
  | _ => exact h.calm (.of_rx id rfl id rfl)

theorem WaitInv.keep (hw : s.WaitInv l) {l' : Log} (hctl : s'.ctl = s.ctl)
    (hfits : ∀ e, s.ctl = .waiting e → l.Fits e → l'.Fits e)
    (hbooted : ∀ e, l.Booted e → l'.Booted e) : s'.WaitInv l' where
  waiting e he := hfits e (hctl ▸ he) (hw.waiting e (hctl ▸ he))
  succeeding e he := hbooted e (hw.succeeding e (hctl ▸ he))

theorem WaitInv.same (hw : s.WaitInv l) (hctl : s'.ctl = s.ctl) : s'.WaitInv l :=
  hw.keep hctl (fun _ _ h => h) fun _ h => h

theorem WaitInv.handle (hw : s.WaitInv l) {m : Msg} {nowMs : ℕ} (hrx : s.rx = .validated m nowMs)
    (hkeep : s.KeepsEpoch) (hctl : s'.ctl = s.ctl) :
    s'.WaitInv (Log.note s .rxHandle s' l) := by
  simp only [Log.note, hrx]
  split_ifs with hnew
  · refine hw.keep hctl (fun e he hfits => ⟨hfits.1, hfits.2.1, fun hmem => ?_⟩) fun _ h => h
    rcases List.mem_cons.1 hmem with rfl | hmem
    · -- the epoch that is waited for would be brought back
      rw [KeepsEpoch, he] at hkeep
      refine hkeep ?_
      rw [Renews, hrx]
      exact ⟨hnew.1, hnew.2, rfl⟩
    · exact hfits.2.2 hmem
  · exact hw.same hctl

theorem handle_ctl (m : Msg) (nowMs : ℕ) : (s.handle m nowMs).ctl = s.ctl := by
  unfold Sys.handle
  split_ifs <;> rfl

theorem WaitInv.step (h : s.LogInv l) (hw : s.WaitInv l) (hok : Fitting (s, l) a)
    (hs : Step s a s') : s'.WaitInv (Log.note s a s' l) := by
  cases hs with
  | enter m len => exact hw.keep rfl (fun _ _ h => h) fun _ h => h
  | handle hrx => exact hw.handle hrx hok (handle_ctl _ _)
  | ackSent hrx =>
    simp only [Log.note, hrx]
    refine hw.keep rfl (fun _ _ h => h) fun e hbooted => ?_
    obtain ⟨e', hmem, hne⟩ := hbooted
    refine ⟨e', ?_, hne⟩
    dsimp only
    split_ifs
    · exact List.mem_cons_of_mem _ hmem
    · exact hmem
  | echoSent hrx =>
    simp only [Log.note, hrx]
    exact hw.same rfl
  | waitCancelled previous hc => exact hw.same rfl
  | waitFast hc _ _ hacked hne =>
    refine ⟨nofun, fun e he => ?_⟩
    obtain rfl := CtlPc.succeeding.inj he
    exact h.fast _ hok hacked hne
  | waitSlow previous hc =>
    refine ⟨fun e he => ?_, nofun⟩
    obtain rfl := CtlPc.waiting.inj he
    exact hok
  | take hc ht =>
    refine ⟨nofun, fun e he => ?_⟩
    obtain rfl := CtlPc.succeeding.inj he
    exact h.token _ (hw.waiting _ hc) ht
  | disconnect | cancel | cancelAgain | deregister | reconnect | makeAvailable | install
  | register | registerFailed | rollback | drain | succeed | timeout => exact ⟨nofun, nofun⟩
  | _ => exact hw.same rfl

theorem logInv_init {p : Sys × Log} (h : logged.init p) : p.1.LogInv p.2 ∧ p.1.WaitInv p.2 := by
  obtain ⟨s, l⟩ := p
  obtain ⟨hs, hl⟩ := h
  obtain rfl : l = Log.empty := hl
  have hacked : s.peer.acked = false := by rw [hs.peer, peerReset]
  refine ⟨⟨fun ha => ?_, fun e g st hrx => ?_, fun e g st hrx => ?_, fun _ hrx => ?_,
    fun e st hrx => ?_, fun e _ ha => ?_, fun e st _ hrx => ?_, fun e _ ht => ?_⟩,
    fun e he => ?_, fun e he => ?_⟩
  · exact absurd (hacked.symm.trans ha) Bool.false_ne_true
  · exact RxPc.noConfusion (hs.rx.symm.trans hrx)
  · exact RxPc.noConfusion (hs.rx.symm.trans hrx)
  · rw [hs.rx] at hrx
    exact absurd hrx Bool.false_ne_true
  · rcases hrx with hrx | hrx <;> exact RxPc.noConfusion (hs.rx.symm.trans hrx)
  · exact absurd (hacked.symm.trans ha) Bool.false_ne_true
  · exact RxPc.noConfusion (hs.rx.symm.trans hrx)
  · exact absurd (hs.newReadySem.symm.trans ht) Bool.false_ne_true
  · exact CtlPc.noConfusion (hs.ctl.symm.trans he)
  · exact CtlPc.noConfusion (hs.ctl.symm.trans he)

/-! ### Runs -/

/-- In every run, `acked` means that READY_ACK was sent for the stored epoch. -/
theorem acked_sent {p : Sys × Log} (h : logged.Reachable p) (hacked : p.1.peer.acked = true) :
    p.1.peer.epoch ∈ p.2.sent := by
  have hinv : p.1.LogInv p.2 := by
    refine h.invariant (fun p h₀ => (logInv_init h₀).1) fun p a p' hp hnext => ?_
    obtain ⟨hs, hl⟩ := Machine.watch_next hnext
    rw [hl]
    exact hp.step (step_of_next hs)
  exact hinv.acked hacked

/-- **A successful wait.**  In every run whose waits are called in a session that fits their
argument, a wait that will return `0` is one in whose session a READY of another epoch has arrived
and was acknowledged; and `acked` means that READY_ACK was sent for the stored epoch. -/
theorem wait_sound {p : Sys × Log} (h : logged.ReachableBy Fitting p) :
    (∀ previousEpoch, p.1.ctl = .succeeding previousEpoch → p.2.Booted previousEpoch) ∧
      (p.1.peer.acked = true → p.1.peer.epoch ∈ p.2.sent) := by
  have hinv : p.1.LogInv p.2 ∧ p.1.WaitInv p.2 := by
    refine h.invariant (fun p h₀ => logInv_init h₀) fun p a p' hp hok hnext => ?_
    obtain ⟨hs, hl⟩ := Machine.watch_next hnext
    rw [hl]
    exact ⟨hp.1.step (step_of_next hs), hp.2.step hp.1 hok (step_of_next hs)⟩
  exact ⟨hinv.2.succeeding, hinv.1.acked⟩

end Runs

/-! ### Two restarts -/

theorem logged_boot : logged.init (boot, Log.empty) := ⟨start_boot, rfl⟩

/-- From the end of `flpr_handshake_disconnect` to that of `flpr_handshake_reconnect`. -/
def reopen : List Action :=
  [.cancel, .deregister true, .reconnect, .makeAvailable, .install, .register true]

/-- A restart of a remote core that boots again with epoch `2`. -/
theorem wait_sound_restart : ∃ p, logged.ReachableBy Fitting p ∧ p.1.ctl = .succeeding 1 ∧
    p.2.Booted 1 := by
  have hrun : (logged.runBy Fitting (boot, Log.empty)
      (readyAcked 1 ++ .disconnect :: reopen ++ readyAcked 2 ++ [.wait 1])).map
        (fun p => p.1.ctl) = some (.succeeding 1) := by
    decide +kernel
  obtain ⟨p, hp, hctl⟩ := Option.map_eq_some_iff.1 hrun
  have hreach : logged.ReachableBy Fitting p := Machine.ReachableBy.runBy (.init logged_boot) hp
  exact ⟨p, hreach, hctl, (wait_sound hreach).1 1 hctl⟩

/-- The status is read at epoch `1`; before the session is closed a READY with epoch `2` arrives.
After the restart a wait for another epoch than `1` succeeds at once, and no READY has arrived. -/
theorem wait_leftover : ¬ ∀ p as bs p', logged.Reachable p →
    logged.run p (as ++ .disconnect :: bs) = some p' →
    p'.1.ctl = .succeeding p.1.peer.epoch → p'.2.Booted p.1.peer.epoch := by
  intro hall
  have hrun : ((logged.run (boot, Log.empty) (readyAcked 1)).bind fun p =>
      (logged.run p (readyAcked 2 ++ .disconnect :: (reopen ++ [.wait 1]))).map fun p' =>
        (p.1.peer.epoch, p'.1.ctl, p'.2.acks)) = some (1, .succeeding 1, []) := by
    decide +kernel
  obtain ⟨p, hp, hrun⟩ := Option.bind_eq_some_iff.1 hrun
  obtain ⟨p', hp', hread⟩ := Option.map_eq_some_iff.1 hrun
  obtain ⟨hepoch, hrest⟩ := Prod.mk.inj hread
  obtain ⟨hctl, hacks⟩ := Prod.mk.inj hrest
  have hreach : logged.Reachable p := Machine.Reachable.run (.init logged_boot) hp
  rw [← hepoch] at hctl
  obtain ⟨e, he, -⟩ := hall p _ _ p' hreach hp' hctl
  rw [hacks] at he
  exact absurd he List.not_mem_nil

end Sys

end Handshake

end LeAudioReceiver
