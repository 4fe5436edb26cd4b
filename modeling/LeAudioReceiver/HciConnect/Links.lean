import LeAudioReceiver.HciConnect.Basic

/-!
# Which links the raw HCI connect helper reports

The events of the controller do not name their attempt, so the session reads them by its state.  A
link is reported when its connection-complete arrives while the session waits for one, and it is
missed when the completion arrives behind the cancel.

* `ConnectSession.handleEvent_spec` : an event keeps the handle of the session, unless it is the
  successful completion that the session waits for;
* `Main.connects_of_timely` : in every run whose packets are timely, exactly the links that come up
  are reported, and no attempt starts behind a link or a fatal status;
* `Main.link_missed` : a completion behind the cancel is missed.
-/

namespace LeAudioReceiver

namespace HciConnect

/-! ### The session -/

/-- The handle in a result. -/
def Result.link : Result → Option ℕ
  | .success handle => some handle
  | .fatalStatus _ => none
  | .linkDown handle _ => some handle

namespace ConnectSession

variable {s s' : ConnectSession}

/-- The handle of the link that a session has reported. -/
def link (s : ConnectSession) : Option ℕ := s.result.bind Result.link

/-- A session is connected if it has reported a link. -/
def Settled (s : ConnectSession) : Prop := s.state = .connected ↔ s.link ≠ none

theorem isDone_of_link {h : ℕ} (hlink : s.link = some h) : s.isDone = true := by
  obtain ⟨r, hr, -⟩ := Option.bind_eq_some_iff.1 hlink
  rw [isDone, hr, Option.isSome_some]

theorem Settled.of_result (hs : s.Settled) (hresult : s'.result = s.result)
    (hstate : s'.state = .connected ↔ s.state = .connected) : s'.Settled := by
  unfold Settled link
  rw [hresult, hstate]
  exact hs

/-- What an event may do to a session: the handle is kept, or it is that of a completion. -/
structure Follows (s : ConnectSession) (evt : Event) (s' : ConnectSession) : Prop where
  peer : s'.peer = s.peer
  settled : s'.Settled
  link : s'.link = s.link ∨
    ∃ h, s.state = .inProgress ∧ evt = .leConnComplete 0 h s.peer ∧ s'.link = some h
  done : s.isDone = true → s'.isDone = true

theorem Follows.of_result {evt : Event} (hs : s.Settled) (hpeer : s'.peer = s.peer)
    (hresult : s'.result = s.result) (hstate : s'.state = .connected ↔ s.state = .connected) :
    Follows s evt s' := by
  refine ⟨hpeer, hs.of_result hresult hstate, .inl ?_, fun hdone => ?_⟩
  · unfold ConnectSession.link
    rw [hresult]
  · unfold isDone at hdone ⊢
    rw [hresult]
    exact hdone

theorem Follows.refl {evt : Event} (hs : s.Settled) : Follows s evt s :=
  .of_result hs rfl rfl Iff.rfl

theorem onPendingStatus_spec (hs : s.Settled) (hstate : s.state = .pendingStatus) (evt : Event) :
    Follows s evt (s.onPendingStatus evt).2 := by
  have hlink : s.link = none := by
    by_contra hne
    exact absurd (hstate.symm.trans (hs.2 hne)) (by decide)
  unfold onPendingStatus
  split
  · split
    · split
      · exact .of_result hs rfl rfl (by simp [hstate])
      · dsimp only
        split
        · refine ⟨rfl, ⟨fun h => (by cases h), fun h => absurd rfl h⟩, .inl ?_, fun _ => rfl⟩
          rw [hlink]
          rfl
        · exact .of_result hs rfl rfl (by simp [hstate])
    · exact .refl hs
  · exact .refl hs

theorem onInProgress_spec (hs : s.Settled) (hstate : s.state = .inProgress) (evt : Event) :
    Follows s evt (s.onInProgress evt).2 := by
  unfold onInProgress
  split
  · rename_i status handle peer
    split
    · rename_i hpeer
      split
      · rename_i hstatus
        subst hstatus
        subst hpeer
        exact ⟨rfl, ⟨fun _ h => (by cases h), fun _ => rfl⟩, .inr ⟨handle, hstate, rfl, rfl⟩,
          fun _ => rfl⟩
      · exact .of_result hs rfl rfl (by simp [hstate])
    · exact .refl hs
  · exact .refl hs

theorem onCancelSent_spec (hs : s.Settled) (hstate : s.state = .cancelSent) (evt : Event) :
    Follows s evt (s.onCancelSent evt).2 := by
  unfold onCancelSent
  split
  · split
    · exact .of_result hs rfl rfl (by simp [hstate])
    · exact .refl hs
  · split
    · exact .of_result hs rfl rfl (by simp [hstate])
    · exact .refl hs
  · exact .refl hs

theorem onConnected_spec (hs : s.Settled) (hstate : s.state = .connected) (evt : Event) :
    Follows s evt (s.onConnected evt).2 := by
  unfold onConnected
  split
  · rename_i handle reason
    split
    · rename_i hhandle
      -- the result is a link, so its second component is the handle of the link
      obtain ⟨r, hr, hsecond⟩ := Option.map_eq_some_iff.1 hhandle
      have hlink : s.link = some handle := by
        have hne := hs.1 hstate
        unfold ConnectSession.link at hne ⊢
        rw [hr] at hne ⊢
        cases r with
        | success h => exact congrArg some hsecond
        | fatalStatus st => exact absurd rfl hne
        | linkDown h reason => exact congrArg some hsecond
      refine ⟨rfl, ⟨fun _ h => (by cases h), fun _ => hstate⟩, .inl ?_, fun _ => rfl⟩
      rw [hlink]
      rfl
    · exact .refl hs
  · exact .refl hs

/-- An event keeps the handle, unless it completes the attempt with success. -/
theorem handleEvent_spec (hs : s.Settled) (evt : Event) : Follows s evt (s.handleEvent evt).2 := by
  unfold handleEvent
  split
  · exact .refl hs
  · rename_i hstate
    exact onPendingStatus_spec hs hstate evt
  · rename_i hstate
    exact onInProgress_spec hs hstate evt
  · rename_i hstate
    exact onCancelSent_spec hs hstate evt
  · rename_i hstate
    exact onConnected_spec hs hstate evt

theorem handleEvent_success (hstate : s.state = .inProgress) (h : ℕ) :
    s.handleEvent (.leConnComplete 0 h s.peer) =
      ([.success h], { s with state := .connected, result := some (.success h) }) := by
  simp [handleEvent, hstate, onInProgress]

/-- A completion with a failure ends the attempt that the session waits for. -/
theorem handleEvent_failure {status : ℕ} (hstatus : status ≠ 0) (h : ℕ) :
    (s.state = .inProgress ∧ s.handleEvent (.leConnComplete status h s.peer) =
      ([.failedAttempt status], { s with lastStatus := some status, state := .idle })) ∨
    s.handleEvent (.leConnComplete status h s.peer) = ([], s) := by
  cases hstate : s.state with
  | inProgress => exact .inl ⟨rfl, by simp [handleEvent, hstate, onInProgress, hstatus]⟩
  | _ => exact .inr (by simp [handleEvent, hstate, onPendingStatus, onCancelSent, onConnected])

/-- A fatal status ends the session, while it waits for a status. -/
theorem handleEvent_fatal {status : ℕ} (hstate : s.state = .pendingStatus)
    (hfatal : status ∈ fatalCmdStatusCodes) :
    (s.handleEvent (.cmdStatus opLeExtCreateConn status)).2.isDone = true := by
  have hne : status ≠ 0 := by
    rintro rfl
    exact absurd hfatal (by decide)
  simp [handleEvent, hstate, onPendingStatus, hne, hfatal, isDone]

theorem handleTimeout_spec (s : ConnectSession) (now : ℕ) :
    (s.handleTimeout now).2.peer = s.peer ∧ (s.handleTimeout now).2.result = s.result ∧
      ((s.handleTimeout now).2.state = .connected ↔ s.state = .connected) := by
  unfold handleTimeout
  split_ifs with hrunning htimeout hcancel htimeout
  · refine ⟨rfl, rfl, ?_⟩
    rcases hrunning with h | h <;> simp [h]
  · exact ⟨rfl, rfl, Iff.rfl⟩
  · exact ⟨rfl, rfl, by simp [hcancel]⟩
  · exact ⟨rfl, rfl, Iff.rfl⟩
  · exact ⟨rfl, rfl, Iff.rfl⟩

end ConnectSession

/-! ### The record -/

namespace Entry

/-- A link has come up. -/
def IsSuccess : Entry → Prop
  | .completed _ st _ _ => st = 0
  | _ => False

/-- An attempt cannot succeed. -/
def IsFatal : Entry → Prop
  | .status _ st => st ∈ fatalCmdStatusCodes
  | _ => False

/-- An attempt has started. -/
def IsBegan : Entry → Prop
  | .began _ => True
  | _ => False

end Entry

namespace Main

/-- The session reports exactly the links that come up, charges each failed completion to its own
attempt, and starts no attempt behind a link or a fatal status. -/
structure Connects (peer : Peer) (m : Main) : Prop where
  peer : m.session.peer = peer
  sound : ∀ h, m.session.result = some (.success h) → ∃ i c, .completed i 0 h c ∈ m.log
  found : ∀ i h c, .completed i 0 h c ∈ m.log →
    m.session.result = some (.success h) ∨ ∃ reason, m.session.result = some (.linkDown h reason)
  last : m.log.Pairwise fun x y => x.IsSuccess → ¬y.IsBegan
  charged : ∀ i status h j, .completed i status h (some j) ∈ m.log → j = i
  fatal : m.log.Pairwise fun x y => x.IsFatal → ¬y.IsBegan

/-- A successful completion arrives while the session waits for one, a failed one does not arrive
while it waits for that of another attempt, and a fatal status arrives while it waits for one. -/
def Timely (m : Main) : Input → Prop
  | .packet (.completed i status _) =>
    if status = 0 then m.session.state = .inProgress
    else m.session.state = .inProgress → m.session.attempt = i + 1
  | .packet (.status _ status) =>
    status ∈ fatalCmdStatusCodes → m.phase = .select → m.session.state = .pendingStatus
  | _ => True

/-- The loop has not been left. -/
def Looping (m : Main) : Prop := m.phase = .head ∨ m.phase = .select

/-- What holds in every state of a timely run. -/
structure Inv (peer : Peer) (m : Main) : Prop where
  peer : m.session.peer = peer
  settled : m.session.Settled
  sound : ∀ h, m.session.link = some h → ∃ i c, .completed i 0 h c ∈ m.log
  found : ∀ i h c, .completed i 0 h c ∈ m.log → m.session.link = some h
  stopped : m.Looping → ∀ x ∈ m.log, x.IsFatal → m.session.isDone = true
  last : m.log.Pairwise fun x y => x.IsSuccess → ¬y.IsBegan
  charged : ∀ i status h j, .completed i status h (some j) ∈ m.log → j = i
  fatal : m.log.Pairwise fun x y => x.IsFatal → ¬y.IsBegan

variable {peer : Peer} {m m' : Main}

theorem Inv.connects (h : Inv peer m) : Connects peer m := by
  refine ⟨h.peer, fun handle hresult => h.sound handle ?_, fun i handle c hmem => ?_, h.last,
    h.charged, h.fatal⟩
  · rw [ConnectSession.link, hresult]
    rfl
  · have hlink := h.found i handle c hmem
    obtain ⟨r, hr, hhandle⟩ := Option.bind_eq_some_iff.1 hlink
    cases r with
    | success h => exact .inl (hr.trans (by cases hhandle; rfl))
    | fatalStatus st => cases hhandle
    | linkDown h reason => exact .inr ⟨reason, hr.trans (by cases hhandle; rfl)⟩

theorem Inv.of_result (h : Inv peer m) (hlog : m'.log = m.log)
    (hpeer : m'.session.peer = m.session.peer) (hresult : m'.session.result = m.session.result)
    (hstate : m'.session.state = .connected ↔ m.session.state = .connected)
    (hloop : m'.Looping → m.Looping) : Inv peer m' := by
  have hlink : m'.session.link = m.session.link := by
    unfold ConnectSession.link
    rw [hresult]
  refine ⟨hpeer.trans h.peer, h.settled.of_result hresult hstate, ?_, ?_, fun hl => ?_, ?_, ?_, ?_⟩
  · rw [hlink, hlog]
    exact h.sound
  · rw [hlink, hlog]
    exact h.found
  · rw [hlog, ConnectSession.isDone, hresult]
    exact h.stopped (hloop hl)
  · rw [hlog]
    exact h.last
  · rw [hlog]
    exact h.charged
  · rw [hlog]
    exact h.fatal

theorem inv_init (peer : Peer) (attemptTimeout deadline : ℕ) :
    Inv peer (init peer attemptTimeout deadline) := by
  refine ⟨rfl, ⟨fun h => (by cases h), fun h => absurd rfl h⟩, fun h hlink => (by cases hlink), ?_,
    ?_, List.Pairwise.nil, ?_, List.Pairwise.nil⟩
  · exact fun i h c hmem => absurd hmem List.not_mem_nil
  · exact fun _ x hmem => absurd hmem List.not_mem_nil
  · exact fun i status h j hmem => absurd hmem List.not_mem_nil

/-- An attempt starts: nothing that forbids it has happened. -/
theorem Inv.begin (h : Inv peer m) (hloop : m.Looping) (hdone : m.session.isDone = false)
    (hstate : m.session.state = .idle) (i begun : ℕ) (c : Controller) :
    Inv peer { m with
      session := (m.session.beginAttempt begun).2, controller := c
      log := m.log ++ [.began i] } := by
  have hsuccess : ∀ x ∈ m.log, ¬x.IsSuccess := by
    rintro (j | ⟨j, st⟩ | ⟨j, st, handle, ch⟩) hx hsucc
    · exact hsucc
    · exact hsucc
    · obtain rfl : st = 0 := hsucc
      have := ConnectSession.isDone_of_link (h.found j handle ch hx)
      rw [hdone] at this
      cases this
  have hfatal : ∀ x ∈ m.log, ¬x.IsFatal := by
    intro x hx hfatal
    have := h.stopped hloop x hx hfatal
    rw [hdone] at this
    cases this
  refine ⟨h.peer, ?_, fun handle hlink => ?_, fun j handle ch hmem => ?_, fun hl x hx hx' => ?_, ?_,
    fun j st handle n hmem => ?_, ?_⟩
  · exact h.settled.of_result rfl (by simp [ConnectSession.beginAttempt, hstate])
  · obtain ⟨j, ch, hmem⟩ := h.sound handle hlink
    exact ⟨j, ch, List.mem_append_left _ hmem⟩
  · rcases List.mem_append.1 hmem with hmem | hmem
    · exact h.found j handle ch hmem
    · cases List.mem_singleton.1 hmem
  · rcases List.mem_append.1 hx with hx | hx
    · exact absurd hx' (hfatal x hx)
    · rw [List.mem_singleton.1 hx] at hx'
      exact hx'.elim
  · refine List.pairwise_append.2 ⟨h.last, List.pairwise_singleton _ _, fun x hx y _ hx' => ?_⟩
    exact absurd hx' (hsuccess x hx)
  · rcases List.mem_append.1 hmem with hmem | hmem
    · exact h.charged j st handle n hmem
    · cases List.mem_singleton.1 hmem
  · refine List.pairwise_append.2 ⟨h.fatal, List.pairwise_singleton _ _, fun x hx y _ hx' => ?_⟩
    exact absurd hx' (hfatal x hx)

theorem inv_iterate (h : Inv peer m) (hloop : m.Looping)
    (now begun : ℕ) : Inv peer (m.iterate now begun) := by
  obtain ⟨hpeer, hresult, hstate⟩ := m.session.handleTimeout_spec now
  have htimeout : Inv peer { m with
      session := (m.session.handleTimeout now).2
      controller := m.controller.dispatch (m.session.handleTimeout now).1
      phase := .select } :=
    h.of_result rfl hpeer hresult hstate fun _ => hloop
  unfold iterate
  dsimp only
  split
  · rename_i hbegin
    exact htimeout.begin (.inr rfl) hbegin.2.1 hbegin.1 _ _ _
  · exact htimeout

theorem inv_leave (h : Inv peer m) (now : ℕ) : Inv peer (m.leave now) := by
  have hphase : ∀ {p : Phase}, p ≠ .head → p ≠ .select → Inv peer { m with phase := p } :=
    fun hhead hselect => h.of_result rfl rfl rfl Iff.rfl fun hl =>
      hl.elim (fun heq => absurd heq hhead) fun heq => absurd heq hselect
  unfold leave
  split
  · exact hphase (by decide) (by decide)
  · dsimp only
    split
    · rename_i hrunning
      refine h.of_result rfl ?_ ?_ ?_ fun hl =>
        hl.elim (fun heq => by cases heq) fun heq => by cases heq
      · rw [ConnectSession.forceCancel, if_pos hrunning]
      · rw [ConnectSession.forceCancel, if_pos hrunning]
      · rw [ConnectSession.forceCancel, if_pos hrunning]
        rcases hrunning with heq | heq <;> simp [heq]
    · exact hphase (by simp) (by simp)

/-- What a packet has to bring about: its entries fit the session behind it. -/
structure Fits (s s' : ConnectSession) (looping : Prop) (es : List Entry) : Prop where
  kept : ∀ h, s.link = some h → s'.link = some h
  sound : ∀ h, s'.link = some h → s.link = some h ∨ ∃ i c, .completed i 0 h c ∈ es
  found : ∀ i h c, .completed i 0 h c ∈ es → s'.link = some h
  began : ∀ x ∈ es, ¬x.IsBegan
  charged : ∀ i status h j, .completed i status h (some j) ∈ es → j = i
  stopped : looping → ∀ x ∈ es, x.IsFatal → s'.isDone = true

theorem Inv.append (h : Inv peer m) {es : List Entry} (hlog : m'.log = m.log ++ es) {evt : Event}
    (hfollows : m.session.Follows evt m'.session) (hloop : m'.Looping → m.Looping)
    (hfits : Fits m.session m'.session m'.Looping es) : Inv peer m' := by
  refine ⟨hfollows.peer.trans h.peer, hfollows.settled, fun handle hlink => ?_,
    fun i handle c hmem => ?_, fun hl x hmem hfatal => ?_, ?_, fun i st handle j hmem => ?_, ?_⟩
  · rw [hlog]
    rcases hfits.sound handle hlink with hlink | ⟨i, c, hmem⟩
    · obtain ⟨i, c, hmem⟩ := h.sound handle hlink
      exact ⟨i, c, List.mem_append_left _ hmem⟩
    · exact ⟨i, c, List.mem_append_right _ hmem⟩
  · rw [hlog] at hmem
    rcases List.mem_append.1 hmem with hmem | hmem
    · exact hfits.kept handle (h.found i handle c hmem)
    · exact hfits.found i handle c hmem
  · rw [hlog] at hmem
    rcases List.mem_append.1 hmem with hmem | hmem
    · exact hfollows.done (h.stopped (hloop hl) x hmem hfatal)
    · exact hfits.stopped hl x hmem hfatal
  · rw [hlog]
    refine List.pairwise_append.2 ⟨h.last, ?_, fun x _ y hy _ => hfits.began y hy⟩
    exact List.pairwise_of_forall_mem_list fun x _ y hy _ => hfits.began y hy
  · rw [hlog] at hmem
    rcases List.mem_append.1 hmem with hmem | hmem
    · exact h.charged i st handle j hmem
    · exact hfits.charged i st handle j hmem
  · rw [hlog]
    refine List.pairwise_append.2 ⟨h.fatal, ?_, fun x _ y hy _ => hfits.began y hy⟩
    exact List.pairwise_of_forall_mem_list fun x _ y hy _ => hfits.began y hy

theorem link_of_not_success {s s' : ConnectSession} {evt : Event} (h : s.Follows evt s')
    (hevt : ∀ handle, evt ≠ .leConnComplete 0 handle s.peer) : s'.link = s.link :=
  h.link.elim id fun ⟨handle, _, heq, _⟩ => absurd heq (hevt handle)

theorem inv_receive (h : Inv peer m) {p : Packet} (hpermits : m.controller.Permits m.session.peer p)
    (htimely : m.Timely (.packet p)) (phase : Phase)
    (hphase : phase = .head ∨ phase = .select → m.phase = .select) :
    Inv peer { (m.receive p).2 with phase := phase } := by
  have hfollows := m.session.handleEvent_spec h.settled (p.event m.session.peer)
  have hloop : Looping { (m.receive p).2 with phase := phase } → m.Looping :=
    fun hl => .inr (hphase hl)
  -- what the log says of the session, for each entry that the packet adds
  cases p with
  | status i st =>
    have hlink := link_of_not_success hfollows fun handle heq => by cases heq
    refine h.append rfl hfollows hloop ⟨fun j hj => hlink.trans hj, fun j hj =>
      .inl (hlink.symm.trans hj), ?_, ?_, ?_, fun hl x hx hfatal => ?_⟩
    · intro j handle c hmem
      cases List.mem_singleton.1 hmem
    · intro x hx hbegan
      rw [List.mem_singleton.1 hx] at hbegan
      exact hbegan
    · intro j status handle n hmem
      cases List.mem_singleton.1 hmem
    · rw [List.mem_singleton.1 hx] at hfatal
      exact ConnectSession.handleEvent_fatal (htimely hfatal (hphase hl)) hfatal
  | completed i st handle =>
    have hbegan : ∀ x ∈ [Entry.completed i st handle (charged m.session
        (m.receive (.completed i st handle)).1)], ¬x.IsBegan := by
      intro x hx hbegan
      rw [List.mem_singleton.1 hx] at hbegan
      exact hbegan
    have hfatal : ∀ x ∈ [Entry.completed i st handle (charged m.session
        (m.receive (.completed i st handle)).1)], ¬x.IsFatal := by
      intro x hx hfatal
      rw [List.mem_singleton.1 hx] at hfatal
      exact hfatal
    -- a completion with success gives the link, one with a failure is charged to its attempt
    by_cases hst : st = 0
    · subst hst
      have hstate : m.session.state = .inProgress := by simpa [Timely] using htimely
      have hevent := ConnectSession.handleEvent_success hstate handle
      have hnone : m.session.link = none := by
        by_contra hne
        exact absurd (hstate.symm.trans (h.settled.2 hne)) (by decide)
      have hlink : (m.receive (.completed i 0 handle)).2.session.link = some handle := by
        change ConnectSession.link (m.session.handleEvent _).2 = _
        exact congrArg (ConnectSession.link ·.2) hevent
      refine h.append rfl hfollows hloop ⟨fun j hj => ?_, fun j hj => .inr ?_, ?_, hbegan, ?_,
        fun _ x hx hx' => absurd hx' (hfatal x hx)⟩
      · rw [hnone] at hj
        cases hj
      · obtain rfl : handle = j := Option.some.inj (hlink.symm.trans hj)
        exact ⟨i, _, List.mem_singleton_self _⟩
      · intro j handle' c hmem
        obtain ⟨rfl, -, rfl, -⟩ := Entry.completed.inj (List.mem_singleton.1 hmem)
        exact hlink
      · intro j status handle' n hmem
        obtain ⟨rfl, -, rfl, hcharged⟩ := Entry.completed.inj (List.mem_singleton.1 hmem)
        have hnone : charged m.session (m.session.handleEvent
            (.leConnComplete 0 handle' m.session.peer)).1 = none := by
          rw [hevent]
          rfl
        rw [Packet.event, hnone] at hcharged
        cases hcharged
    · have hlink := link_of_not_success hfollows fun handle heq => hst (by
        cases heq
        rfl)
      refine h.append rfl hfollows hloop ⟨fun j hj => hlink.trans hj, fun j hj =>
        .inl (hlink.symm.trans hj), ?_, hbegan, ?_, fun _ x hx hx' => absurd hx' (hfatal x hx)⟩
      · intro j handle' c hmem
        obtain ⟨-, heq, -⟩ := Entry.completed.inj (List.mem_singleton.1 hmem)
        exact absurd heq.symm hst
      · intro j status handle' n hmem
        obtain ⟨rfl, rfl, rfl, hcharged⟩ := Entry.completed.inj (List.mem_singleton.1 hmem)
        rw [Packet.event] at hcharged
        rcases ConnectSession.handleEvent_failure hst handle' with ⟨hstate, hevent⟩ | hevent
        · -- the session waits for this attempt, so it charges this one
          have hattempt : m.session.attempt = j + 1 := by
            have := htimely
            rw [Timely, if_neg hst] at this
            exact this hstate
          rw [hevent] at hcharged
          have := Option.some.inj hcharged
          omega
        · rw [hevent] at hcharged
          cases hcharged
  | cancelled =>
    have hlink := link_of_not_success hfollows fun handle heq => by cases heq
    refine h.append rfl hfollows hloop ⟨fun j hj => hlink.trans hj, fun j hj =>
      .inl (hlink.symm.trans hj), ?_, ?_, ?_, ?_⟩ <;> simp
  | other evt =>
    have hlink := link_of_not_success hfollows fun handle heq => by
      obtain rfl : evt = _ := heq
      exact hpermits rfl
    refine h.append rfl hfollows hloop ⟨fun j hj => hlink.trans hj, fun j hj =>
      .inl (hlink.symm.trans hj), ?_, ?_, ?_, ?_⟩ <;> simp

theorem inv_next (h : Inv peer m) {input : Input} (htimely : m.Timely input)
    (hnext : m.next input = some m') : Inv peer m' := by
  have hphase : ∀ {p : Phase}, (p = .head ∨ p = .select → m.Looping) →
      Inv peer { m with phase := p } := fun hp => h.of_result rfl rfl rfl Iff.rfl hp
  -- a packet changes the session; the other inputs end a phase, or start or leave an attempt
  cases input with
  | head t now begun =>
    rw [next] at hnext
    split at hnext
    · cases hnext
    · rename_i hhead
      split at hnext
      · obtain rfl := Option.some.inj hnext
        exact inv_iterate h (.inl (not_not.1 hhead)) now begun
      · obtain rfl := Option.some.inj hnext
        exact inv_leave h now
  | nothing =>
    rw [next] at hnext
    split at hnext
    · rename_i hselect
      obtain rfl := Option.some.inj hnext
      exact hphase fun _ => .inr hselect
    · obtain rfl := Option.some.inj hnext
      exact h
    · obtain rfl := Option.some.inj hnext
      exact h
    · cases hnext
  | packet p =>
    rw [next] at hnext
    split at hnext
    · rename_i hpermits
      dsimp only at hnext
      split at hnext
      · rename_i hselect
        obtain rfl := Option.some.inj hnext
        exact inv_receive h hpermits htimely _ fun _ => hselect
      · obtain rfl := Option.some.inj hnext
        exact inv_receive h hpermits htimely _ (by split <;> simp)
      · obtain rfl := Option.some.inj hnext
        exact inv_receive h hpermits htimely _ (by split <;> simp)
      · cases hnext
    · cases hnext
  | socketError =>
    rw [next] at hnext
    split at hnext
    · obtain rfl := Option.some.inj hnext
      exact hphase (by simp)
    · obtain rfl := Option.some.inj hnext
      exact hphase (by simp)
    · obtain rfl := Option.some.inj hnext
      exact hphase (by simp)
    · cases hnext
  | timeUp =>
    rw [next] at hnext
    split at hnext
    · obtain rfl := Option.some.inj hnext
      exact hphase (by simp)
    · obtain rfl := Option.some.inj hnext
      exact hphase (by simp)
    · cases hnext

/-- **No link is missed by a timely run.** -/
theorem connects_of_timely (h : (machine peer).ReachableBy Timely m) : Connects peer m := by
  refine Inv.connects (h.invariant ?_ fun m input m' hm htimely hnext => inv_next hm htimely hnext)
  rintro m ⟨attemptTimeout, deadline, rfl⟩
  exact inv_init peer attemptTimeout deadline

instance decidableTimely (m : Main) : ∀ input, Decidable (m.Timely input)
  | .packet (.completed i st _) => inferInstanceAs (Decidable
      (if st = 0 then m.session.state = .inProgress
        else m.session.state = .inProgress → m.session.attempt = i + 1))
  | .packet (.status _ st) => inferInstanceAs (Decidable
      (st ∈ fatalCmdStatusCodes → m.phase = .select → m.session.state = .pendingStatus))
  | .packet .cancelled => .isTrue trivial
  | .packet (.other _) => .isTrue trivial
  | .head _ _ _ => .isTrue trivial
  | .nothing => .isTrue trivial
  | .socketError => .isTrue trivial
  | .timeUp => .isTrue trivial

/-- A peer. -/
def somePeer : Peer := ⟨[0xAA, 0xA2, 0x05, 0x0C, 0xA6, 0xDB], 1⟩

/-- The link comes up while the session waits for it. -/
def inTime : List Input :=
  [.head 0 0 0, .packet (.status 0 0), .head 100 100 100, .packet (.completed 0 0 0x42),
    .head 200 200 200]

theorem connects_in_time :
    ∃ m, (machine somePeer).runBy Timely (init somePeer 10000 30000) inTime = some m ∧
      m.phase = .hold ∧ Connects somePeer m := by
  have hrun : (machine somePeer).runBy Timely (init somePeer 10000 30000) inTime = some _ := rfl
  exact ⟨_, hrun, rfl, connects_of_timely (.runBy (.init ⟨10000, 30000, rfl⟩) hrun)⟩

/-- The link comes up behind the cancel that the timeout has sent. -/
def behindCancel : List Input :=
  [.head 0 0 0, .packet (.status 0 0), .head 10000 10000 10000, .packet (.completed 0 0 0x42),
    .head 10100 10100 10100, .packet .cancelled, .head 10200 10200 10200]

/-- That link is not reported, and the next attempt starts. -/
theorem link_missed :
    ∃ m, (machine somePeer).Reachable m ∧ .completed 0 0 0x42 none ∈ m.log ∧
      m.session.result = none ∧ m.session.attempt = 2 ∧ ¬Connects somePeer m := by
  have hrun : (machine somePeer).run (init somePeer 10000 30000) behindCancel = some _ := rfl
  refine ⟨_, .run (.init ⟨10000, 30000, rfl⟩) hrun, by decide, rfl, rfl, fun h => ?_⟩
  rcases h.found 0 0x42 none (by decide) with hresult | ⟨reason, hresult⟩
  · cases hresult
  · cases hresult

end Main

end HciConnect

end LeAudioReceiver
