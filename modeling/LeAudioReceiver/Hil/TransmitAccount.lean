import LeAudioReceiver.Hil.TransmitSteps

/-!
# The outstanding SDUs

Every SDU that the backend accepted and has not called back is outstanding, and a stream sends only
while it has space.

* `Accounted` : the invariant;
* `Reached.accounted` : **it holds throughout a call of the stage**;
* `ReachedFrom.act` : the steps of the surroundings, in terms of the stage alone.
-/

namespace LeAudioReceiver

namespace Hil

namespace Transmit

/-! ### Places -/

/-- Nothing has been sent. -/
def Pc.fresh : Pc → Bool
  | .encoders false | .anchorEncode | .anchorCheck | .anchorAccount => true
  | _ => false

/-- A stream was seen to have space, and has not sent since. -/
def Pc.room (i : Fin 2) : Pc → Bool
  | .encode _ _ | .batch _ | .pinCheck _ _ | .pinRead _ _ | .pinAdvance _ _ _ | .pinWait _ _
  | .gate _ | .gateAdvance _ _ => true
  | .send j _ _ => j ≤ i
  | .peer _ => i = 1
  | _ => false

/-- The second stream is about to send. -/
def Pc.second : Pc → Bool
  | .send i _ _ => i = 1
  | .peer _ => true
  | _ => false

/-- The steps between places that need no new facts. -/
structure Pc.Follows (pc pc' : Pc) : Prop where
  entry : pc ≠ .entry ∧ pc' ≠ .entry
  send : pc ≠ .anchorSend ∧ pc' ≠ .anchorSend
  fresh : pc'.fresh = true → pc.fresh = true
  room : ∀ i, pc'.room i = true → pc.room i = true
  second : pc'.second = true → pc.second = true

theorem Pc.Moves.follows {pc pc' : Pc} (h : pc.Moves pc') : pc.Follows pc' := by
  cases h with
  | peer =>
    refine ⟨⟨nofun, nofun⟩, ⟨nofun, nofun⟩, nofun, fun i hi => ?_, fun _ => rfl⟩
    have hle : 1 ≤ i := of_decide_eq_true hi
    exact decide_eq_true (Fin.le_antisymm (Fin.le_last i) hle)
  | _ => exact ⟨⟨nofun, nofun⟩, ⟨nofun, nofun⟩, id, fun _ => id, nofun⟩

theorem Pc.Checks.follows {pc pc' : Pc} (h : pc.Checks pc') : pc.Follows pc' := by
  cases h <;> exact ⟨⟨nofun, nofun⟩, ⟨nofun, nofun⟩, id, fun _ => id, nofun⟩

theorem Pc.Waits.follows {pc pc' : Pc} (h : pc.Waits pc') : pc.Follows pc' := by
  cases h <;> exact ⟨⟨nofun, nofun⟩, ⟨nofun, nofun⟩, id, fun _ => id, nofun⟩

theorem Pc.follows_returned {pc : Pc} {ret : ℤ} (h : pc ≠ .entry ∧ pc ≠ .anchorSend) :
    pc.Follows (.returned ret) :=
  ⟨⟨h.1, nofun⟩, ⟨h.2, nofun⟩, nofun, fun _ => nofun, nofun⟩

/-! ### The invariant -/

/-- Every SDU that was accepted and not called back is outstanding. -/
structure Accounted (target : ℕ) (s : Tx) (h : History) : Prop where
  active : s.run.active = true
  state : s.run.currentState = .streaming ∨ s.run.currentState = .scoredComplete
  begun : s.worker ≠ .entry → s.active = true
  idle : s.worker = .entry → ∀ i, h.accepted i = 0 ∧ h.called i = 0
  balance : s.worker ≠ .entry → ∀ i,
    (s.stream i).outstanding + h.called i = h.accepted i + s.taking i
  fresh : s.worker.fresh = true → ∀ i, (s.stream i).outstanding = 0
  bound : s.worker ≠ .entry → ∀ i, (s.stream i).outstanding ≤ target
  room : ∀ i, s.worker.room i = true → i.val < s.streams → (s.stream i).outstanding < target
  second : s.worker.second = true → s.streams = 2

section Accounted

variable {target : ℕ} {s s' : Tx} {h h' : History}

theorem Tx.taking_of_ne (hw : s.worker ≠ .anchorSend) (i : Fin 2) : s.taking i = 0 :=
  if_neg fun hand => hw hand.1

theorem Keeps.streams (hrun : Keeps s.run s'.run) : s'.streams = s.streams := by
  unfold Tx.streams
  rw [hrun.config]

theorem Keeps.inStage (hrun : Keeps s.run s'.run)
    (hstate : s.run.currentState = .streaming ∨ s.run.currentState = .scoredComplete) :
    s'.run.currentState = .streaming ∨ s'.run.currentState = .scoredComplete := by
  rcases hrun.state with heq | hdone
  · rwa [heq]
  · exact .inr hdone

theorem Accounted.follow (hs : Accounted target s h) (hpc : s.worker.Follows s'.worker)
    (hrun : Keeps s.run s'.run) (hactive : s'.active = s.active)
    (hout : ∀ i, (s'.stream i).outstanding = (s.stream i).outstanding)
    (haccepted : h'.accepted = h.accepted) (hcalled : h'.called = h.called) :
    Accounted target s' h' where
  active := hrun.active.trans hs.active
  state := hrun.inStage hs.state
  begun _ := hactive.trans (hs.begun hpc.entry.1)
  idle hw := absurd hw hpc.entry.2
  balance _ i := by
    have hbalance := hs.balance hpc.entry.1 i
    rw [Tx.taking_of_ne hpc.send.1] at hbalance
    rw [Tx.taking_of_ne hpc.send.2, hout, haccepted, hcalled]
    exact hbalance
  fresh hw i := (hout i).trans (hs.fresh (hpc.fresh hw) i)
  bound _ i := (hout i).trans_le (hs.bound hpc.entry.1 i)
  room i hw hi := by
    rw [hrun.streams] at hi
    exact (hout i).trans_lt (hs.room i (hpc.room i hw) hi)
  second hw := hrun.streams.trans (hs.second (hpc.second hw))

/-- The batches start where every stream has space. -/
theorem Tx.canSend_lt (hspace : s.canSend target = true) {i : Fin 2} (hi : i.val < s.streams) :
    (s.stream i).outstanding < target := by
  unfold Tx.canSend at hspace
  exact of_decide_eq_true (Mode.allStreams_iff.1 hspace i hi)

theorem Accounted.encode {pin : UInt32} (hs : Accounted target s h) (hw : s.worker = .top)
    (hw' : s'.worker = .encode 0 pin) (hspace : s.canSend target = true)
    (hrun : Keeps s.run s'.run) (hactive : s'.active = s.active) (hstream : s'.stream = s.stream)
    (haccepted : h'.accepted = h.accepted) (hcalled : h'.called = h.called) :
    Accounted target s' h' where
  active := hrun.active.trans hs.active
  state := hrun.inStage hs.state
  begun _ := hactive.trans (hs.begun (by rw [hw]; nofun))
  idle hentry := by rw [hw'] at hentry; cases hentry
  balance _ i := by
    have hbalance := hs.balance (by rw [hw]; nofun) i
    rw [Tx.taking_of_ne (by rw [hw]; nofun)] at hbalance
    rw [Tx.taking_of_ne (by rw [hw']; nofun), hstream, haccepted, hcalled]
    exact hbalance
  fresh hfresh := by rw [hw'] at hfresh; cases hfresh
  bound _ i := by
    rw [hstream]
    exact hs.bound (by rw [hw]; nofun) i
  room i _ hi := by
    rw [hrun.streams] at hi
    rw [hstream]
    exact Tx.canSend_lt hspace hi
  second hsecond := by rw [hw'] at hsecond; cases hsecond

theorem Accounted.enter (hs : Accounted target s h) (hw : s.worker = .entry) :
    Accounted target s.reset h where
  active := hs.active
  state := hs.state
  begun _ := rfl
  idle hentry := nomatch hentry
  balance _ i := by
    obtain ⟨haccepted, hcalled⟩ := hs.idle hw i
    rw [haccepted, hcalled]
    rfl
  fresh _ _ := rfl
  bound _ _ := Nat.zero_le target
  room _ hroom := nomatch hroom
  second hsecond := nomatch hsecond

theorem Accounted.account (hpos : 0 < target) (hs : Accounted target s h)
    (hw : s.worker = .anchorAccount) : Accounted target (s.accountAnchor.goto .anchorSend) h where
  active := hs.active
  state := hs.state
  begun _ := hs.begun (by rw [hw]; nofun)
  idle hentry := nomatch hentry
  balance _ i := by
    have hbalance := hs.balance (by rw [hw]; nofun) i
    rw [Tx.taking_of_ne (by rw [hw]; nofun)] at hbalance
    unfold Tx.taking
    by_cases hi : i = 0
    · rw [if_pos ⟨rfl, hi⟩]
      subst hi
      change (s.stream 0).outstanding + 1 + h.called 0 = _
      omega
    · rw [if_neg fun hand => hi hand.2]
      change (if i = 0 then _ else _ : Stream).outstanding + h.called i = _
      rw [if_neg hi]
      exact hbalance
  fresh hfresh := nomatch hfresh
  bound _ i := by
    have hfresh := hs.fresh (by rw [hw]; rfl) i
    change (if i = 0 then _ else _ : Stream).outstanding ≤ target
    split_ifs
    · change (s.stream i).outstanding + 1 ≤ target
      omega
    · exact hfresh.trans_le (Nat.zero_le target)
  room _ hroom := nomatch hroom
  second hsecond := nomatch hsecond

theorem Accounted.anchorAccepted (hs : Accounted target s h) (hw : s.worker = .anchorSend) :
    Accounted target (s.goto .anchorSent) (h.accept 0) where
  active := hs.active
  state := hs.state
  begun _ := hs.begun (by rw [hw]; nofun)
  idle hentry := nomatch hentry
  balance _ i := by
    have hbalance := hs.balance (by rw [hw]; nofun) i
    rw [@Tx.taking_of_ne (s.goto .anchorSent) nofun]
    unfold Tx.taking at hbalance
    change (s.stream i).outstanding + h.called i = Function.update h.accepted 0 _ i + 0
    by_cases hi : i = 0
    · subst hi
      rw [if_pos ⟨hw, rfl⟩] at hbalance
      rw [Function.update_self]
      exact hbalance
    · rw [if_neg fun hand => hi hand.2] at hbalance
      rw [Function.update_of_ne hi]
      exact hbalance
  fresh hfresh := nomatch hfresh
  bound _ := hs.bound (by rw [hw]; nofun)
  room _ hroom := nomatch hroom
  second hsecond := nomatch hsecond

theorem Accounted.anchorRefused {ret : ℤ} {counters : Fin 2 → StreamCounter}
    (hs : Accounted target s h) (hw : s.worker = .anchorSend)
    (hcalled : h.called 0 ≤ h.accepted 0) :
    Accounted target
      ({ s.modify 0 Stream.drop with
          anchorPending := false, run := { s.run with counters := counters } }.goto
        (.returned ret)) h where
  active := hs.active
  state := hs.state
  begun _ := hs.begun (by rw [hw]; nofun)
  idle hentry := nomatch hentry
  balance _ i := by
    have hbalance := hs.balance (by rw [hw]; nofun) i
    have hnone (t : Tx) : (t.goto (.returned ret)).taking i = 0 :=
      @Tx.taking_of_ne (t.goto (.returned ret)) nofun i
    rw [hnone]
    unfold Tx.taking at hbalance
    change (if i = 0 then _ else _ : Stream).outstanding + h.called i = _
    by_cases hi : i = 0
    · subst hi
      rw [if_pos ⟨hw, rfl⟩] at hbalance
      rw [if_pos rfl]
      change (s.stream 0).outstanding - 1 + h.called 0 = _
      omega
    · rw [if_neg fun hand => hi hand.2] at hbalance
      rw [if_neg hi]
      exact hbalance
  fresh hfresh := nomatch hfresh
  bound _ i := by
    have hbound := hs.bound (by rw [hw]; nofun) i
    change (if i = 0 then _ else _ : Stream).outstanding ≤ target
    split_ifs
    · change (s.stream i).outstanding - 1 ≤ target
      omega
    · exact hbound
  room _ hroom := nomatch hroom
  second hsecond := nomatch hsecond

theorem Accounted.lt_streams {i : Fin 2} {pin now : UInt32} (hs : Accounted target s h)
    (hw : s.worker = .send i pin now) : i.val < s.streams := by
  by_cases hi : i = 0
  · rw [hi]
    exact s.streams_pos
  · have hone : i = 1 := by omega
    rw [hs.second (by rw [hw, hone]; rfl), hone]
    decide

/-- The backend accepts an SDU of a batch. -/
theorem Accounted.sent {i : Fin 2} {pin now : UInt32} (hs : Accounted target s h)
    (hw : s.worker = .send i pin now) (hrun : Keeps s.run s'.run) (hactive : s'.active = s.active)
    (hout : ∀ j, (s'.stream j).outstanding = (s.stream j).outstanding + if j = i then 1 else 0)
    (haccepted : h'.accepted = Function.update h.accepted i (h.accepted i + 1))
    (hcalled : h'.called = h.called)
    (hw' : s'.worker = .top ∨ (∃ ret, s'.worker = .returned ret) ∨
      s'.worker = .peer pin ∧ s.isLast i = false) : Accounted target s' h' := by
  -- the batch was started with space in every stream
  have hroom := hs.room i (by rw [hw]; exact decide_eq_true (Fin.le_refl i)) (hs.lt_streams hw)
  have hplace : s'.worker ≠ .entry ∧ s'.worker ≠ .anchorSend ∧ s'.worker.fresh = false := by
    rcases hw' with htop | ⟨ret, hret⟩ | ⟨hpeer, -⟩
    · rw [htop]
      exact ⟨nofun, nofun, rfl⟩
    · rw [hret]
      exact ⟨nofun, nofun, rfl⟩
    · rw [hpeer]
      exact ⟨nofun, nofun, rfl⟩
  refine ⟨hrun.active.trans hs.active, hrun.inStage hs.state, fun _ => ?_, fun hentry => ?_,
    fun _ j => ?_, fun hfresh => ?_, fun _ j => ?_, fun j hj hlt => ?_, fun hsecond => ?_⟩
  · exact hactive.trans (hs.begun (by rw [hw]; nofun))
  · exact absurd hentry hplace.1
  · have hbalance := hs.balance (by rw [hw]; nofun) j
    rw [Tx.taking_of_ne (by rw [hw]; nofun)] at hbalance
    rw [Tx.taking_of_ne hplace.2.1, hout, haccepted, hcalled]
    by_cases hj : j = i
    · subst hj
      rw [if_pos rfl, Function.update_self]
      omega
    · rw [if_neg hj, Function.update_of_ne hj]
      exact hbalance
  · rw [hplace.2.2] at hfresh
    cases hfresh
  · have hbound := hs.bound (by rw [hw]; nofun) j
    rw [hout]
    split_ifs with hj
    · subst hj
      exact hroom
    · exact hbound
  · rw [hrun.streams] at hlt
    rcases hw' with htop | ⟨ret, hret⟩ | ⟨hpeer, hlast⟩
    · rw [htop] at hj
      cases hj
    · rw [hret] at hj
      cases hj
    · rw [hpeer] at hj
      -- the second stream has still its own space
      have hone : j = 1 := of_decide_eq_true hj
      have hzero : i = 0 := s.eq_zero_of_not_last (by rw [hlast]; exact Bool.false_ne_true)
      rw [hout, if_neg (by rw [hone, hzero]; decide)]
      exact hs.room j (by rw [hw, hzero]; exact decide_eq_true (Fin.zero_le j)) hlt
  · rcases hw' with htop | ⟨ret, hret⟩ | ⟨-, hlast⟩
    · rw [htop] at hsecond
      cases hsecond
    · rw [hret] at hsecond
      cases hsecond
    · have hlt := hs.lt_streams hw
      have hle := s.streams_le
      have hnot : ¬s.streams ≤ i.val + 1 := of_decide_eq_false hlast
      rw [hrun.streams]
      omega

theorem Tx.modify_outstanding_same (s : Tx) (i : Fin 2) {g : Stream → Stream}
    (hg : ∀ t, (g t).outstanding = t.outstanding) (j : Fin 2) :
    ((s.modify i g).stream j).outstanding = (s.stream j).outstanding := by
  change (if j = i then g (s.stream j) else s.stream j).outstanding = _
  split_ifs
  · exact hg _
  · rfl

theorem Tx.modifyAll_outstanding (s : Tx) {g : Stream → Stream}
    (hg : ∀ t, (g t).outstanding = t.outstanding) (j : Fin 2) :
    ((s.modifyAll g).stream j).outstanding = (s.stream j).outstanding := by
  change (if j.val < s.streams then g (s.stream j) else s.stream j).outstanding = _
  split_ifs
  · exact hg _
  · rfl

theorem Tx.modify_accepted (s : Tx) {i : Fin 2} {pin : UInt32} {lead : ℤ} (j : Fin 2) :
    ((s.modify i (·.accepted s.uptime pin lead)).stream j).outstanding =
      (s.stream j).outstanding + if j = i then 1 else 0 := by
  change (if j = i then (s.stream j).accepted s.uptime pin lead else s.stream j).outstanding = _
  split_ifs <;> rfl

theorem Tx.noteSent_accepted (s : Tx) {i : Fin 2} {pin now : UInt32} (h : History) :
    (s.noteSent i pin now h).accepted = Function.update h.accepted i (h.accepted i + 1) := by
  unfold Tx.noteSent
  dsimp only
  split_ifs <;> rfl

theorem Tx.noteSent_called (s : Tx) {i : Fin 2} {pin now : UInt32} (h : History) :
    (s.noteSent i pin now h).called = h.called := by
  unfold Tx.noteSent
  dsimp only
  split_ifs <;> rfl

/-- A step of the worker. -/
theorem Works.accounted {f : History → History} (hworks : Works target s s' f) (hpos : 0 < target)
    (hrefused : s.worker = .anchorSend → s'.worker ≠ .anchorSent → h.called 0 ≤ h.accepted 0)
    (hs : Accounted target s h) : Accounted target s' (f h) := by
  have hkeeps := hworks.keeps
  -- only the bootstrap SDU, the SDUs of a batch and the start touch the streams
  cases hworks with
  | enter hw => exact hs.enter hw
  | @encoders again hw =>
    refine hs.follow ?_ hkeeps rfl (fun _ => rfl) rfl rfl
    rw [hw]
    cases again with
    | false => exact ⟨⟨nofun, nofun⟩, ⟨nofun, nofun⟩, id, fun _ => nofun, nofun⟩
    | true => exact ⟨⟨nofun, nofun⟩, ⟨nofun, nofun⟩, nofun, fun _ => nofun, nofun⟩
  | ends hends =>
    obtain ⟨ret, -, hret⟩ := hends.worker
    exact hs.follow (hret ▸ Pc.follows_returned hends.started) hkeeps hends.active
      hends.outstanding rfl rfl
  | endsBehind hends =>
    obtain ⟨ret, -, hret⟩ := hends.worker
    exact hs.follow (hret ▸ Pc.follows_returned hends.started) hkeeps hends.active
      hends.outstanding rfl rfl
  | moves hpc => exact hs.follow hpc.follows hkeeps rfl (fun _ => rfl) rfl rfl
  | checked hpc => exact hs.follow hpc.follows hkeeps rfl (fun _ => rfl) rfl rfl
  | woken hpc => exact hs.follow hpc.follows hkeeps rfl (fun _ => rfl) rfl rfl
  | expired hpc => exact hs.follow hpc.follows hkeeps rfl (fun _ => rfl) rfl rfl
  | account hw => exact hs.account hpos hw
  | anchorAccepted hw => exact hs.anchorAccepted hw
  | anchorRefused hw => exact hs.anchorRefused hw (hrefused hw nofun)
  | anchorSequence hw =>
    refine hs.follow ?_ hkeeps rfl (fun j => ?_) rfl rfl
    · rw [hw]
      exact ⟨⟨nofun, nofun⟩, ⟨nofun, nofun⟩, nofun, fun _ => nofun, nofun⟩
    · exact s.modify_outstanding_same 0 (g := fun t => { t with seq := 1 }) (fun _ => rfl) j
  | due hw =>
    refine hs.follow ?_ hkeeps rfl (fun _ => rfl) rfl rfl
    rw [hw]
    exact ⟨⟨nofun, nofun⟩, ⟨nofun, nofun⟩, nofun, fun _ => nofun, nofun⟩
  | notDue hw =>
    refine hs.follow ?_ hkeeps rfl (fun _ => rfl) rfl rfl
    rw [hw]
    exact ⟨⟨nofun, nofun⟩, ⟨nofun, nofun⟩, nofun, fun _ => nofun, nofun⟩
  | @anchored ts hw =>
    refine hs.follow ?_ hkeeps rfl (fun j => ?_) rfl rfl
    · rw [hw]
      exact ⟨⟨nofun, nofun⟩, ⟨nofun, nofun⟩, nofun, fun _ => nofun, nofun⟩
    · refine (Tx.modifyAll_outstanding _
        (g := fun t => { t with next := movePin ts 1 s.interval }) (fun _ => rfl) j).trans ?_
      exact s.modify_outstanding_same 0 (g := fun t => { t with readback := ts }) (fun _ => rfl) j
  | finished hw =>
    refine hs.follow ?_ hkeeps rfl (fun _ => rfl) rfl rfl
    rw [hw]
    exact ⟨⟨nofun, nofun⟩, ⟨nofun, nofun⟩, nofun, fun _ => nofun, nofun⟩
  | noSpace hw =>
    refine hs.follow ?_ hkeeps rfl (fun _ => rfl) rfl rfl
    rw [hw]
    exact ⟨⟨nofun, nofun⟩, ⟨nofun, nofun⟩, nofun, fun _ => nofun, nofun⟩
  | staged hw _ hspace => exact hs.encode hw rfl hspace hkeeps rfl rfl rfl rfl
  | boundary hw _ hspace => exact hs.encode hw rfl hspace hkeeps rfl rfl rfl rfl
  | caught hw =>
    refine hs.follow ?_ hkeeps rfl (fun _ => rfl) rfl rfl
    rw [hw]
    exact ⟨⟨nofun, nofun⟩, ⟨nofun, nofun⟩, nofun, fun _ => id, nofun⟩
  | inTime hw _ hpc =>
    refine hs.follow ?_ hkeeps rfl (fun _ => rfl) rfl rfl
    rw [hw]
    rcases hpc with rfl | rfl <;>
      exact ⟨⟨nofun, nofun⟩, ⟨nofun, nofun⟩, nofun, fun _ => id, nofun⟩
  | caughtAtGate hw =>
    refine hs.follow ?_ hkeeps rfl (fun _ => rfl) rfl rfl
    rw [hw]
    exact ⟨⟨nofun, nofun⟩, ⟨nofun, nofun⟩, nofun, fun _ => id, nofun⟩
  | passed hw =>
    refine hs.follow ?_ hkeeps rfl (fun _ => rfl) rfl rfl
    rw [hw]
    exact ⟨⟨nofun, nofun⟩, ⟨nofun, nofun⟩, nofun, fun _ _ => rfl, nofun⟩
  | @advanced pin skipped deadline hw =>
    have hout := s.modifyAll_outstanding (g := fun t => t.advancePin pin skipped) fun _ => rfl
    refine hs.follow ?_ hkeeps rfl hout rfl rfl
    rcases hw with ⟨d, hw⟩ | hw
    · rw [hw]
      exact ⟨⟨nofun, nofun⟩, ⟨nofun, nofun⟩, nofun, fun _ => id, nofun⟩
    · rw [hw]
      exact ⟨⟨nofun, nofun⟩, ⟨nofun, nofun⟩, nofun, fun _ => id, nofun⟩
  | @sent i pin now counters hw _ hlast _ =>
    refine hs.sent hw hkeeps rfl (fun j => ?_) ?_ ?_ (.inr (.inr ⟨rfl, hlast⟩))
    · exact s.modify_accepted j
    · exact s.noteSent_accepted h
    · exact s.noteSent_called h
  | @sentLast i pin now counters hw _ _ _ =>
    refine hs.sent hw hkeeps rfl (fun j => ?_) ?_ ?_ (.inl rfl)
    · exact (Tx.modifyAll_outstanding _
        (g := fun t => { t with next := movePin pin 1 s.interval }) (fun _ => rfl) j).trans
          (s.modify_accepted j)
    · exact s.noteSent_accepted h
    · exact s.noteSent_called h
  | @overflow i pin now ret hw _ _ =>
    refine hs.sent hw hkeeps rfl (fun j => ?_) ?_ ?_ (.inr (.inl ⟨ret, rfl⟩))
    · exact s.modify_accepted j
    · exact s.noteSent_accepted h
    · exact s.noteSent_called h
  | drained hw =>
    refine hs.follow ?_ hkeeps rfl (fun _ => rfl) rfl rfl
    rw [hw]
    exact ⟨⟨nofun, nofun⟩, ⟨nofun, nofun⟩, nofun, fun _ => nofun, nofun⟩
  | undrained hw =>
    refine hs.follow ?_ hkeeps rfl (fun _ => rfl) rfl rfl
    rw [hw]
    exact ⟨⟨nofun, nofun⟩, ⟨nofun, nofun⟩, nofun, fun _ => nofun, nofun⟩
  | @synced i ts pc _ hpc =>
    have hout := s.modify_outstanding_same i
      (g := fun t => { t with syncLast := ts, syncCnt := t.syncCnt + 1 }) fun _ => rfl
    exact hs.follow hpc.follows hkeeps rfl hout rfl rfl

/-- A callback is due. -/
theorem Accounted.due {i : Fin 2} (hs : Accounted target s h)
    (hcall : h.called i < h.accepted i + s.taking i) :
    s.worker ≠ .entry ∧ (s.stream i).outstanding ≠ 0 := by
  have hbegun : s.worker ≠ .entry := by
    intro hentry
    obtain ⟨haccepted, -⟩ := hs.idle hentry i
    rw [haccepted, Tx.taking_of_ne (by rw [hentry]; nofun)] at hcall
    exact absurd hcall (Nat.not_lt_zero _)
  have hbalance := hs.balance hbegun i
  exact ⟨hbegun, by omega⟩

theorem Accounted.sent_eq {i : Fin 2} (hs : Accounted target s h)
    (hcall : h.called i < h.accepted i + s.taking i) :
    ∃ counters pending due,
      s.sent i =
        { s.modify i fun t => { t.drop with lastActivity := s.uptime } with
          run := { s.run with counters := counters }, anchorPending := pending
          readbackDue := due, wake := true } := by
  obtain ⟨hbegun, hout⟩ := hs.due hcall
  refine Tx.sent_eq hs.active ?_ (hs.begun hbegun) hout
  rcases hs.state with hstate | hstate <;>
  · rw [hstate]
    nofun

theorem Accounted.callback {i : Fin 2} (hs : Accounted target s h)
    (hcall : h.called i < h.accepted i + s.taking i) :
    Accounted target (s.sent i) (h.call i) := by
  obtain ⟨hbegun, hdue⟩ := hs.due hcall
  obtain ⟨counters, pending, due, hsent⟩ := hs.sent_eq hcall
  have hout (j : Fin 2) : ((s.sent i).stream j).outstanding =
      (s.stream j).outstanding - if j = i then 1 else 0 := by
    rw [hsent]
    change (if j = i then { (s.stream j).drop with lastActivity := s.uptime }
      else s.stream j : Stream).outstanding = _
    split_ifs <;> rfl
  have hle (j : Fin 2) : ((s.sent i).stream j).outstanding ≤ (s.stream j).outstanding := by
    rw [hout]
    exact Nat.sub_le _ _
  have hworker : (s.sent i).worker = s.worker := by rw [hsent]; rfl
  have hstreams : (s.sent i).streams = s.streams := by rw [hsent]; rfl
  refine ⟨?_, ?_, fun hw => ?_, fun hw => ?_, fun hw j => ?_, fun hw j => ?_, fun hw j => ?_,
    fun j hw hj => ?_, fun hw => ?_⟩
  · rw [hsent]
    exact hs.active
  · rw [hsent]
    exact hs.state
  · rw [hsent]
    exact hs.begun hbegun
  · exact absurd (hworker ▸ hw) hbegun
  · have hbalance := hs.balance hbegun j
    have htaking : (s.sent i).taking j = s.taking j := by
      unfold Tx.taking
      rw [hworker]
    rw [hout, htaking]
    change _ + Function.update h.called i _ j = h.accepted j + _
    by_cases hj : j = i
    · subst hj
      rw [if_pos rfl, Function.update_self]
      omega
    · rw [if_neg hj, Function.update_of_ne hj]
      exact hbalance
  · exact Nat.eq_zero_of_le_zero ((hle j).trans_eq (hs.fresh (hworker ▸ hw) j))
  · exact (hle j).trans (hs.bound hbegun j)
  · exact (hle j).trans_lt (hs.room j (hworker ▸ hw) (hstreams ▸ hj))
  · exact hstreams.trans (hs.second (hworker ▸ hw))

theorem Accounted.stay (hs : Accounted target s h) (hworker : s'.worker = s.worker)
    (hstream : s'.stream = s.stream) (hactive : s'.active = s.active)
    (hrun : s'.run.active = s.run.active) (hstate : s'.run.currentState = s.run.currentState)
    (hconfig : s'.run.config = s.run.config) : Accounted target s' h := by
  have hstreams : s'.streams = s.streams := by
    unfold Tx.streams
    rw [hconfig]
  have htaking (i : Fin 2) : s'.taking i = s.taking i := by
    unfold Tx.taking
    rw [hworker]
  refine ⟨hrun.trans hs.active, ?_, fun hw => ?_, fun hw => ?_, fun hw i => ?_, fun hw i => ?_,
    fun hw i => ?_, fun i hw hi => ?_, fun hw => ?_⟩
  · rw [hstate]
    exact hs.state
  · exact hactive.trans (hs.begun (hworker ▸ hw))
  · exact hs.idle (hworker ▸ hw)
  · rw [hstream, htaking]
    exact hs.balance (hworker ▸ hw) i
  · rw [hstream]
    exact hs.fresh (hworker ▸ hw) i
  · rw [hstream]
    exact hs.bound (hworker ▸ hw) i
  · rw [hstream]
    exact hs.room i (hworker ▸ hw) (hstreams ▸ hi)
  · exact hstreams.trans (hs.second (hworker ▸ hw))

theorem Accounted.emitStatus (hs : Accounted target s h) (e : Emission) :
    Accounted target (s.emitStatus e) h := by
  rcases s.emitStatus_cases e with heq | heq
  · rw [heq]
    exact hs
  · rw [heq]
    exact hs.stay rfl rfl rfl rfl rfl rfl

/-- **Every step keeps the invariant.** -/
theorem Accounted.step {a : Tx.Action} (hpos : 0 < target) (hs : Accounted target s h)
    (hanswer : Tx.Answers (s, h) a) (hnext : (machine target).next s a = some s') :
    Accounted target s' (s.note a s' h) := by
  cases a with
  | work a =>
    obtain ⟨f, hworks, hnote⟩ := works (show s.work target a = some s' from hnext)
    change Accounted target s' (s.noteWork a s' h)
    rw [hnote]
    refine hworks.accounted hpos (fun hw hne => ?_) hs
    have hwork : s.work target a = some s' := hnext
    unfold Tx.work at hwork
    rw [hw] at hwork
    cases a with
    | returned ret =>
      obtain rfl := Option.some.inj hwork
      by_cases hret : ret = 0
      · rw [if_pos hret] at hne
        exact absurd rfl hne
      · exact hanswer hw hret
    | _ => cases hwork
  | sent i =>
    change (if _ then none else some (s.sent i)) = some s' at hnext
    split_ifs at hnext
    obtain rfl := Option.some.inj hnext
    exact hs.callback hanswer
  | status e =>
    change (if _ then none else some (s.emitStatus e)) = some s' at hnext
    split_ifs at hnext
    obtain rfl := Option.some.inj hnext
    exact hs.emitStatus e
  | stop e =>
    change (if _ then none else some (s.stop e)) = some s' at hnext
    split_ifs at hnext
    obtain rfl := Option.some.inj hnext
    have hstop : Accounted target
        ({ s with run := { s.run with stopRequested := true }, wake := true } : Tx) h :=
      hs.stay rfl rfl rfl rfl rfl rfl
    rw [Tx.stop_eq hs.active]
    exact hstop.emitStatus e
  | tick ms =>
    obtain rfl := Option.some.inj hnext
    exact hs.stay rfl rfl rfl rfl rfl rfl

end Accounted

/-! ### Throughout a call -/

theorem Accounted.init {target : ℕ} {s : Tx} (hs : s.Called) : Accounted target s .empty where
  active := hs.active
  state := .inl hs.streaming
  begun hw := absurd hs.worker hw
  idle _ _ := ⟨rfl, rfl⟩
  balance hw := absurd hs.worker hw
  fresh hw := by rw [hs.worker] at hw; cases hw
  bound hw := absurd hs.worker hw
  room _ hw := by rw [hs.worker] at hw; cases hw
  second hw := by rw [hs.worker] at hw; cases hw

/-- **The account holds throughout a call of the stage.** -/
theorem Reached.accounted {target : ℕ} (hpos : 0 < target) {s : Tx} {h : History}
    (hs : Reached target s h) : Accounted target s h := by
  refine Machine.ReachableBy.invariant (I := fun p => Accounted target p.1 p.2) hs ?_ ?_
  · rintro ⟨s, h⟩ ⟨hcalled, hempty⟩
    obtain rfl : h = .empty := hempty
    exact .init hcalled
  · rintro ⟨s, h⟩ a ⟨s', h'⟩ hinv hanswer hnext
    obtain ⟨hstep, hnote⟩ := Machine.watch_next hnext
    obtain rfl : h' = s.note a s' h := hnote
    exact hinv.step hpos hanswer hstep

/-- The steps that the surroundings may take, in terms of the stage alone. -/
def Tx.admits (s : Tx) : Tx.Action → Bool
  | .sent i => s.worker ≠ .entry && s.worker ≠ .anchorSend && (s.stream i).outstanding ≠ 0
  | .work (.returned ret) => s.worker ≠ .anchorSend || ret = 0
  | _ => true

/-- A callback is due exactly while an SDU is outstanding. -/
theorem Accounted.answers {target : ℕ} {s : Tx} {h : History} {a : Tx.Action}
    (hs : Accounted target s h) (hadmits : s.admits a = true) : Tx.Answers (s, h) a := by
  cases a with
  | sent i =>
    simp only [Tx.admits, Bool.and_eq_true, decide_eq_true_eq] at hadmits
    obtain ⟨⟨hbegun, -⟩, hout⟩ := hadmits
    have hbalance := hs.balance hbegun i
    change h.called i < h.accepted i + s.taking i
    rw [← hbalance]
    exact Nat.lt_add_of_pos_left (Nat.pos_of_ne_zero hout)
  | work a =>
    cases a with
    | returned ret =>
      simp only [Tx.admits, Bool.or_eq_true, decide_eq_true_eq] at hadmits
      exact fun hw hret => (hadmits.elim (absurd hw) fun hzero => absurd hzero hret)
    | _ => exact trivial
  | _ => exact trivial

/-- A step that the surroundings may take. -/
theorem ReachedFrom.act {target : ℕ} (hpos : 0 < target) {s₀ s s' : Tx} (h₀ : s₀.Called)
    (hs : ∃ h, ReachedFrom target s₀ s h) (a : Tx.Action) (hadmits : s.admits a = true)
    (hnext : s.next target a = some s') : ∃ h, ReachedFrom target s₀ s' h := by
  obtain ⟨h, hs⟩ := hs
  have hstep : (observed target).next (s, h) a = some (s', s.note a s' h) := by
    change (s.next target a).map _ = _
    rw [hnext]
    rfl
  exact ⟨_, .step hs (((hs.reached h₀).accounted hpos).answers hadmits) hstep⟩

end Transmit

end Hil

end LeAudioReceiver
