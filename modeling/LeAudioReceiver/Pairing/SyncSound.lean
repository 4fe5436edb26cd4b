import LeAudioReceiver.Pairing.Moves
import LeAudioReceiver.Pairing.SyncReset

/-!
# What a synchronous reset reports

A call of `pairing_mode_request_reset_sync` that returns 0 should have seen a reset complete, and
its event should be posted only while the call is running.  Both hold in every run in which
`post_sync_done` reads no waiter that registered after the reset had ended, and no call returns
between the read and the post of its event.

* `SyncSys.sync_sound` : the two guarantees in these runs;
* `SyncSys.sync_unsound` : a run for each of them without the condition.
-/

namespace LeAudioReceiver

namespace Pairing

/-! ### Resets that complete -/

/-- Since the log was `since`, a reset that was in progress then or was initiated later has
completed: every operation of the entry of BONDING, the start of advertising last, succeeded. -/
def CompletedSince (since log : List Entry) : Prop :=
  ∃ newer done mid, log = newer ++ .syncDone :: done ∧
    Calls (.expiry :: (mid ++ since)) Ctl.entryOps done ∧
    (inProgress since = true ∨ .initiated ∈ mid)

theorem CompletedSince.mono {since log log' : List Entry} (h : CompletedSince since log)
    (hle : log <:+ log') : CompletedSince since log' := by
  obtain ⟨newer, done, mid, rfl, hdone, hreset⟩ := h
  obtain ⟨es, rfl⟩ := hle
  exact ⟨es ++ newer, done, mid, by simp, hdone, hreset⟩

theorem CompletedSince.length_lt {since log : List Entry} (h : CompletedSince since log) :
    since.length < log.length := by
  obtain ⟨newer, done, mid, rfl, hdone, -⟩ := h
  obtain ⟨es, rfl, -⟩ := hdone.clean
  simp only [List.length_append, List.length_cons]
  omega

/-- The reset in progress was in progress before, or was initiated since. -/
theorem inProgress_append {mid since : List Entry} (h : inProgress (mid ++ since) = true) :
    inProgress since = true ∨ .initiated ∈ mid := by
  induction mid with
  | nil => exact .inl h
  | cons e mid ih =>
    cases e with
    | initiated => exact .inr (List.mem_cons_self ..)
    | syncDone => exact Bool.noConfusion h
    | op | bonding | disconnected | expiry => exact (ih h).imp_right (List.mem_cons_of_mem _)

theorem Calls.inProgress_eq {log log' : List Entry} {os : List Op} (h : Calls log os log') :
    inProgress log' = inProgress log := by
  induction h with
  | nil => rfl
  | op _ _ _ ih => exact ih

namespace Ctl

variable {W : Type*} {exec : Exec W} {k : Cause} {c c' : Ctl W}

/-- A reset of the controller is in progress in the log. -/
def ResetInv (c : Ctl W) : Prop := c.resetInProgress = true → inProgress c.log = true

theorem move_resetInv (hm : Move k c c') (h : c.ResetInv) : c'.ResetInv := by
  cases hm with
  | connected | disconnected | blinkLapse | feedbackLapse => exact h
  | quiet hl | complete _ _ hl | rapidToggle _ _ _ _ hl | slowToggle _ _ _ hl =>
    exact fun hp => hl.inProgress_eq.trans (h hp)
  | start | awaitBonding | bond | endBondingWait | expire => exact nofun
  | awaitReset _ _ hl | reset _ _ hl => exact fun _ => hl.inProgress_eq
  | endResetWait _ hp hl =>
    exact fun _ => hl.inProgress_eq.trans (h (by simp [resetInProgress, hp]))

/-- Where the handler goes on to `post_sync_done`, a reset has completed. -/
theorem feedbackHandler_signals (h : c.signals exec = true) :
    c.resetInProgress = true ∧ ∃ done, Calls (.expiry :: c.log) entryOps done ∧
      (c.feedbackHandler exec).log = .syncDone :: done := by
  simp only [signals, Bool.and_eq_true, Bool.not_eq_true', beq_iff_eq] at h
  obtain ⟨⟨⟨hf, hgen⟩, hphase⟩, hlive⟩ := h
  have hentry : Ends (.expiry :: c.log) (fun c' => Calls (.expiry :: c.log) entryOps c'.log)
      (({ c with blink.pending := false }.note .expiry).finishBondingEntry exec) :=
    finishBondingEntry_ends hf .nil fun w log hl => hl
  refine ⟨by simp [resetInProgress, hphase], _, hentry.of_live hlive, ?_⟩
  rw [feedbackHandler, if_neg (by simp [hf]), if_neg (by simp [hgen]), if_neg (by simp [hphase])]
  dsimp only
  rw [if_neg (by simp [hlive])]
  rfl

end Ctl

/-! ### The invariant -/

/-- The call is the one in the slot, if any is. -/
def CallPc.inSlot : CallPc → Bool
  | .registered => true
  | .waiting => true
  | .woken _ => true
  | _ => false

/-- The event of the call is still on its stack. -/
def CallPc.onStack : CallPc → Bool
  | .deregistered _ => true
  | pc => pc.inSlot

theorem CallPc.onStack_of_inSlot {pc : CallPc} (h : pc.inSlot = true) : pc.onStack = true := by
  cases pc with
  | deregistered got => rfl
  | _ => exact h

/-- The call has received its event. -/
def CallPc.got : CallPc → Bool
  | .woken got => got
  | .deregistered got => got
  | .returned ret => ret == .ok
  | _ => false

/-- What holds of every call. -/
structure CallSound (log : List Entry) (c : Call) : Prop where
  since : c.since <:+ log
  done : c.done = true → CompletedSince c.since log
  got : c.pc.got = true → CompletedSince c.since log

theorem CallSound.mono {log log' : List Entry} {c : Call} (h : CallSound log c)
    (hle : log <:+ log') : CallSound log' c :=
  ⟨h.since.trans hle, fun hd => (h.done hd).mono hle, fun hg => (h.got hg).mono hle⟩

namespace SyncSys

variable {W : Type*} {exec : Exec W} {arrive : Input → W → W} {s s' : SyncSys W}

/-- The invariant of the calls. -/
structure Sound (s : SyncSys W) : Prop where
  kept : s.sys.Kept Ctl.ResetInv
  call : ∀ n, CallSound s.sys.ctl.log (s.calls n)
  slot : ∀ n, s.slot = some n → (s.calls n).pc.inSlot = true
  read : s.post = .read → ∀ n, s.slot = some n → (s.calls n).since ≠ s.sys.ctl.log →
    CompletedSince (s.calls n).since s.sys.ctl.log
  post : ∀ n, s.post = .post (some n) → (s.calls n).pc.onStack = true ∧
    CompletedSince (s.calls n).since s.sys.ctl.log

/-- The condition on a step: the waiter that `post_sync_done` reads registered before the reset
ended, and the call whose event is about to be posted does not return. -/
def Clear (s : SyncSys W) : SyncAction → Prop
  | .readWaiter => ∀ n ∈ s.slot, (s.calls n).since ≠ s.sys.ctl.log
  | .ret n => s.post ≠ .post (some n)
  | _ => True

/-! ### Steps of a call -/

@[simp] theorem setCall_self (n : ℕ) (c : Call) : (s.setCall n c).calls n = c :=
  Function.update_self ..

theorem setCall_ne {n m : ℕ} (c : Call) (h : m ≠ n) : (s.setCall n c).calls m = s.calls m :=
  Function.update_of_ne h ..

theorem Sound.update (h : s.Sound) {n : ℕ} {c : Call} {slot : Option ℕ} {post : PostPc}
    (hc : CallSound s.sys.ctl.log c) (hsince : c.since = (s.calls n).since)
    (hpost : post = .idle ∨ post = s.post ∧
      (s.post = .post (some n) → (s.calls n).pc.onStack = true → c.pc.onStack = true))
    (hslot : ∀ m, slot = some m → s.slot = some m ∧ (m = n → c.pc.inSlot = true)) :
    Sound { s.setCall n c with slot := slot, post := post } := by
  have hkeep : ∀ m, ((s.setCall n c).calls m).since = (s.calls m).since := by
    intro m
    by_cases hm : m = n
    · subst hm
      rw [setCall_self, hsince]
    · rw [setCall_ne c hm]
  refine ⟨h.kept, fun m => ?_, fun m hm => ?_, fun hp m hm hlate => ?_, fun m hp => ?_⟩
  · by_cases hm : m = n
    · subst hm
      exact (setCall_self m c).symm ▸ hc
    · exact (setCall_ne c hm).symm ▸ h.call m
  · by_cases hmn : m = n
    · subst hmn
      exact (setCall_self m c).symm ▸ (hslot m hm).2 rfl
    · exact (setCall_ne c hmn).symm ▸ h.slot m (hslot m hm).1
  · rcases hpost with rfl | ⟨rfl, -⟩
    · exact nomatch hp
    · exact (hkeep m).symm ▸ h.read hp m (hslot m hm).1 (hkeep m ▸ hlate)
  · rcases hpost with rfl | ⟨rfl, hstack⟩
    · exact nomatch hp
    · refine ⟨?_, (hkeep m).symm ▸ (h.post m hp).2⟩
      by_cases hmn : m = n
      · subst hmn
        exact (setCall_self m c).symm ▸ hstack hp (h.post m hp).1
      · exact (setCall_ne c hmn).symm ▸ (h.post m hp).1

theorem Sound.goto (h : s.Sound) {n : ℕ} {pc : CallPc} {slot : Option ℕ}
    (hgot : pc.got = true → CompletedSince (s.calls n).since s.sys.ctl.log)
    (hstack : s.post = .post (some n) → (s.calls n).pc.onStack = true → pc.onStack = true)
    (hslot : ∀ m, slot = some m → s.slot = some m ∧ (m = n → pc.inSlot = true)) :
    Sound { s.setCall n { s.calls n with pc := pc } with slot := slot } :=
  h.update ⟨(h.call n).since, (h.call n).done, hgot⟩ rfl (.inr ⟨rfl, hstack⟩) hslot

theorem Sound.deliver (h : s.Sound) {n : ℕ} (hp : s.post = .post (some n)) :
    Sound { s.setCall n { s.calls n with done := true } with post := .idle } := by
  refine h.update ⟨(h.call n).since, fun _ => (h.post n hp).2, (h.call n).got⟩ rfl (.inl rfl) ?_
  rintro m hm
  exact ⟨hm, fun hmn => hmn ▸ h.slot m hm⟩

theorem Sound.register (h : s.Sound) {n : ℕ} (hpc : (s.calls n).pc = .called) :
    Sound { s.setCall n ⟨.registered, false, s.sys.ctl.log⟩ with slot := some n } := by
  refine ⟨h.kept, fun m => ?_, fun m hm => ?_, fun _ m hm hlate => ?_, fun m hp => ?_⟩
  · by_cases hm : m = n
    · subst hm
      exact (setCall_self m _).symm ▸ ⟨List.suffix_refl _, nofun, nofun⟩
    · exact (setCall_ne _ hm).symm ▸ h.call m
  · obtain rfl := Option.some.inj hm
    exact (setCall_self _ _).symm ▸ rfl
  · obtain rfl := Option.some.inj hm
    exact absurd (congrArg Call.since (setCall_self _ _)) hlate
  · have hon := h.post m hp
    have hmn : m ≠ n := by
      rintro rfl
      rw [hpc] at hon
      exact Bool.noConfusion hon.1
    exact (setCall_ne _ hmn).symm ▸ hon

/-! ### Steps of the controller -/

theorem Sound.signal (h : s.Sound) {sys : Sys W}
    (hsys : s.sys.next exec arrive .feedback = some sys)
    (hsig : { s.sys.ctl with feedback.pending := false }.signals exec = true) (n : ℕ) :
    CompletedSince (s.calls n).since sys.ctl.log := by
  obtain ⟨hreset, done, hdone, hlog⟩ := Ctl.feedbackHandler_signals hsig
  have hf : s.sys.ctl.fatal = false := by
    simp only [Ctl.signals, Bool.and_eq_true, Bool.not_eq_true'] at hsig
    exact hsig.1.1.1
  obtain ⟨mid, hmid⟩ := (h.call n).since
  have hprogress : inProgress (mid ++ (s.calls n).since) = true :=
    hmid ▸ h.kept.of_fatal hf hreset
  simp only [Sys.next] at hsys
  split_ifs at hsys
  obtain rfl := Option.some.inj hsys
  exact ⟨[], done, mid, hlog, hmid ▸ hdone, inProgress_append hprogress⟩

theorem Sound.ctl (h : s.Sound) {a : Action} (hnext : s.next exec arrive (.ctl a) = some s') :
    s'.Sound := by
  simp only [SyncSys.next] at hnext
  split_ifs at hnext with hblock hsig
  all_goals
    obtain ⟨sys, hsys, rfl⟩ := Option.map_eq_some_iff.1 hnext
    have hgrows := h.kept.grows hsys
    have hkept : sys.Kept Ctl.ResetInv := by
      refine h.kept.next ?_ (fun k c c' _ => Ctl.move_resetInv) hsys
      intro c i hc
      cases i <;> exact hc
  · obtain ⟨rfl, hsig⟩ := hsig
    exact ⟨hkept, fun n => (h.call n).mono hgrows, h.slot, fun _ n _ _ => h.signal hsys hsig n,
      nofun⟩
  · refine ⟨hkept, fun n => (h.call n).mono hgrows, h.slot, fun hp n hn hlate => ?_,
      fun n hp => ⟨(h.post n hp).1, (h.post n hp).2.mono hgrows⟩⟩
    -- before the read only inputs arrive, and they leave the log alone
    cases a with
    | input i =>
      obtain rfl := Option.some.inj hsys
      have hlog : (s.sys.ctl.receive arrive i).log = s.sys.ctl.log := by cases i <;> rfl
      exact (h.read hp n hn (hlog ▸ hlate)).mono hgrows
    | _ => exact absurd ⟨rfl, by simp [show s.post = .read from hp]⟩ hblock

theorem Sound.enqueue (h : s.Sound) (pending : Finset Event) :
    Sound { s with sys := { s.sys with pending := pending } } := by
  refine ⟨?_, h.call, h.slot, h.read, h.post⟩
  cases h.kept with
  | live hf hi hw => exact .live hf hi hw
  | dead hf hw c hc hi hlog => exact .dead hf hw c hc hi hlog

/-! ### Runs -/

theorem Sound.refuse (h : s.Sound) {n : ℕ} (hpc : (s.calls n).pc = .called) {ret : SyncRet}
    (hret : ret ≠ .ok) : (s.setCall n { s.calls n with pc := .returned ret }).Sound := by
  refine h.goto (fun hgot => absurd (beq_iff_eq.1 hgot) hret) (fun _ hon => ?_) fun m hm => ⟨hm, ?_⟩
  · rw [hpc] at hon
    exact Bool.noConfusion hon
  · rintro rfl
    have hin := h.slot m hm
    rw [hpc] at hin
    exact Bool.noConfusion hin

/-- Every step under the condition keeps the invariant. -/
theorem Sound.next (h : s.Sound) {a : SyncAction} (hok : s.Clear a)
    (hnext : s.next exec arrive a = some s') : s'.Sound := by
  cases a with
  | ctl a => exact h.ctl hnext
  | register n =>
    simp only [SyncSys.next] at hnext
    -- another call in the slot, or a failed controller, refuses this one
    split_ifs at hnext with hpc hslot hf <;> obtain rfl := Option.some.inj hnext
    · exact h.refuse (not_not.1 hpc) nofun
    · exact h.refuse (not_not.1 hpc) nofun
    · exact h.register (not_not.1 hpc)
  | enqueue n =>
    simp only [SyncSys.next] at hnext
    split_ifs at hnext with hpc
    obtain rfl := Option.some.inj hnext
    refine Sound.goto (h.enqueue (insert .resetSync s.sys.pending)) ?_ ?_ ?_
    · exact fun hgot => Bool.noConfusion hgot
    · exact fun _ _ => rfl
    · exact fun m hm => ⟨hm, fun _ => rfl⟩
  | wake n =>
    simp only [SyncSys.next] at hnext
    split_ifs at hnext with hcond
    obtain rfl := Option.some.inj hnext
    exact h.goto (fun _ => (h.call n).done hcond.2) (fun _ _ => rfl) fun m hm => ⟨hm, fun _ => rfl⟩
  | timeout n =>
    simp only [SyncSys.next] at hnext
    split_ifs at hnext
    obtain rfl := Option.some.inj hnext
    exact h.goto (fun hgot => Bool.noConfusion hgot) (fun _ _ => rfl) fun m hm =>
      ⟨hm, fun _ => rfl⟩
  | deregister n =>
    simp only [SyncSys.next] at hnext
    split at hnext
    · rename_i got hpc
      obtain rfl := Option.some.inj hnext
      refine h.goto (fun hgot => (h.call n).got ?_) (fun _ _ => rfl) nofun
      rw [hpc]
      exact hgot
    · exact nomatch hnext
  | ret n =>
    simp only [SyncSys.next] at hnext
    split at hnext
    · rename_i got hpc
      obtain rfl := Option.some.inj hnext
      refine h.goto (fun hgot => (h.call n).got ?_) (fun hp _ => absurd hp hok) fun m hm => ⟨hm, ?_⟩
      · rw [hpc]
        cases got with
        | true => rfl
        | false => exact Bool.noConfusion hgot
      · -- a call in the slot has not deregistered
        rintro rfl
        have hin := h.slot m hm
        rw [hpc] at hin
        exact Bool.noConfusion hin
    · exact nomatch hnext
  | readWaiter =>
    simp only [SyncSys.next] at hnext
    split_ifs at hnext with hp
    obtain rfl := Option.some.inj hnext
    refine ⟨h.kept, h.call, h.slot, nofun, fun n hn => ?_⟩
    -- by the condition the call registered before the reset ended
    have hslot : s.slot = some n := PostPc.post.inj hn
    exact ⟨CallPc.onStack_of_inSlot (h.slot n hslot), h.read hp n hslot (hok n hslot)⟩
  | postWaiter =>
    simp only [SyncSys.next] at hnext
    split at hnext
    · obtain rfl := Option.some.inj hnext
      exact ⟨h.kept, h.call, h.slot, nofun, nofun⟩
    · rename_i n hp
      obtain rfl := Option.some.inj hnext
      exact h.deliver hp
    · exact nomatch hnext

theorem sound_of_reachableBy {start : W → Prop}
    (h : (machine exec arrive start).ReachableBy Clear s) : s.Sound := by
  refine h.invariant (I := Sound) ?_ fun _ _ _ hs hok hnext => hs.next hok hnext
  rintro _ ⟨w, -, rfl⟩
  exact ⟨.live rfl nofun (.inl rfl), fun _ => ⟨List.suffix_refl _, nofun, nofun⟩, nofun, nofun,
    nofun⟩

/-- **Synchronous resets.**  In every run in which `post_sync_done` reads no waiter that registered
after the reset had ended, and no call returns while its event is about to be posted: a call that
returned 0 has seen a reset complete that was in progress when it registered or was initiated
later, and the event about to be posted belongs to a call that has not returned. -/
theorem sync_sound {start : W → Prop} (h : (machine exec arrive start).ReachableBy Clear s) :
    (∀ n, (s.calls n).pc = .returned .ok → CompletedSince (s.calls n).since s.sys.ctl.log) ∧
    ∀ n, s.post = .post (some n) → ∀ ret, (s.calls n).pc ≠ .returned ret := by
  have hs := sound_of_reachableBy h
  refine ⟨fun n hpc => (hs.call n).got (by rw [hpc]; rfl), fun n hp ret hpc => ?_⟩
  have hon := (hs.post n hp).1
  rw [hpc] at hon
  exact Bool.noConfusion hon

/-! ### Runs -/

instance (s : SyncSys W) (a : SyncAction) : Decidable (s.Clear a) :=
  match a with
  | .readWaiter => inferInstanceAs (Decidable (∀ n ∈ s.slot, _))
  | .ret _ => inferInstanceAs (Decidable (_ ≠ _))
  | .ctl _ | .register _ | .enqueue _ | .wake _ | .timeout _ | .deregister _ | .postWaiter =>
    inferInstanceAs (Decidable True)

theorem init_reachable {start : W → Prop} {ok : SyncSys W → SyncAction → Prop} {w : W}
    (h : start w) : (machine exec arrive start).ReachableBy ok
      ⟨⟨Ctl.init w, ∅, [], ∅⟩, none, .idle, fun _ => ⟨.called, false, []⟩⟩ :=
  .init ⟨w, h, rfl⟩

/-- A pass of the controller. -/
def ctlPass (n : ℕ) : List SyncAction := (pass n).map .ctl

/-- The started controller, and a call whose reset has come to its end. -/
def callToEnd : List SyncAction :=
  .ctl (.input .start) :: ctlPass 1 ++ .register 0 :: .enqueue 0 :: ctlPass 2 ++ [.ctl .feedback]

/-- A call that waits for its reset returns 0. -/
theorem sync_sound_waited :
    ∃ s : SyncSys Bool, (machine peerExec peerArrive fun _ => True).ReachableBy Clear s ∧
      (s.calls 0).pc = .returned .ok ∧ CompletedSince (s.calls 0).since s.sys.ctl.log := by
  have hrun : (((machine peerExec peerArrive fun _ => True).runBy Clear
      ⟨⟨Ctl.init false, ∅, [], ∅⟩, none, .idle, fun _ => ⟨.called, false, []⟩⟩
      (callToEnd ++ [.readWaiter, .postWaiter, .wake 0, .deregister 0, .ret 0])).map
        fun s => (s.calls 0).pc) = some (.returned .ok) := by decide +kernel
  obtain ⟨s, hs, hpc⟩ := Option.map_eq_some_iff.1 hrun
  have hreach := (init_reachable trivial).runBy hs
  exact ⟨s, hreach, hpc, (sync_sound hreach).1 0 hpc⟩

/-- Two runs.  A call times out between the read of the waiter and the post, which then goes to a
call that has returned.  A call registers after a reset has ended and before the waiter is read: it
returns 0 though no reset has completed since it registered. -/
theorem sync_unsound :
    (∃ s : SyncSys Bool, (machine peerExec peerArrive fun _ => True).Reachable s ∧
      s.post = .post (some 0) ∧ (s.calls 0).pc = .returned .timedOut) ∧
    ∃ s : SyncSys Bool, (machine peerExec peerArrive fun _ => True).Reachable s ∧
      (s.calls 0).pc = .returned .ok ∧ (s.calls 0).since = s.sys.ctl.log ∧
      ¬ CompletedSince (s.calls 0).since s.sys.ctl.log := by
  constructor
  · have hrun : (((machine peerExec peerArrive fun _ => True).run
        ⟨⟨Ctl.init false, ∅, [], ∅⟩, none, .idle, fun _ => ⟨.called, false, []⟩⟩
        (callToEnd ++ [.readWaiter, .timeout 0, .deregister 0, .ret 0])).map
          fun s => (s.post, (s.calls 0).pc)) =
        some (.post (some 0), .returned .timedOut) := by decide +kernel
    obtain ⟨s, hs, h⟩ := Option.map_eq_some_iff.1 hrun
    obtain ⟨hpost, hpc⟩ : _ ∧ _ := by simpa only [Prod.mk.injEq] using h
    exact ⟨s, Machine.Reachable.run (init_reachable trivial) hs, hpost, hpc⟩
  · have hrun : (((machine peerExec peerArrive fun _ => True).run
        ⟨⟨Ctl.init false, ∅, [], ∅⟩, none, .idle, fun _ => ⟨.called, false, []⟩⟩
        (.ctl (.input .start) :: ctlPass 1 ++ .ctl (.input .requestReset) :: ctlPass 2 ++
          [.ctl .feedback, .register 0, .enqueue 0, .readWaiter, .postWaiter, .wake 0,
            .deregister 0, .ret 0])).map
          fun s => ((s.calls 0).pc, decide ((s.calls 0).since = s.sys.ctl.log))) =
        some (.returned .ok, true) := by decide +kernel
    obtain ⟨s, hs, h⟩ := Option.map_eq_some_iff.1 hrun
    obtain ⟨hpc, hsince⟩ : _ ∧ _ := by simpa only [Prod.mk.injEq, decide_eq_true_eq] using h
    refine ⟨s, Machine.Reachable.run (init_reachable trivial) hs, hpc, hsince, fun hc => ?_⟩
    exact absurd (hsince ▸ hc.length_lt) (Nat.lt_irrefl _)

end SyncSys

end Pairing

end LeAudioReceiver
