import LeAudioReceiver.Pairing.Disconnect
import LeAudioReceiver.Pairing.Moves

/-!
# The access mode in the status

`g_status.access_mode` is written beside every operation that sets the access mode, in five places.
`do_bonding` is the exception: it suspends access and leaves the status as it was, until the
disconnect it waits for sets it to BONDING.

* `Ctl.access_mirrored` : the status shows the access mode last set exactly where no bonding
  request waits for a disconnect;
* `Ctl.access_behind` : a bonding request that waits for its peer.
-/

namespace LeAudioReceiver

namespace Pairing

/-- The access operation. -/
def Op.access : Op → Option AccessMode
  | .setAccessMode mode => some mode
  | _ => none

namespace Ctl

section Access

variable {W : Type*} {exec : Exec W} {arrive : Input → W → W} {c c' : Ctl W} {ev : Finset Event}

/-- The status shows the access mode that was set last. -/
def Mirrors (c : Ctl W) : Prop := lastDone Op.access c.log = some c.status.accessMode

/-- The invariant of the access mode, while no operation has failed. -/
structure AccessInv (c : Ctl W) : Prop where
  mirror : c.started = true → c.status.phase ≠ .waitDisconnectForBonding → c.Mirrors
  held : c.status.phase = .waitDisconnectForBonding →
    c.started = true ∧ lastDone Op.access c.log = some .suspended
  unsuspended : c.started = true → c.resetInProgress = false → c.status.accessMode ≠ .suspended

theorem lastDone_of_calls {os : List Op} {log log' : List Entry} (hl : Calls log os log')
    (ho : ∀ o ∈ os, o.access = none) : lastDone Op.access log' = lastDone Op.access log := by
  rw [hl.lastDone_eq, List.findSome?_eq_none_iff.2 ho]
  rfl

theorem AccessInv.same (h : c.AccessInv)
    (hlog : lastDone Op.access c'.log = lastDone Op.access c.log) (hst : c'.started = c.started)
    (hphase : c'.status.phase = c.status.phase)
    (haccess : c'.status.accessMode = c.status.accessMode) : c'.AccessInv := by
  refine ⟨?_, ?_, ?_⟩
  · rw [Mirrors, hlog, hst, hphase, haccess]
    exact h.mirror
  · rw [hlog, hst, hphase]
    exact h.held
  · rw [resetInProgress, hst, hphase, haccess]
    exact h.unsuspended

theorem entered_accessInv {base log : List Entry} {os : List Op} {w : W} (hl : Calls base os log)
    (ho : os.findSome? Op.access = some .bonding) : (c.entered w log).AccessInv := by
  refine ⟨fun _ _ => ?_, nofun, fun _ _ => nofun⟩
  show lastDone Op.access log = some .bonding
  rw [hl.lastDone_eq, ho]
  rfl

theorem move_accessInv {k : Cause} (hm : Move k c c') (h : c.AccessInv) : c'.AccessInv := by
  cases hm with
  | quiet hl ho =>
    refine h.same (lastDone_of_calls hl fun o hmem => ?_) rfl rfl rfl
    rcases ho o hmem with rfl | rfl | rfl | rfl <;> rfl
  | connected => exact h.same rfl rfl rfl rfl
  | disconnected => exact h.same rfl rfl rfl rfl
  | start hs hl =>
    refine ⟨fun _ _ => ?_, nofun, fun _ _ => nofun⟩
    rw [Mirrors, hl.lastDone_eq]
    rfl
  | awaitBonding hs hp hl =>
    refine ⟨fun _ hnot => absurd rfl hnot, fun _ => ⟨hs, ?_⟩, fun _ _ => h.unsuspended hs hp⟩
    rw [hl.lastDone_eq]
    rfl
  | bond hs hp hl => exact entered_accessInv hl rfl
  | endBondingWait hs hp hl => exact entered_accessInv hl rfl
  | awaitReset hs hp hl =>
    refine ⟨fun _ _ => ?_, nofun, fun _ hnot => Bool.noConfusion hnot⟩
    rw [Mirrors, hl.lastDone_eq]
    rfl
  | reset hs hp hl =>
    refine ⟨fun _ _ => ?_, nofun, fun _ hnot => Bool.noConfusion hnot⟩
    rw [Mirrors, fedBack, hl.lastDone_eq]
    rfl
  | endResetWait hs hp hl =>
    refine ⟨fun _ _ => ?_, nofun, fun _ hnot => Bool.noConfusion hnot⟩
    exact (lastDone_of_calls hl (by decide)).trans (h.mirror hs (by simp [hp]))
  | complete hs hb hl =>
    refine ⟨fun _ _ => ?_, fun hp => ?_, fun _ _ => nofun⟩
    · rw [Mirrors, hl.lastDone_eq]
      rfl
    · simp [bondingIdle, show c.status.phase = _ from hp] at hb
  | blinkLapse => exact h.same rfl rfl rfl rfl
  | rapidToggle again hg hr hp hl =>
    refine h.same (lastDone_of_calls hl ?_) rfl rfl rfl
    cases again <;> simp [Op.access]
  | slowToggle hg hr hb hl => exact h.same (lastDone_of_calls hl (by simp [Op.access])) rfl rfl rfl
  | feedbackLapse => exact h.same rfl rfl rfl rfl
  | @expire _ w log hg hp hl => exact (entered_accessInv (w := w) hl rfl).same rfl rfl rfl rfl

theorem accessInv_of_reachable {start : W → Prop} {s : Sys W}
    (h : (Sys.machine exec arrive start).Reachable s) (hf : s.ctl.fatal = false) :
    s.ctl.AccessInv := by
  refine (Sys.kept_of_reachable h ?_ ?_ fun k c c' _ => move_accessInv).of_fatal hf
  · exact fun w => ⟨nofun, nofun, nofun⟩
  · intro c i hc
    cases i <;> exact hc.same rfl rfl rfl rfl

/-- The access mode is mirrored exactly where no bonding request waits. -/
theorem mirrors_iff {start : W → Prop} {s : Sys W}
    (h : (Sys.machine exec arrive start).Reachable s) (hs : s.ctl.started = true)
    (hf : s.ctl.fatal = false) :
    s.ctl.Mirrors ↔ s.ctl.status.phase ≠ .waitDisconnectForBonding := by
  have hinv := accessInv_of_reachable h hf
  refine ⟨fun hm hp => ?_, hinv.mirror hs⟩
  -- access is suspended, and the status shows what it was before
  have heq := Option.some.inj (hm.symm.trans (hinv.held hp).2)
  exact hinv.unsuspended hs (by simp [resetInProgress, hp]) heq

/-! ### Bonding requests that wait -/

/-- A bonding request is taken up, and its disconnect is pending. -/
def BondingHeld (exec : Exec W) (c : Ctl W) (ev : Finset Event) : Prop :=
  .bonding ∈ ev ∧ c.resetInProgress = false ∧ ¬ (c.bondingIdle ∧ ¬ c.status.connected) ∧
    disconnectPending exec c.world = true

/-- The condition on a step: the mask of a bonding request that has to wait already holds the
disconnect. -/
def PromptBonding (exec : Exec W) (s : Sys W) (a : Action) : Prop :=
  a = .stage → s.work.head? = some .bonding → BondingHeld exec s.ctl s.mask →
    .disconnected ∈ s.mask

/-- Only the bonding part starts to wait for bonding. -/
theorem Moves.waits {k : Cause} (hms : Moves k c c')
    (hp : c'.status.phase = .waitDisconnectForBonding) :
    c.status.phase = .waitDisconnectForBonding ∨ k = .part .bonding := by
  induction hms with
  | refl => exact .inl hp
  | tail _ hm ih =>
    cases hm with
    | awaitBonding => exact .inr rfl
    | quiet | connected | disconnected | complete | blinkLapse | rapidToggle | slowToggle
    | feedbackLapse => exact ih hp
    | start | bond | endBondingWait | awaitReset | reset | endResetWait | expire =>
      exact absurd hp nofun

theorem stageBonding_waits (hf : c.fatal = false)
    (hfree : c.status.phase ≠ .waitDisconnectForBonding)
    (hf' : (c.stageBonding exec ev).1.fatal = false)
    (hp : (c.stageBonding exec ev).1.status.phase = .waitDisconnectForBonding) :
    BondingHeld exec c ev := by
  simp only [stageBonding] at hf' hp
  split_ifs at hf' hp with hev hreset hidle
  · exact absurd hp hfree
  · exact absurd hp hfree
  · refine ⟨hev, by simpa using hreset, hidle, ?_⟩
    have hends : Ends (.bonding :: c.log) (fun c' => c'.status.phase = .waitDisconnectForBonding →
        disconnectPending exec c.world = true)
        ((c.bumpGeneration.note .bonding).doBonding exec) := by
      refine attempt_ends hf .nil (by simp) fun h₁ => ?_
      refine attempt_ends hf h₁ (by simp) fun h₂ => ?_
      refine attempt_ends hf h₂ (by simp) fun h₃ => ?_
      dsimp only
      split
      · rename_i hpend
        exact .inl fun _ => hpend
      · exact finishBondingEntry_ends hf h₃ fun w log _ => by simp [entered]
    exact hends.of_live hf' hp
  · exact absurd hp hfree

theorem stageDisconnected_ends (hf : c.fatal = false) (hev : .disconnected ∈ ev)
    (hp : c.status.phase = .waitDisconnectForBonding)
    (hf' : (c.stageDisconnected exec ev).1.fatal = false) :
    (c.stageDisconnected exec ev).1.status.phase ≠ .waitDisconnectForBonding := by
  have hstage : (c.stageDisconnected exec ev).1 =
      ({ c with status.connected := false }.note .disconnected).finishBondingEntry exec := by
    simp [stageDisconnected, hev, hp, note]
  have hends : Ends (.disconnected :: c.log)
      (fun c' => c'.status.phase ≠ .waitDisconnectForBonding) (c.stageDisconnected exec ev).1 := by
    rw [hstage]
    exact finishBondingEntry_ends hf .nil fun w log _ => by simp [entered]
  exact hends.of_live hf'

/-- The two parts between a bonding request and its disconnect go on unless they fail. -/
theorem stage_goes_on {st : Stage} (hst : st = .bonding ∨ st = .connected)
    (hf : (c.stage exec ev st).1.fatal = false) : (c.stage exec ev st).2 = true := by
  rcases hst with rfl | rfl
  · simp only [stage, stageBonding] at hf ⊢
    split_ifs at hf ⊢ <;> simp_all
  · simp only [stage, stageConnected] at hf ⊢
    split_ifs at hf ⊢ <;> simp_all

/-- While a bonding request waits inside of a pass, its disconnect is in the mask. -/
structure PromptInv (s : Sys W) : Prop where
  kept : s.Kept fun _ => True
  pass : s.work ∈ Stage.all.tails
  prompt : s.ctl.fatal = false → s.ctl.status.phase = .waitDisconnectForBonding →
    .disconnected ∈ s.mask ∧ (s.work = Stage.all.drop 3 ∨ s.work = Stage.all.drop 4)

theorem PromptInv.idle {s : Sys W} (h : PromptInv s) (hw : s.work = []) (hf : s.ctl.fatal = false) :
    s.ctl.status.phase ≠ .waitDisconnectForBonding := by
  intro hp
  obtain ⟨-, hwork | hwork⟩ := h.prompt hf hp <;> simp [hw, Stage.all] at hwork

/-- A delayed work does not start to wait. -/
theorem PromptInv.work {s : Sys W} (h : PromptInv s) (hw : s.work = []) {k : Work} {c' : Ctl W}
    (hms : c'.fatal = false → s.ctl.fatal = false ∧ Moves (.work k) s.ctl c')
    (hk : Sys.Kept (fun _ => True) { s with ctl := c' }) : PromptInv { s with ctl := c' } := by
  refine ⟨hk, h.pass, fun hf hp => ?_⟩
  obtain ⟨hlive, hms⟩ := hms hf
  rcases hms.waits hp with hp' | hk'
  · exact absurd hp' (h.idle hw hlive)
  · exact nomatch hk'

theorem PromptInv.part {s s' : Sys W} (h : PromptInv s) (hok : PromptBonding exec s .stage)
    (hnext : s.next exec arrive .stage = some s') (hk : s'.Kept fun _ => True) : PromptInv s' := by
  simp only [Sys.next] at hnext
  cases hwork : s.work with
  | nil => simp only [hwork] at hnext; cases hnext
  | cons st sts =>
    simp only [hwork] at hnext
    obtain rfl := Option.some.inj hnext
    have hpass := h.pass
    rw [hwork] at hpass
    have hsts : sts ∈ Stage.all.tails := by
      rw [List.mem_tails] at hpass ⊢
      exact (List.suffix_cons st sts).trans hpass
    refine ⟨hk, ?_, fun hf' hp' => ?_⟩
    · dsimp only
      split
      · exact hsts
      · simp
    · obtain ⟨hf, hs⟩ := h.kept.of_work hwork
      have hwaits : s.ctl.status.phase = .waitDisconnectForBonding ∨ st = .bonding := by
        have hms := (stage_ends hf s.mask hs).of_live hf'
        exact (hms.waits hp').imp_right Cause.part.inj
      by_cases hp : s.ctl.status.phase = .waitDisconnectForBonding
      · obtain ⟨hmask, hrest⟩ := h.prompt hf hp
        refine ⟨hmask, ?_⟩
        rcases hrest with hrest | hrest <;> rw [hwork] at hrest <;>
          obtain ⟨rfl, rfl⟩ := List.cons.inj hrest
        · exact .inr (if_pos (stage_goes_on (.inr rfl) hf'))
        · exact absurd hp' (stageDisconnected_ends hf hmask hp hf')
      · obtain rfl := hwaits.resolve_left hp
        refine ⟨hok rfl (by simp [hwork]) (stageBonding_waits hf hp hf' hp'), .inl ?_⟩
        rw [if_pos (stage_goes_on (.inl rfl) hf')]
        simpa [Stage.all] using hpass

theorem promptInv_of_reachableBy {start : W → Prop} {s : Sys W}
    (h : (Sys.machine exec arrive start).ReachableBy (PromptBonding exec) s) : PromptInv s := by
  refine h.invariant (I := PromptInv) ?_ ?_
  · rintro _ ⟨w, -, rfl⟩
    exact ⟨.live rfl trivial (.inl rfl), by simp, nofun⟩
  · clear h s
    intro s a s' hs hok hnext
    have hk : s'.Kept fun _ => True :=
      hs.kept.next (fun _ _ _ => trivial) (fun _ _ _ _ _ _ => trivial) hnext
    cases a with
    | input i =>
      obtain rfl := Option.some.inj hnext
      refine ⟨hk, hs.pass, fun hf hp => hs.prompt ((Sys.receive_fatal _ i).symm.trans hf) ?_⟩
      cases i <;> exact hp
    | begin =>
      simp only [Sys.machine, Sys.next] at hnext
      split_ifs at hnext with hcond
      obtain rfl := Option.some.inj hnext
      exact ⟨hk, by simp, fun hf hp => absurd hp (hs.idle hcond.1 hf)⟩
    | stage => exact hs.part hok (show s.next exec arrive .stage = some s' from hnext) hk
    | blink =>
      simp only [Sys.machine, Sys.next] at hnext
      split_ifs at hnext with hcond
      obtain rfl := Option.some.inj hnext
      exact hs.work hcond.1 blinkHandler_moves hk
    | feedback =>
      simp only [Sys.machine, Sys.next] at hnext
      split_ifs at hnext with hcond
      obtain rfl := Option.some.inj hnext
      exact hs.work hcond.1 feedbackHandler_moves hk

/-- **The access mode.**  In every reachable state of a started controller none of whose operations
has failed, the status shows the access mode that was set last if and only if no bonding request
waits for a disconnect; and in every run in which the masks of waiting bonding requests hold the
disconnect, it does so between any two passes. -/
theorem access_mirrored {start : W → Prop} {s : Sys W} (hs : s.ctl.started = true)
    (hf : s.ctl.fatal = false) :
    ((Sys.machine exec arrive start).Reachable s →
      (s.ctl.Mirrors ↔ s.ctl.status.phase ≠ .waitDisconnectForBonding)) ∧
    ((Sys.machine exec arrive start).ReachableBy (PromptBonding exec) s → s.work = [] →
      s.ctl.Mirrors) := by
  refine ⟨fun h => mirrors_iff h hs hf, fun h hw => ?_⟩
  exact (mirrors_iff h.reachable hs hf).2 ((promptInv_of_reachableBy h).idle hw hf)

instance (s : Sys W) (a : Action) : Decidable (PromptBonding exec s a) :=
  inferInstanceAs (Decidable (_ → _ → _ ∧ _ ∧ _ ∧ _ → _))

/-- A bonding request and the disconnect of the peer in one mask. -/
theorem access_mirrored_prompt :
    ∃ s : Sys Bool,
      (Sys.machine peerExec peerArrive fun _ => True).ReachableBy (PromptBonding peerExec) s ∧
      s.work = [] ∧ s.ctl.started = true ∧ s.ctl.fatal = false ∧
      s.ctl.status.accessMode = .bonding ∧ s.ctl.Mirrors := by
  have hrun : (((Sys.machine peerExec peerArrive fun _ => True).runBy (PromptBonding peerExec)
      ⟨init false, ∅, [], ∅⟩ (.input .start :: pass 1 ++ .input .connected :: pass 8 ++
        .input .requestBonding :: .input .disconnected :: pass 8)).map fun s =>
          (s.work, s.ctl.started, s.ctl.fatal, s.ctl.status.accessMode)) =
      some ([], true, false, .bonding) := by decide +kernel
  obtain ⟨s, hs, h⟩ := Option.map_eq_some_iff.1 hrun
  obtain ⟨hwork, hstarted, hf, hmode⟩ : _ ∧ _ ∧ _ ∧ _ := by simpa only [Prod.mk.injEq] using h
  have hreach := (Sys.init_reachable trivial).runBy hs
  exact ⟨s, hreach, hwork, hstarted, hf, hmode, (access_mirrored hstarted hf).2 hreach hwork⟩

/-- A bonding request waits for its peer: access is suspended, and the status shows NORMAL. -/
theorem access_behind :
    ∃ s : Sys Bool, (Sys.machine peerExec peerArrive fun _ => True).Reachable s ∧
      s.work = [] ∧ s.pending = ∅ ∧ s.ctl.started = true ∧ s.ctl.fatal = false ∧
      lastDone Op.access s.ctl.log = some .suspended ∧ s.ctl.status.accessMode = .normal ∧
      ¬ s.ctl.Mirrors := by
  have hrun : (((Sys.machine peerExec peerArrive fun _ => True).run ⟨init false, ∅, [], ∅⟩
      (.input .start :: pass 1 ++ .input .connected :: pass 8 ++
        .input .requestBonding :: pass 8)).map fun s => ((s.work, s.pending, s.ctl.started,
          s.ctl.fatal), lastDone Op.access s.ctl.log, s.ctl.status.accessMode)) =
      some (([], ∅, true, false), some .suspended, .normal) := by decide +kernel
  obtain ⟨s, hs, h⟩ := Option.map_eq_some_iff.1 hrun
  obtain ⟨⟨hwork, hpend, hstarted, hf⟩, hlast, hmode⟩ : (_ ∧ _ ∧ _ ∧ _) ∧ _ ∧ _ := by
    simpa only [Prod.mk.injEq] using h
  refine ⟨s, Machine.Reachable.run (Sys.init_reachable trivial) hs, hwork, hpend, hstarted, hf,
    hlast, hmode, fun hm => ?_⟩
  rw [Mirrors, hlast, hmode] at hm
  exact nomatch hm

end Access

end Ctl

end Pairing

end LeAudioReceiver
