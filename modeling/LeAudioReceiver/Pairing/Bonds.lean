import LeAudioReceiver.Pairing.Run

/-!
# When bonds are deleted

Bonds are deleted on two paths: by a reset that finds no peer, and by the disconnect that a reset
has waited for.  `MayDelete` is what the log has to show before a deletion: the last initiated
reset has suspended advertising and access and disconnected the peer, nothing has ended or
superseded it, it has not deleted bonds yet, and the peer is gone.

* `Ctl.delete_ordered` : every deletion in the log of every run is of this kind; every initiated
  reset and every bonding request bumps the generation once; and a RESET that joins a reset in
  progress does nothing.
-/

namespace LeAudioReceiver

namespace Pairing

/-- An entry that neither initiates nor ends a transition, and deletes no bonds. -/
def Entry.quiet : Entry → Bool
  | .op .deleteAllBonds _ => false
  | .initiated => false
  | .bonding => false
  | .expiry => false
  | _ => true

/-- An entry of a transition that bumps the generation. -/
def Entry.bumps (e : Entry) : Bool := e == .initiated || e == .bonding

/-- Since the last initiated reset, which disconnected the peer with the reply `r`, only the quiet
entries `newer` were added. -/
def Requested (newer : List Entry) (r : Reply) (log : List Entry) : Prop :=
  ∃ r₁ r₂ older, log = newer ++ .op .disconnectPeer r :: .op (.setAccessMode .suspended) r₂ ::
      .op .advertisingSuspend r₁ :: .initiated :: older ∧
    0 ≤ r.ret ∧ 0 ≤ r₂.ret ∧ 0 ≤ r₁.ret ∧ ∀ e ∈ newer, e.quiet = true

/-- Bonds may be deleted: the last reset was requested, and its peer is gone. -/
def MayDelete (log : List Entry) : Prop :=
  ∃ newer r, Requested newer r log ∧ (r.pending = false ∨ .disconnected ∈ newer)

theorem Requested.cons {newer : List Entry} {r : Reply} {log : List Entry}
    (h : Requested newer r log) {e : Entry} (he : e.quiet = true) :
    Requested (e :: newer) r (e :: log) := by
  obtain ⟨r₁, r₂, older, rfl, hr, hr₂, hr₁, hq⟩ := h
  exact ⟨r₁, r₂, older, rfl, hr, hr₂, hr₁, List.forall_mem_cons.2 ⟨he, hq⟩⟩

/-- Every deletion was allowed, and the generation counts the transitions. -/
structure LogInv (log : List Entry) (generation : UInt32) : Prop where
  deletes : ∀ newer r older, log = newer ++ .op .deleteAllBonds r :: older → MayDelete older
  generation : generation = UInt32.ofNat (log.countP Entry.bumps)

namespace LogInv

variable {log : List Entry} {gen : UInt32}

theorem deletes_cons (h : LogInv log gen) {e : Entry} (he : ∀ r, e ≠ .op .deleteAllBonds r)
    (newer : List Entry) (r : Reply) (older : List Entry)
    (hl : e :: log = newer ++ .op .deleteAllBonds r :: older) : MayDelete older := by
  cases newer with
  | nil => exact absurd (List.cons.inj hl).1 (he r)
  | cons e' newer => exact h.deletes newer r older (List.cons.inj hl).2

theorem quiet (h : LogInv log gen) {e : Entry} (he : e.quiet = true) : LogInv (e :: log) gen := by
  refine ⟨h.deletes_cons ?_, ?_⟩
  · rintro r rfl
    exact Bool.noConfusion he
  · have hb : e.bumps = false := by
      cases e <;> first | rfl | exact Bool.noConfusion he
    rw [List.countP_cons_of_neg (by simp [hb])]
    exact h.generation

theorem bump (h : LogInv log gen) {e : Entry} (he : e.bumps = true) :
    LogInv (e :: log) (gen + 1) := by
  refine ⟨h.deletes_cons ?_, ?_⟩
  · rintro r rfl
    exact Bool.noConfusion he
  · rw [List.countP_cons_of_pos he, h.generation]
    exact (UInt32.ofNat_add _ 1).symm

theorem expiry (h : LogInv log gen) : LogInv (.expiry :: log) gen :=
  ⟨h.deletes_cons fun _ => Entry.noConfusion, by
    rw [List.countP_cons_of_neg (by decide)]
    exact h.generation⟩

theorem delete (h : LogInv log gen) (hd : MayDelete log) (r : Reply) :
    LogInv (.op .deleteAllBonds r :: log) gen := by
  refine ⟨fun newer r' older hl => ?_, ?_⟩
  · cases newer with
    | nil =>
      obtain rfl := (List.cons.inj hl).2
      exact hd
    | cons e' newer => exact h.deletes newer r' older (List.cons.inj hl).2
  · rw [List.countP_cons_of_neg (by simp [Entry.bumps])]
    exact h.generation

end LogInv

namespace Ctl

section Bonds

variable {W : Type*} {exec : Exec W} {arrive : Input → W → W} {c : Ctl W}

/-- The invariant: while a reset waits, only the disconnect is missing. -/
structure BondInv (c : Ctl W) : Prop where
  log : LogInv c.log c.status.generation
  waiting : c.fatal = false → c.status.phase = .waitDisconnectForReset →
    ∃ newer r, Requested newer r c.log

theorem bondInv_of_phase (h : LogInv c.log c.status.generation)
    (hp : c.status.phase ≠ .waitDisconnectForReset) : c.BondInv :=
  ⟨h, fun _ hw => absurd hw hp⟩

/-! ### Operations -/

theorem fatalFinalize_bondInv (h : LogInv c.log c.status.generation) :
    (c.fatalFinalize exec).BondInv := by
  refine ⟨?_, fun hf => Bool.noConfusion (fatalFinalize_fatal.symm.trans hf)⟩
  unfold fatalFinalize
  split_ifs
  · exact h
  · exact (h.quiet rfl).quiet rfl

theorem attempt_bondInv {o : Op} {k : Reply → Ctl W → Ctl W}
    (h : LogInv c.log c.status.generation) (ho : o ≠ .deleteAllBonds)
    (hk : 0 ≤ (exec o c.world).1.ret → LogInv (c.call exec o).2.log c.status.generation →
      (k (exec o c.world).1 (c.call exec o).2).BondInv) : (c.attempt exec o k).BondInv := by
  have hcall : LogInv (c.call exec o).2.log c.status.generation := by
    refine h.quiet ?_
    cases o <;> first | rfl | exact absurd rfl ho
  exact attempt_cases (fun _ => fatalFinalize_bondInv hcall) fun hr => hk hr hcall

theorem BondInv.attempt (h : c.BondInv) {o : Op} {k : Reply → Ctl W → Ctl W}
    (ho : o ≠ .deleteAllBonds)
    (hk : (c.call exec o).2.BondInv → (k (exec o c.world).1 (c.call exec o).2).BondInv) :
    (c.attempt exec o k).BondInv := by
  have hq : (Entry.op o (exec o c.world).1).quiet = true := by
    cases o <;> first | rfl | exact absurd rfl ho
  refine attempt_bondInv h.log ho fun _ h' => hk ⟨h', fun hf hp => ?_⟩
  obtain ⟨newer, r, hreq⟩ := h.waiting hf hp
  exact ⟨_, r, hreq.cons hq⟩

theorem ledSetActive_bondInv {active : Bool} {k : Ctl W → Ctl W}
    (h : LogInv c.log c.status.generation)
    (hk : ∀ c' : Ctl W, LogInv c'.log c'.status.generation →
      c'.status.phase = c.status.phase → (k c').BondInv) :
    (c.ledSetActive exec active k).BondInv :=
  attempt_bondInv h (by simp) fun _ h' => hk _ h' rfl

theorem restartBlink_bondInv {rapid : Bool} {k : Ctl W → Ctl W}
    (h : LogInv c.log c.status.generation)
    (hk : ∀ c' : Ctl W, LogInv c'.log c'.status.generation →
      c'.status.phase = c.status.phase → (k c').BondInv) :
    (c.restartBlink exec rapid k).BondInv := by
  unfold restartBlink
  exact attempt_bondInv h (by simp) fun _ h' => hk _ h' rfl

/-! ### Transitions -/

theorem finishBondingEntry_bondInv (h : LogInv c.log c.status.generation) :
    (c.finishBondingEntry exec).BondInv := by
  refine attempt_bondInv h (by simp) fun _ h₁ => ?_
  refine ledSetActive_bondInv h₁ fun c₂ h₂ _ => ?_
  refine restartBlink_bondInv h₂ fun c₃ h₃ _ => ?_
  exact attempt_bondInv h₃ (by simp) fun _ h₄ => bondInv_of_phase h₄ (by simp)

/-- The only deletion of the source. -/
theorem startResetFeedback_bondInv (h : LogInv c.log c.status.generation)
    (hd : MayDelete c.log) : (c.startResetFeedback exec).BondInv := by
  have hcall := h.delete hd (exec .deleteAllBonds c.world).1
  refine attempt_cases (fun _ => fatalFinalize_bondInv hcall) fun _ => ?_
  refine ledSetActive_bondInv hcall fun c₂ h₂ hp₂ => ?_
  refine restartBlink_bondInv h₂ fun c₃ h₃ hp₃ => ?_
  refine attempt_bondInv h₃ (by simp) fun _ h₄ => bondInv_of_phase h₄ ?_
  show c₃.status.phase ≠ _
  rw [hp₃, hp₂]
  simp

theorem doStart_bondInv (h : LogInv c.log c.status.generation) : (c.doStart exec).BondInv := by
  refine attempt_bondInv h (by simp) fun _ h₁ => ?_
  refine ledSetActive_bondInv h₁ fun c₂ h₂ _ => ?_
  exact attempt_bondInv h₂ (by simp) fun _ h₃ => bondInv_of_phase h₃ (by simp)

theorem doBonding_bondInv (h : LogInv c.log c.status.generation) : (c.doBonding exec).BondInv := by
  refine attempt_bondInv h (by simp) fun _ h₁ => ?_
  refine attempt_bondInv h₁ (by simp) fun _ h₂ => ?_
  refine attempt_bondInv h₂ (by simp) fun _ h₃ => ?_
  dsimp only
  split
  · exact bondInv_of_phase h₃ (by simp)
  · exact finishBondingEntry_bondInv h₃

/-- A reset disconnects its peer, and deletes at once if there is none. -/
theorem doReset_bondInv (h : c.BondInv) : (c.doReset exec).BondInv := by
  unfold doReset
  split_ifs
  · exact h
  · refine attempt_bondInv (h.log.bump (by decide)) (by simp) fun hr₁ h₁ => ?_
    refine attempt_bondInv h₁ (by simp) fun hr₂ h₂ => ?_
    refine attempt_bondInv h₂ (by simp) fun hr h₃ => ?_
    have hreq : Requested [] _ (_ :: _ :: _ :: _ :: c.log) :=
      ⟨_, _, c.log, rfl, hr, hr₂, hr₁, List.forall_mem_nil _⟩
    dsimp only
    split
    · exact ⟨h₃, fun _ _ => ⟨_, _, hreq⟩⟩
    · rename_i hp
      exact startResetFeedback_bondInv h₃ ⟨_, _, hreq, .inl (by simpa using hp)⟩

theorem doCompleteToNormal_bondInv (h : c.BondInv) (hb : c.bondingIdle = true) :
    (c.doCompleteToNormal exec).BondInv := by
  have hp : c.status.phase ≠ .waitDisconnectForReset := by
    intro hw
    simp [bondingIdle, hw] at hb
  unfold doCompleteToNormal
  refine attempt_bondInv h.log (by simp) fun _ h₁ => ?_
  exact ledSetActive_bondInv h₁ fun c₂ h₂ hp₂ => bondInv_of_phase h₂ (hp₂ ▸ hp)

/-! ### Passes and delayed works -/

theorem stage_bondInv (h : c.BondInv) (hf : c.fatal = false) (ev : Finset Event) (st : Stage) :
    (c.stage exec ev st).1.BondInv := by
  -- the bonds go in a reset without a peer, or as the disconnect arrives that a reset waits for
  cases st with
  | entry =>
    simp only [stage, stageEntry]
    split_ifs
    · exact h
    · exact doStart_bondInv h.log
    · exact h
  | reset =>
    simp only [stage, stageReset]
    split_ifs
    · exact doReset_bondInv h
    · exact h
  | bonding =>
    simp only [stage, stageBonding]
    split_ifs
    · exact h
    · exact h
    · exact doBonding_bondInv (h.log.bump (by decide))
    · exact h
  | connected =>
    simp only [stage, stageConnected]
    split_ifs <;> dsimp only
    · refine BondInv.attempt ?_ (by simp) id
      exact ⟨h.log, h.waiting⟩
    · exact ⟨h.log, h.waiting⟩
    · refine BondInv.attempt ?_ (by simp) fun h' => h'.attempt (by simp) id
      exact ⟨h.log, h.waiting⟩
    · exact h
  | disconnected =>
    simp only [stage, stageDisconnected]
    split_ifs with hd h₁ h₂ <;> dsimp only
    · exact finishBondingEntry_bondInv (h.log.quiet rfl)
    · obtain ⟨newer, r, hreq⟩ := h.waiting hf h₂
      exact startResetFeedback_bondInv (h.log.quiet rfl)
        ⟨_, r, hreq.cons rfl, .inr (List.mem_cons_self ..)⟩
    · refine attempt_bondInv ?_ (by simp) fun _ h' => bondInv_of_phase h' h₂
      exact h.log.quiet rfl
    · exact bondInv_of_phase (h.log.quiet rfl) h₂
    · exact bondInv_of_phase (h.log.quiet rfl) h₂
    · exact h
  | pairingComplete =>
    simp only [stage, stagePairingComplete]
    split_ifs with hcond
    · exact doCompleteToNormal_bondInv h hcond.2.2
    · exact h
  | securityChanged =>
    simp only [stage, stageSecurityChanged]
    split_ifs with hcond
    · exact doCompleteToNormal_bondInv h hcond.2.2.2
    · exact h
  | start =>
    simp only [stage, stageStart]
    split_ifs
    · exact doStart_bondInv h.log
    · exact h

theorem blinkHandler_bondInv (h : c.BondInv) :
    ({ c with blink.pending := false }.blinkHandler exec).BondInv := by
  have hidle :
      ∀ {P : Prop}, c.bondingIdle = true → c.status.phase = .waitDisconnectForReset → P := by
    intro P hb hw
    simp [bondingIdle, hw] at hb
  unfold blinkHandler
  split_ifs with h₁ h₂ h₃ h₄ h₅
  · exact ⟨h.log, h.waiting⟩
  · exact ⟨h.log, h.waiting⟩
  · exact ⟨h.log, h.waiting⟩
  · refine ledSetActive_bondInv h.log fun c₁ hl hp => ?_
    have hp' : c₁.status.phase ≠ .waitDisconnectForReset := by
      rw [hp, not_not.1 h₄]
      simp
    dsimp only
    split
    · exact attempt_bondInv hl (by simp) fun _ hl' => bondInv_of_phase hl' hp'
    · exact bondInv_of_phase hl hp'
  · refine ledSetActive_bondInv h.log fun c₁ hl hp => ?_
    exact attempt_bondInv hl (by simp) fun _ hl' =>
      bondInv_of_phase hl' fun hw => hidle h₅ (hp.symm.trans hw)
  · exact ⟨h.log, h.waiting⟩

theorem feedbackHandler_bondInv (h : c.BondInv) :
    ({ c with feedback.pending := false }.feedbackHandler exec).BondInv := by
  have hfin : (finishBondingEntry exec (note
      { c with feedback.pending := false, blink.pending := false } .expiry)).BondInv :=
    finishBondingEntry_bondInv h.log.expiry
  unfold feedbackHandler
  dsimp only
  split_ifs
  · exact ⟨h.log, h.waiting⟩
  · exact ⟨h.log, h.waiting⟩
  · exact ⟨h.log, h.waiting⟩
  · exact hfin
  · exact ⟨hfin.log.quiet rfl, fun hf hp =>
      let ⟨newer, r, hreq⟩ := hfin.waiting hf hp
      ⟨_, r, hreq.cons rfl⟩⟩

theorem bondInv_of_reachable {start : W → Prop} {s : Sys W}
    (h : (Sys.machine exec arrive start).Reachable s) : s.ctl.BondInv := by
  refine Sys.invariant h ?_ ?_ ?_ (fun _ => blinkHandler_bondInv) fun _ => feedbackHandler_bondInv
  · intro w _
    refine bondInv_of_phase ⟨?_, rfl⟩ (by simp [init])
    intro newer r older hl
    simp [init] at hl
  · intro c i hc
    cases i <;> exact ⟨hc.log, hc.waiting⟩
  · intro s st sts _ _ hf hs
    exact stage_bondInv hs hf s.mask st

/-- **Bond deletion.**  In every run every deletion was allowed by what the log shows before it,
the generation counts the initiated resets and the bonding requests, and a RESET during a reset
changes nothing. -/
theorem delete_ordered {start : W → Prop} {s : Sys W}
    (h : (Sys.machine exec arrive start).Reachable s) :
    (∀ newer r older, s.ctl.log = newer ++ .op .deleteAllBonds r :: older → MayDelete older) ∧
    s.ctl.status.generation = UInt32.ofNat (s.ctl.log.countP Entry.bumps) ∧
    (s.ctl.resetInProgress = true → ∀ ev, .reset ∈ ev ∨ .resetSync ∈ ev →
      s.ctl.stage exec ev .reset = (s.ctl, false)) := by
  have hinv := bondInv_of_reachable h
  exact ⟨hinv.log.deletes, hinv.log.generation, fun hjoin _ hev => stage_joined_reset hjoin hev⟩

/-- A reset that waits for its peer and then deletes the bonds. -/
theorem delete_ordered_waited :
    ∃ s newer r older, (Sys.machine peerExec peerArrive fun _ => True).Reachable s ∧
      s.ctl.log = newer ++ .op .deleteAllBonds r :: older ∧ MayDelete older := by
  have hrun : (((Sys.machine peerExec peerArrive fun _ => True).run ⟨init false, ∅, [], ∅⟩
      (.input .start :: pass 1 ++ .input .connected :: pass 8 ++ .input .requestReset :: pass 2 ++
        .input .disconnected :: pass 8)).map fun s => s.ctl.log.drop 3) =
      some (.op .deleteAllBonds ⟨0, false⟩ :: .disconnected :: .op .disconnectPeer ⟨0, true⟩ ::
        .op (.setAccessMode .suspended) ⟨0, false⟩ :: .op .advertisingSuspend ⟨0, false⟩ ::
        .initiated :: .op .advertisingStart ⟨0, false⟩ :: .op (.ledSet false) ⟨0, false⟩ ::
        [.op (.setAccessMode .normal) ⟨0, false⟩]) := by decide +kernel
  obtain ⟨s, hs, hlog⟩ := Option.map_eq_some_iff.1 hrun
  have hreach := Machine.Reachable.run (Sys.init_reachable trivial) hs
  have hsplit := (List.take_append_drop 3 s.ctl.log).symm
  rw [hlog] at hsplit
  exact ⟨s, _, _, _, hreach, hsplit, (delete_ordered hreach).1 _ _ _ hsplit⟩

end Bonds

end Ctl

end Pairing

end LeAudioReceiver
