import LeAudioReceiver.Pairing.Bonds
import LeAudioReceiver.Pairing.Moves

/-!
# The delayed works

The blink work and the feedback work carry the generation they were scheduled under, and drop out
when it is no longer the current one.  The generation is a 32-bit counter, so the log tells how old
a work really is: `capture` is the number of transitions at its last scheduling.  (A blink that
schedules itself again keeps its generation, which it has just compared with the current one.)

* `Ctl.delayed_coherent` : the reset feedback always has its work, BONDING / IDLE its slow blink,
  NORMAL / IDLE a dark LED that no blink can change, and a work of an earlier generation changes
  nothing.
-/

namespace LeAudioReceiver

namespace Pairing

/-! ### What the log says about the works -/

/-- The LED operation. -/
def Op.led : Op → Option Bool
  | .ledSet active => some active
  | _ => none

/-- The scheduling of a work. -/
def Op.work : Op → Option Work
  | .schedule w => some w
  | _ => none

/-- The number of transitions, which the generation counts. -/
def transitions (log : List Entry) : ℕ := log.countP Entry.bumps

/-- The number of transitions when the work was last scheduled. -/
def capture (w : Work) : List Entry → Option ℕ
  | [] => none
  | e :: log => if e.done Op.work = some w then some (transitions log) else capture w log

theorem Calls.transitions_eq {log log' : List Entry} {os : List Op} (h : Calls log os log') :
    transitions log' = transitions log := by
  induction h with
  | nil => rfl
  | op _ _ _ ih => exact (List.countP_cons_of_neg (by simp [Entry.bumps])).trans ih

theorem Calls.capture_eq (w : Work) {log log' : List Entry} {os : List Op} (h : Calls log os log') :
    capture w log' = if some w ∈ os.map Op.work then some (transitions log) else capture w log := by
  induction h with
  | nil => rfl
  | @op os log' o r h _ hr ih =>
    rw [capture, Entry.done, if_pos hr, h.transitions_eq, ih, List.map_cons]
    by_cases ho : o.work = some w
    · simp [ho]
    · simp [ho, Ne.symm ho]

theorem capture_note (w : Work) {e : Entry} (log : List Entry) (he : e.done Op.work = none) :
    capture w (e :: log) = capture w log := by
  rw [capture, he, if_neg nofun]

namespace Ctl

section Delayed

variable {W : Type*} {exec : Exec W} {arrive : Input → W → W} {c c' : Ctl W}

/-- The invariant of the delayed works, while no operation has failed. -/
structure WorkInv (c : Ctl W) : Prop where
  generation : c.status.generation = UInt32.ofNat (transitions c.log)
  blinkGen : ∀ k ∈ capture .blink c.log, c.blink.gen = UInt32.ofNat k
  feedbackGen : ∀ k ∈ capture .feedback c.log, c.feedback.gen = UInt32.ofNat k
  unstarted : c.started = false → c.blink.pending = false ∧ c.feedback.pending = false
  pending : c.feedback.pending = true ↔ c.status.phase = .resetFeedback
  feedback : c.status.phase = .resetFeedback →
    capture .feedback c.log = some (transitions c.log) ∧
    capture .blink c.log = some (transitions c.log)
  slow : c.bondingIdle = true → c.blink.pending = true ∧ c.blink.rapid = false ∧
    capture .blink c.log = some (transitions c.log)
  dark : c.normalIdle = true → c.blink.pending = false ∧ lastDone Op.led c.log = some false

theorem WorkInv.grown (h : c.WorkInv) {w : W} {b : Bool} {log : List Entry}
    (ht : transitions log = transitions c.log) (hc : ∀ k, capture k log = capture k c.log)
    (hled : lastDone Op.led log = lastDone Op.led c.log) :
    WorkInv { c with status.connected := b, world := w, log := log } where
  generation := ht ▸ h.generation
  blinkGen := hc .blink ▸ h.blinkGen
  feedbackGen := hc .feedback ▸ h.feedbackGen
  unstarted := h.unstarted
  pending := h.pending
  feedback := by
    rw [ht, hc, hc]
    exact h.feedback
  slow := by
    rw [ht, hc]
    exact h.slow
  dark := by
    rw [hled]
    exact h.dark

theorem WorkInv.note (h : c.WorkInv) {e : Entry} (he : e.bumps = false)
    (hd : ∀ o r, e ≠ .op o r) : (c.note e).WorkInv := by
  have hdone : ∀ {α : Type} (f : Op → Option α), e.done f = none := by
    intro α f
    cases e with
    | op o r => exact absurd rfl (hd o r)
    | _ => rfl
  refine h.grown (List.countP_cons_of_neg (by simp [he])) (fun k => capture_note k _ (hdone _)) ?_
  rw [lastDone, List.findSome?_cons, hdone]
  rfl

theorem entered_workInv {base log : List Entry} {os : List Op} {w : W}
    (hl : Calls base os log) (ho : some .blink ∈ os.map Op.work)
    (hgen : c.status.generation = .ofNat (transitions base))
    (hfeed : ∀ k ∈ capture .feedback log, c.feedback.gen = UInt32.ofNat k)
    (hs : c.started = true) (hp : c.feedback.pending = false) : (c.entered w log).WorkInv := by
  have hblink : capture .blink log = some (transitions log) := by
    rw [hl.capture_eq, hl.transitions_eq, if_pos ho]
  rw [← hl.transitions_eq] at hgen
  refine ⟨hgen, ?_, hfeed, fun h => Bool.noConfusion (hs.symm.trans h), ?_, nofun, ?_, nofun⟩
  · intro k hk
    obtain rfl := Option.some.inj (hblink.symm.trans hk)
    exact hgen
  · simp [entered, hp]
  · exact fun _ => ⟨rfl, rfl, hblink⟩

theorem fedBack_workInv {base log : List Entry} {os : List Op} {w : W}
    (hl : Calls base os log) (ho : ∀ k, some k ∈ os.map Op.work)
    (hgen : c.status.generation = .ofNat (transitions base)) (hs : c.started = true) :
    (c.fedBack w log).WorkInv := by
  have hcapture : ∀ k, capture k log = some (transitions log) := by
    intro k
    rw [hl.capture_eq, hl.transitions_eq, if_pos (ho k)]
  rw [← hl.transitions_eq] at hgen
  have hof : ∀ k, ∀ n ∈ capture k log, c.status.generation = UInt32.ofNat n := by
    intro k n hn
    obtain rfl := Option.some.inj ((hcapture k).symm.trans hn)
    exact hgen
  exact ⟨hgen, hof _, hof _, fun h => Bool.noConfusion (hs.symm.trans h), by simp [fedBack],
    fun _ => ⟨hcapture _, hcapture _⟩, nofun, nofun⟩

theorem transitions_bump {e : Entry} (he : e.bumps = true) (log : List Entry) :
    transitions (e :: log) = transitions log + 1 :=
  List.countP_cons_of_pos he

theorem WorkInv.bump (h : c.WorkInv) {e : Entry} (he : e.bumps = true) :
    c.bumpGeneration.status.generation = UInt32.ofNat (transitions (e :: c.log)) := by
  rw [transitions_bump he]
  show c.status.generation + 1 = _
  rw [h.generation]
  exact (UInt32.ofNat_add _ 1).symm

/-- Outside of a reset no feedback work is pending. -/
theorem WorkInv.not_pending (h : c.WorkInv) (hp : c.resetInProgress = false) :
    c.feedback.pending = false := by
  refine eq_false_of_ne_true fun hpend => ?_
  rw [resetInProgress, h.pending.1 hpend] at hp
  exact Bool.noConfusion hp

theorem WorkInv.await (h : c.WorkInv) (hs : c.started = true) (hp : c.resetInProgress = false)
    {e : Entry} (he : e.bumps = true) (hd : e.done Op.work = none) {log : List Entry}
    (hl : Calls (e :: c.log) suspendOps log) {st : Status}
    (hgen : st.generation = c.status.generation + 1)
    (hphase : st.phase = .waitDisconnectForBonding ∨ st.phase = .waitDisconnectForReset)
    {b : Bool} {w : W} :
    WorkInv { c with status := st, resetTransition := b, world := w, log := log } := by
  have hcapture : ∀ k, capture k log = capture k c.log := by
    intro k
    rw [hl.capture_eq, if_neg (by simp [suspendOps, Op.work]), capture_note k _ hd]
  have hnot : st.phase ≠ .resetFeedback ∧ st.phase ≠ .idle := by
    rcases hphase with hphase | hphase <;> simp [hphase]
  refine ⟨?_, hcapture .blink ▸ h.blinkGen, hcapture .feedback ▸ h.feedbackGen,
    fun hs' => Bool.noConfusion (hs.symm.trans hs'), ?_, fun hp' => absurd hp' hnot.1, ?_, ?_⟩
  · rw [hl.transitions_eq]
    exact hgen.trans (h.bump he)
  · simp [hnot.1, h.not_pending hp]
  · simp [bondingIdle, hnot.2]
  · simp [normalIdle, hnot.2]

theorem of_bondingIdle (h : c.bondingIdle = true) :
    c.status.mode = .bonding ∧ c.status.phase = .idle := by
  simpa [bondingIdle] using h

theorem Quiet.led {o : Op} (h : Quiet o) : o.led = none := by
  rcases h with rfl | rfl | rfl | rfl <;> rfl

theorem Quiet.work {o : Op} (h : Quiet o) : o.work = none := by
  rcases h with rfl | rfl | rfl | rfl <;> rfl

/-- In BONDING / IDLE the blink work has something to do. -/
theorem WorkInv.not_lapse (h : c.WorkInv) (hb : c.bondingIdle = true) : ¬ c.BlinkLapses := by
  obtain ⟨-, hrapid, hcapture⟩ := h.slow hb
  rintro (hgen | hidle)
  · exact hgen ((h.blinkGen _ hcapture).trans h.generation.symm)
  · rw [hrapid, if_neg nofun, hb] at hidle
    exact Bool.noConfusion hidle

theorem WorkInv.rapidToggle (h : c.WorkInv) (hg : c.blink.gen = c.status.generation)
    (hp : c.status.phase = .resetFeedback) {active again : Bool} {log : List Entry}
    (hl : Calls c.log ((if again then [.schedule .blink] else []) ++ [.ledSet active]) log)
    {w : W} {n : ℕ} :
    WorkInv { c with
      status.ledActive := active
      blink := { c.blink with pending := again, toggles := n }
      world := w
      log := log } := by
  have htrans := hl.transitions_eq
  have hfeedback : capture .feedback log = capture .feedback c.log := by
    rw [hl.capture_eq, if_neg (by cases again <;> simp [Op.work])]
  have hblink : capture .blink log = some (transitions log) := by
    rw [hl.capture_eq, htrans, (h.feedback hp).2, ite_self]
  refine ⟨htrans ▸ h.generation, fun k hk => ?_, hfeedback ▸ h.feedbackGen, fun hs => ?_, h.pending,
    fun _ => ⟨?_, hblink⟩, ?_, ?_⟩
  · obtain rfl := Option.some.inj (hblink.symm.trans hk)
    exact hg.trans (htrans ▸ h.generation)
  · -- a controller that was never started has no feedback work
    exact Bool.noConfusion ((h.unstarted hs).2.symm.trans (h.pending.2 hp))
  · rw [hfeedback, htrans]
    exact (h.feedback hp).1
  · simp [bondingIdle, hp]
  · simp [normalIdle, hp]

theorem move_workInv {k : Cause} (hm : Move k c c') (h : c.WorkInv) : c'.WorkInv := by
  -- which transitions, schedulings and LED operations the move adds to the log
  cases hm with
  | quiet hl ho =>
    refine h.grown hl.transitions_eq (fun k => ?_) ?_
    · rw [hl.capture_eq, if_neg]
      simp only [List.mem_map, not_exists, not_and]
      intro o ho' hk
      exact nomatch (ho o ho').work.symm.trans hk
    · rw [hl.lastDone_eq, List.findSome?_eq_none_iff.2 fun o ho' => (ho o ho').led]
      rfl
  | connected => exact h.grown rfl (fun _ => rfl) rfl
  | disconnected =>
    exact WorkInv.note (e := .disconnected) (h.grown rfl (fun _ => rfl) rfl) rfl nofun
  | @start _ _ w log hs hl =>
    obtain ⟨hblink, hfeed⟩ := h.unstarted hs
    have hcapture : ∀ k, capture k log = capture k c.log := by
      intro k
      rw [hl.capture_eq, if_neg (by simp [Op.work])]
    refine ⟨hl.transitions_eq ▸ h.generation, hcapture .blink ▸ h.blinkGen,
      hcapture .feedback ▸ h.feedbackGen, nofun, by simp [hfeed], nofun, nofun,
      fun _ => ⟨hblink, ?_⟩⟩
    rw [hl.lastDone_eq]
    rfl
  | awaitBonding hs hp hl => exact h.await hs hp rfl rfl hl rfl (.inl rfl)
  | bond hs hp hl =>
    refine entered_workInv hl (by decide) (h.bump rfl) ?_ hs (h.not_pending hp)
    rw [hl.capture_eq, if_neg (by simp [entryOps, suspendOps, Op.work])]
    exact h.feedbackGen
  | endBondingWait hs hp hl =>
    refine entered_workInv hl (by decide) h.generation ?_ hs ?_
    · rw [hl.capture_eq, if_neg (by simp [entryOps, Op.work])]
      exact h.feedbackGen
    · exact eq_false_of_ne_true fun hpend => by simp [h.pending.1 hpend] at hp
  | awaitReset hs hp hl => exact h.await hs hp rfl rfl hl rfl (.inr rfl)
  | reset hs hp hl => exact fedBack_workInv hl (fun k => by cases k <;> decide) (h.bump rfl) hs
  | endResetWait hs hp hl =>
    exact fedBack_workInv hl (fun k => by cases k <;> decide) h.generation hs
  | @complete _ _ w log hs hb hl =>
    obtain ⟨hmode, hphase⟩ := of_bondingIdle hb
    have hcapture : ∀ k, capture k log = capture k c.log := by
      intro k
      rw [hl.capture_eq, if_neg (by simp [Op.work])]
    refine ⟨hl.transitions_eq ▸ h.generation, hcapture .blink ▸ h.blinkGen,
      hcapture .feedback ▸ h.feedbackGen, fun hs' => Bool.noConfusion (hs.symm.trans hs'),
      h.pending, fun hp => ?_, nofun, fun _ => ⟨rfl, ?_⟩⟩
    · exact absurd (hphase.symm.trans hp) nofun
    · rw [hl.lastDone_eq]
      rfl
  | blinkLapse hlapse =>
    exact ⟨h.generation, h.blinkGen, h.feedbackGen, fun hs => ⟨rfl, (h.unstarted hs).2⟩, h.pending,
      h.feedback, fun hb => absurd hlapse (h.not_lapse hb), fun hn => ⟨rfl, (h.dark hn).2⟩⟩
  | rapidToggle again hg _ hp hl => exact h.rapidToggle hg hp hl
  | @slowToggle _ w log active hg hr hb hl =>
    obtain ⟨hmode, hphase⟩ := of_bondingIdle hb
    have htrans := hl.transitions_eq
    have hfeedback : capture .feedback log = capture .feedback c.log := by
      rw [hl.capture_eq, if_neg (by simp [Op.work])]
    -- the next toggle captures the current generation
    have hblink : capture .blink log = some (transitions log) := by
      rw [hl.capture_eq, htrans, (h.slow hb).2.2, ite_self]
    refine ⟨htrans ▸ h.generation, fun k hk => ?_, hfeedback ▸ h.feedbackGen, fun hs => ?_,
      h.pending, fun hp => ?_, fun _ => ⟨rfl, hr, hblink⟩, fun hn => ?_⟩
    · obtain rfl := Option.some.inj (hblink.symm.trans hk)
      exact hg.trans (htrans ▸ h.generation)
    · exact Bool.noConfusion ((h.unstarted hs).1.symm.trans (h.slow hb).1)
    · exact absurd (hphase.symm.trans hp) nofun
    · simp [normalIdle, hmode] at hn
  | feedbackLapse hlapse =>
    -- in the reset feedback the work would carry the current generation
    have hp : c.status.phase ≠ .resetFeedback := by
      intro hp
      refine hlapse.elim (fun hgen => hgen ?_) (absurd hp)
      exact (h.feedbackGen _ (h.feedback hp).1).trans h.generation.symm
    exact ⟨h.generation, h.blinkGen, h.feedbackGen, fun hs => ⟨(h.unstarted hs).1, rfl⟩,
      ⟨nofun, fun hp' => absurd hp' hp⟩, h.feedback, h.slow, h.dark⟩
  | @expire _ w log hg hp hl =>
    have hs : c.started = true := by
      refine eq_true_of_ne_false fun hs => ?_
      exact Bool.noConfusion ((h.unstarted hs).2.symm.trans (h.pending.2 hp))
    have hentered : WorkInv (entered { c with feedback.pending := false } w log) := by
      refine entered_workInv hl (by decide) h.generation ?_ hs rfl
      rw [hl.capture_eq, if_neg (by simp [entryOps, Op.work])]
      exact h.feedbackGen
    exact hentered.note (e := .syncDone) rfl nofun

theorem workInv_of_reachable {start : W → Prop} {s : Sys W}
    (h : (Sys.machine exec arrive start).Reachable s) (hf : s.ctl.fatal = false) :
    s.ctl.WorkInv := by
  refine (Sys.kept_of_reachable h ?_ ?_ fun k c c' _ => move_workInv).of_fatal hf
  · exact fun w => ⟨rfl, nofun, nofun, fun _ => ⟨rfl, rfl⟩, by simp [init], nofun, nofun, nofun⟩
  · intro c i hc
    cases i <;> exact ⟨hc.generation, hc.blinkGen, hc.feedbackGen, hc.unstarted, hc.pending,
      hc.feedback, hc.slow, hc.dark⟩

theorem blinkHandler_idle (hp : c.status.phase ≠ .resetFeedback) (hb : c.bondingIdle = false) :
    c.blinkHandler exec = c := by
  simp [blinkHandler, hp, hb]

theorem feedbackHandler_idle (hp : c.status.phase ≠ .resetFeedback) :
    c.feedbackHandler exec = c := by
  simp [feedbackHandler, hp]

/-- A work that was last scheduled under an earlier generation. -/
def Stale (w : Work) (log : List Entry) : Prop :=
  ∃ k, capture w log = some k ∧ k < transitions log

theorem not_stale {w : Work} {log : List Entry} (h : capture w log = some (transitions log)) :
    ¬ Stale w log := by
  rintro ⟨k, hk, hlt⟩
  obtain rfl := Option.some.inj (h.symm.trans hk)
  exact Nat.lt_irrefl _ hlt

theorem WorkInv.blink_stale (h : c.WorkInv) (hst : Stale .blink c.log) :
    { c with blink.pending := false }.blinkHandler exec = { c with blink.pending := false } := by
  refine blinkHandler_idle (fun hp => ?_) (eq_false_of_ne_true fun hb => ?_)
  · exact not_stale (h.feedback hp).2 hst
  · exact not_stale (h.slow hb).2.2 hst

theorem WorkInv.feedback_stale (h : c.WorkInv) (hst : Stale .feedback c.log) :
    { c with feedback.pending := false }.feedbackHandler exec =
      { c with feedback.pending := false } :=
  feedbackHandler_idle fun hp => not_stale (h.feedback hp).1 hst

/-- **The delayed works.**  In every reachable state in which no operation has failed, the reset
feedback has its work pending and BONDING / IDLE its slow blink, both of the current generation,
and in NORMAL / IDLE the LED is dark and no blink is pending.  In every reachable state, a work of
an earlier generation that runs changes nothing but its own pending flag. -/
theorem delayed_coherent {start : W → Prop} {s : Sys W}
    (h : (Sys.machine exec arrive start).Reachable s) :
    (s.ctl.fatal = false →
      (s.ctl.status.phase = .resetFeedback →
        s.ctl.feedback.pending = true ∧ s.ctl.feedback.gen = s.ctl.status.generation) ∧
      (s.ctl.bondingIdle = true → s.ctl.blink.pending = true ∧ s.ctl.blink.rapid = false ∧
        s.ctl.blink.gen = s.ctl.status.generation) ∧
      (s.ctl.normalIdle = true →
        lastDone Op.led s.ctl.log = some false ∧ s.ctl.blink.pending = false)) ∧
    (Stale .blink s.ctl.log → ∀ s', s.next exec arrive .blink = some s' →
      s' = { s with ctl := { s.ctl with blink.pending := false } }) ∧
    (Stale .feedback s.ctl.log → ∀ s', s.next exec arrive .feedback = some s' →
      s' = { s with ctl := { s.ctl with feedback.pending := false } }) := by
  refine ⟨fun hf => ?_, fun hst s' hnext => ?_, fun hst s' hnext => ?_⟩
  · have hinv := workInv_of_reachable h hf
    refine ⟨fun hp => ⟨hinv.pending.2 hp, ?_⟩, fun hb => ?_, fun hn => (hinv.dark hn).symm⟩
    · exact (hinv.feedbackGen _ (hinv.feedback hp).1).trans hinv.generation.symm
    · obtain ⟨hpend, hrapid, hcapture⟩ := hinv.slow hb
      exact ⟨hpend, hrapid, (hinv.blinkGen _ hcapture).trans hinv.generation.symm⟩
  · simp only [Sys.next] at hnext
    split_ifs at hnext
    obtain rfl := Option.some.inj hnext
    by_cases hf : s.ctl.fatal = true
    · rw [blinkHandler_fatal hf]
    · rw [(workInv_of_reachable h (eq_false_of_ne_true hf)).blink_stale hst]
  · simp only [Sys.next] at hnext
    split_ifs at hnext
    obtain rfl := Option.some.inj hnext
    by_cases hf : s.ctl.fatal = true
    · rw [feedbackHandler_fatal hf]
    · rw [(workInv_of_reachable h (eq_false_of_ne_true hf)).feedback_stale hst]

/-- A second bonding request waits for the peer to leave; the blink of the first one runs out. -/
theorem delayed_coherent_superseded :
    ∃ s s' : Sys Bool, (Sys.machine peerExec peerArrive fun _ => True).Reachable s ∧
      Stale .blink s.ctl.log ∧ s.ctl.blink.pending = true ∧
      s.next peerExec peerArrive .blink = some s' ∧
      s' = { s with ctl := { s.ctl with blink.pending := false } } := by
  have hrun : (((Sys.machine peerExec peerArrive fun _ => True).run ⟨init false, ∅, [], ∅⟩
      (.input .start :: pass 1 ++ .input .requestBonding :: pass 8 ++ .input .connected :: pass 8 ++
        .input .requestBonding :: pass 8)).map fun s =>
          (s.work, s.ctl.blink.pending, capture .blink s.ctl.log, transitions s.ctl.log)) =
      some ([], true, some 1, 2) := by decide +kernel
  obtain ⟨s, hs, h⟩ := Option.map_eq_some_iff.1 hrun
  obtain ⟨hwork, hpend, hcapture, htrans⟩ : _ ∧ _ ∧ _ ∧ _ := by simpa only [Prod.mk.injEq] using h
  have hreach := Machine.Reachable.run (Sys.init_reachable trivial) hs
  have hstale : Stale .blink s.ctl.log := ⟨1, hcapture, by rw [htrans]; decide⟩
  have hnext : s.next peerExec peerArrive .blink = some _ := if_pos ⟨hwork, hpend⟩
  exact ⟨s, _, hreach, hstale, hpend, hnext, (delayed_coherent hreach).2.1 hstale _ hnext⟩

end Delayed

end Ctl

end Pairing

end LeAudioReceiver
