import LeAudioReceiver.Pairing.Moves

/-!
# Fatal is terminal

A failed operation ends the controller: `fatal_finalize` turns the LED off and reboots, and no
handler calls an operation again.  The machine of this file also lets the drain fail to submit
itself again, which is fatal too.

* `Sys.fatal_terminal` : at most one cold reboot, nothing else behind the first failed operation,
  and nothing at all in a fatal state.
-/

namespace LeAudioReceiver

namespace Pairing

/-- An operation that failed; a cold reboot reports nothing. -/
def Entry.failed : Entry → Bool
  | .op o r => o != .coldReboot && decide (r.ret < 0)
  | _ => false

/-- A cold reboot. -/
def Entry.reboot : Entry → Bool
  | .op .coldReboot _ => true
  | _ => false

theorem Entry.of_clean {e : Entry} (h : e.clean = true) : e.failed = false ∧ e.reboot = false := by
  cases e with
  | op o r =>
    simp only [clean, Bool.and_eq_true, bne_iff_ne, decide_eq_true_eq] at h
    refine ⟨by simp [failed, h.2], ?_⟩
    cases o <;> first | rfl | exact absurd rfl h.1
  | _ => exact ⟨rfl, rfl⟩

/-- The steps of the controller, and a drain that cannot be submitted again. -/
inductive DrainAction where
  | act (a : Action)
  | resubmitFails
  deriving DecidableEq, Repr

namespace Ctl

variable {W : Type*} {k : Cause} {c c' : Ctl W}

/-- The log of a controller without failed operations. -/
def Clean (c : Ctl W) : Prop := ∀ e ∈ c.log, Entry.clean e = true

theorem Move.clean (h : Move k c c') (hc : c.Clean) : c'.Clean := by
  obtain ⟨es, heq, hes⟩ := h.log
  rw [Clean, heq]
  exact List.forall_mem_append.2 ⟨hes, hc⟩

end Ctl

namespace Sys

section Terminal

variable {W : Type*} (exec : Exec W) (arrive : Input → W → W)

/-- One step; `drain_handler` submits itself again when events are pending at its end. -/
def drainNext (s : Sys W) : DrainAction → Option (Sys W)
  | .act a => s.next exec arrive a
  | .resubmitFails =>
    if s.work = [] ∧ s.pending ≠ ∅ ∧ ¬ s.ctl.fatal then
      some { s with ctl := s.ctl.fatalFinalize exec }
    else none

/-- The machine with these steps. -/
def drainMachine (start : W → Prop) : Machine (Sys W) DrainAction where
  init s := ∃ w, start w ∧ s = ⟨Ctl.init w, ∅, [], ∅⟩
  next := drainNext exec arrive

variable {exec arrive} {s s' : Sys W}

theorem fatalFinalize_log {c : Ctl W} (hf : c.fatal = false) : ∃ r₁ r₂,
    (c.fatalFinalize exec).log = .op .coldReboot r₂ :: .op (.ledSet false) r₁ :: c.log := by
  simp [Ctl.fatalFinalize, hf, Ctl.call]

/-- The log of a fatal controller: the finalizer behind clean entries and at most one failure. -/
def Ended (log : List Entry) : Prop :=
  ∃ r₁ r₂ es older, log = .op .coldReboot r₂ :: .op (.ledSet false) r₁ :: (es ++ older) ∧
    (es = [] ∨ ∃ e, es = [e] ∧ e.failed = true ∧ e.reboot = false) ∧
    ∀ e ∈ older, Entry.clean e = true

/-- The invariant: the controller runs on a clean log, or it has ended. -/
inductive Terminal (s : Sys W) : Prop
  | live (hf : s.ctl.fatal = false) (h : s.Kept Ctl.Clean)
  | ended (hf : s.ctl.fatal = true) (hw : s.work = []) (hlog : Ended s.ctl.log)

theorem Kept.terminal (h : s.Kept Ctl.Clean) : s.Terminal := by
  cases h with
  | live hf hi hw => exact .live hf (.live hf hi hw)
  | dead hf hw c hc hi hlog =>
    obtain ⟨es, o, r, r₁, r₂, hlog, ho, hr, hes⟩ := hlog
    refine .ended hf hw ⟨r₁, r₂, [.op o r], es ++ c.log, hlog, .inr ⟨_, rfl, ?_, ?_⟩, ?_⟩
    · simp [Entry.failed, ho, hr]
    · cases o <;> first | rfl | exact absurd rfl ho
    · exact List.forall_mem_append.2 ⟨hes, hi⟩

/-- A fatal state is final. -/
theorem drainNext_fatal {a : DrainAction} (hf : s.ctl.fatal = true) (hw : s.work = [])
    (hnext : s.drainNext exec arrive a = some s') :
    s'.ctl.fatal = true ∧ s'.work = [] ∧ s'.ctl.log = s.ctl.log := by
  cases a with
  | act a => exact next_fatal hf hw hnext
  | resubmitFails => simp [drainNext, hf] at hnext

theorem Terminal.next {a : DrainAction} (h : s.Terminal)
    (hnext : s.drainNext exec arrive a = some s') : s'.Terminal := by
  cases h with
  | ended hf hw hlog =>
    obtain ⟨hf', hw', hlog'⟩ := drainNext_fatal hf hw hnext
    exact .ended hf' hw' (hlog'.symm ▸ hlog)
  | live hf hk =>
    cases a with
    | act a =>
      refine Kept.terminal (hk.next ?_ (fun k c c' _ => Ctl.Move.clean) hnext)
      intro c i hc
      cases i <;> exact hc
    | resubmitFails =>
      simp only [drainNext] at hnext
      split_ifs at hnext with hcond
      obtain rfl := Option.some.inj hnext
      obtain ⟨r₁, r₂, hlog⟩ := @fatalFinalize_log _ exec _ hf
      exact .ended Ctl.fatalFinalize_fatal hcond.1
        ⟨r₁, r₂, [], s.ctl.log, hlog, .inl rfl, hk.of_fatal hf⟩

theorem terminal_of_reachable {start : W → Prop}
    (h : (drainMachine exec arrive start).Reachable s) : s.Terminal := by
  refine h.invariant ?_ fun _ _ _ hs hnext => hs.next hnext
  rintro _ ⟨w, -, rfl⟩
  exact .live rfl (.live rfl (List.forall_mem_nil _) (.inl rfl))

theorem not_failed {log : List Entry} (h : ∀ e ∈ log, Entry.clean e = true) {e : Entry}
    (he : e ∈ log) (hfail : e.failed = true) : False :=
  Bool.noConfusion ((Entry.of_clean (h e he)).1.symm.trans hfail)

theorem countP_reboot_clean {log : List Entry} (h : ∀ e ∈ log, Entry.clean e = true) :
    log.countP Entry.reboot = 0 :=
  List.countP_eq_zero.2 fun e he => by simp [(Entry.of_clean (h e he)).2]

theorem Ended.countP_reboot {log : List Entry} (h : Ended log) : log.countP Entry.reboot = 1 := by
  obtain ⟨r₁, r₂, es, older, rfl, hes, hclean⟩ := h
  have hes' : es.countP Entry.reboot = 0 := by
    rcases hes with rfl | ⟨e, rfl, -, he⟩
    · rfl
    · simp [he]
  rw [List.countP_cons_of_pos rfl, List.countP_cons_of_neg (by simp [Entry.reboot]),
    List.countP_append, hes', countP_reboot_clean hclean]

/-- Behind a failed operation there is only what the finalizer calls. -/
theorem Ended.behind {log later earlier : List Entry} {e : Entry} (h : Ended log)
    (hlog : log = later ++ e :: earlier) (he : e.failed = true) :
    (∃ r₁ r₂, later = [.op .coldReboot r₂, .op (.ledSet false) r₁]) ∨
      ∃ r₁ r₂, e = .op (.ledSet false) r₁ ∧ later = [.op .coldReboot r₂] := by
  obtain ⟨r₁, r₂, es, older, rfl, hes, hclean⟩ := h
  rcases later with _ | ⟨x, _ | ⟨y, _ | ⟨z, rest⟩⟩⟩
  · obtain rfl := (List.cons.inj hlog).1
    exact Bool.noConfusion he
  · obtain ⟨rfl, htail⟩ := List.cons.inj hlog
    exact .inr ⟨r₁, r₂, (List.cons.inj htail).1.symm, rfl⟩
  · obtain ⟨rfl, htail⟩ := List.cons.inj hlog
    obtain ⟨rfl, -⟩ := List.cons.inj htail
    exact .inl ⟨r₁, r₂, rfl⟩
  · -- a failure in front of the one that ended the controller
    have htail : es ++ older = z :: (rest ++ e :: earlier) :=
      (List.cons.inj (List.cons.inj hlog).2).2
    have hmem : e ∈ rest ++ e :: earlier := by simp
    have hold : e ∈ older := by
      rcases hes with rfl | ⟨e₀, rfl, -, -⟩
      · rw [show older = _ from htail]
        exact List.mem_cons_of_mem z hmem
      · rw [show older = _ from (List.cons.inj htail).2]
        exact hmem
    exact (not_failed hclean hold he).elim

/-- **Fatal is terminal.**  In every run there is at most one cold reboot; behind a failed operation
come only the attempt to turn the LED off and the cold reboot; and in a fatal state no step calls
an operation. -/
theorem fatal_terminal {start : W → Prop} (h : (drainMachine exec arrive start).Reachable s) :
    s.ctl.log.countP Entry.reboot ≤ 1 ∧
    (∀ later e earlier, s.ctl.log = later ++ e :: earlier → e.failed = true →
      (∃ r₁ r₂, later = [.op .coldReboot r₂, .op (.ledSet false) r₁]) ∨
        ∃ r₁ r₂, e = .op (.ledSet false) r₁ ∧ later = [.op .coldReboot r₂]) ∧
    (s.ctl.fatal = true → ∀ a s', s.drainNext exec arrive a = some s' →
      s'.ctl.fatal = true ∧ s'.ctl.log = s.ctl.log) := by
  cases terminal_of_reachable h with
  | live hf hk =>
    have hclean := hk.of_fatal hf
    refine ⟨(countP_reboot_clean hclean).trans_le (Nat.zero_le 1), ?_, ?_⟩
    · intro later e earlier hlog he
      exact (not_failed hclean (hlog ▸ by simp) he).elim
    · exact fun hf' => Bool.noConfusion (hf.symm.trans hf')
  | ended hf hw hlog =>
    refine ⟨hlog.countP_reboot.le, fun _ _ _ => hlog.behind, fun _ a s' hnext => ?_⟩
    obtain ⟨hf', -, hlog'⟩ := drainNext_fatal hf hw hnext
    exact ⟨hf', hlog'⟩

/-- A world in which advertising does not start. -/
def silentExec : Exec Unit := fun o w => (⟨if o = .advertisingStart then -5 else 0, false⟩, w)

/-- The start fails at its last operation. -/
theorem fatal_terminal_start :
    ∃ (s : Sys Unit) (later earlier : List Entry) (e : Entry),
      (drainMachine silentExec (fun _ w => w) fun _ => True).Reachable s ∧
      s.ctl.log = later ++ e :: earlier ∧ e = .op .advertisingStart ⟨-5, false⟩ ∧
      e.failed = true ∧ ∃ r₁ r₂, later = [.op .coldReboot r₂, .op (.ledSet false) r₁] := by
  have hrun : (((drainMachine silentExec (fun _ w => w) fun _ => True).run
      ⟨Ctl.init (), ∅, [], ∅⟩ [.act (.input .start), .act .begin, .act .stage]).map
        fun s => s.ctl.log.drop 2) =
      some [.op .advertisingStart ⟨-5, false⟩, .op (.ledSet false) ⟨0, false⟩,
        .op (.setAccessMode .normal) ⟨0, false⟩] := by decide +kernel
  obtain ⟨s, hs, hlog⟩ := Option.map_eq_some_iff.1 hrun
  have hinit : (drainMachine silentExec (fun _ w => w) fun _ => True).Reachable
      ⟨Ctl.init (), ∅, [], ∅⟩ := .init ⟨(), trivial, rfl⟩
  have hreach := hinit.run hs
  have hsplit := (List.take_append_drop 2 s.ctl.log).symm
  rw [hlog] at hsplit
  have hfail : (Entry.op .advertisingStart ⟨-5, false⟩).failed = true := by decide
  refine ⟨s, _, _, _, hreach, hsplit, rfl, hfail, ?_⟩
  refine ((fatal_terminal hreach).2.1 _ _ _ hsplit hfail).resolve_right ?_
  rintro ⟨r₁, r₂, hled, -⟩
  exact nomatch hled

end Terminal

end Sys

end Pairing

end LeAudioReceiver
