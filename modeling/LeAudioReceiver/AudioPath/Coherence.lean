import LeAudioReceiver.AudioPath.Run

/-!
# Coherence of the audio path

Opening and closing go through the gate, the sink, the session and the offload one after the other.
An open looks at the gate again when it is done; a close does not, so the late part of a forced stop
can hit a path that was opened in the meantime.

* `Sys.coherent` : in every run in which no forced stop acts on a path that has been opened again,
  the gate, the two admissions and the offload agree whenever no thread is opening or closing.
-/

namespace LeAudioReceiver

namespace AudioPath

open Offload.Lifecycle (Api Call Result Core)

/-! ### Where a thread is -/

/-- The close still has to close the receive admission of a gate it has closed. -/
def ClosePc.willRx : ClosePc → Bool
  | .sinkClose _ | .rxClose _ => true
  | _ => false

/-- The close has closed the receive admission. -/
def ClosePc.late : ClosePc → Bool
  | .lock | .sinkClose _ | .rxClose _ => false
  | _ => true

/-- The close is under the lock. -/
def ClosePc.locks : ClosePc → Bool
  | .sinkClose _ => true
  | _ => false

theorem ClosePc.locks_of_late {pc : ClosePc} (h : pc.late = true) : pc.locks = false := by
  cases pc <;> first | rfl | exact Bool.noConfusion h

theorem ClosePc.willRx_of_late {pc : ClosePc} (h : pc.late = true) : pc.willRx = false := by
  cases pc <;> first | rfl | exact Bool.noConfusion h

namespace BtPc

/-- The callback is under the lock. -/
def locks : BtPc → Bool
  | .openSink _ => true
  | .close _ pc => pc.locks
  | _ => false

/-- The gate is open, and the sink not yet. -/
def beforeSink : BtPc → Bool
  | .openSink _ => true
  | _ => false

/-- The gate has been opened, and the receive admission not yet. -/
def beforeRx : BtPc → Bool
  | .openSink _ | .openClear _ | .openRx _ => true
  | _ => false

/-- The gate has been opened, and the offload is not yet started. -/
def beforeOffload : BtPc → Bool
  | .openSink _ | .openClear _ | .openRx _ | .openOffload _ .startCancelRecovery
  | .openOffload _ .startCancelPrep | .openOffload _ .startLock => true
  | _ => false

/-- The generation of the open in progress. -/
def openGen : BtPc → Option UInt32
  | .openSink gen | .openClear gen | .openRx gen | .openOffload gen _ | .recheck gen => some gen
  | _ => none

/-- The receive admission will be closed, if the gate is. -/
def willRx : BtPc → Bool
  | .openOffload _ _ | .recheck _ | .staleRx => true
  | .close _ pc => pc.willRx
  | _ => false

/-- The callback has closed the gate, or found it closed. -/
def closing : BtPc → Bool
  | .staleRx | .staleDrain | .staleOffload _ | .releaseSession _ | .releaseGate _ | .resetGate
  | .resetSession => true
  | .close _ pc => pc != .lock
  | _ => false

/-- The callback neither opens nor closes anything here. -/
def plain : BtPc → Bool
  | .idle | .config _ | .configured _ | .started _ | .disable | .release _ | .recv _ | .acquire _
  | .push | .pushed | .leave => true
  | .close _ pc => pc == .lock
  | _ => false

/-- Nothing is promised of a callback that neither opens nor closes. -/
theorem of_plain {pc : BtPc} (h : pc.plain = true) :
    pc.locks = false ∧ pc.beforeSink = false ∧ pc.beforeRx = false ∧ pc.beforeOffload = false ∧
      pc.openGen = none ∧ pc.willRx = false ∧ pc.closing = false ∧
      ∀ gen call, pc ≠ .openOffload gen call := by
  cases pc with
  | close ev pc =>
    obtain rfl := beq_iff_eq.1 h
    exact ⟨rfl, rfl, rfl, rfl, rfl, rfl, rfl, fun _ _ => BtPc.noConfusion⟩
  | openSink | openClear | openRx | openOffload | recheck | staleRx | staleDrain | staleOffload
  | releaseSession | releaseGate | resetGate | resetSession => exact Bool.noConfusion h
  | _ => exact ⟨rfl, rfl, rfl, rfl, rfl, rfl, rfl, fun _ _ => BtPc.noConfusion⟩

end BtPc

/-! ### The close -/

/-- What the invariant looks at. -/
structure Path.Same {ι κ : Type*} (p p' : Path ι κ) : Prop where
  gate : p'.gate.isOpen = p.gate.isOpen
  generation : p'.generation = p.generation
  lock : p'.lock = p.lock
  accepting : p'.sink.accepting = p.sink.accepting
  admission : p'.session.admission = p.session.admission
  offload : p.offload.core.state ≠ .stopped → p'.offload.core.state ≠ .stopped
  calls : p'.offload.calls = p.offload.calls

section Close

variable {ι κ : Type*} {p : Path ι κ} {forced : Bool} {t : Thread κ} {r : Result}

theorem Path.Same.refl : p.Same p := ⟨rfl, rfl, rfl, rfl, rfl, id, rfl⟩

/-- The steps of a close, for the invariant. -/
inductive CloseStep (p : Path ι κ) (t : Thread κ) : ClosePc → Path ι κ × Option ClosePc → Prop
  | lock {u wasOpen} (free : p.lock = none) (gate : u.gate.isOpen = false)
    (lock : u.lock = some t) (sink : u.sink = p.sink) (session : u.session = p.session)
    (offload : u.offload = p.offload) : CloseStep p t .lock (u, some (.sinkClose wasOpen))
  | sinkClose {wasOpen} : CloseStep p t (.sinkClose wasOpen)
    ({ p with sink := p.sink.streamClose, lock := none }, some (.rxClose wasOpen))
  | rxClose {wasOpen} : CloseStep p t (.rxClose wasOpen)
    ({ p with session := p.session.rxClose }, some (.rxDrain wasOpen))
  | stop {sink pc'} (accepting : sink.accepting = false) :
    CloseStep p t (.stop .enter) ({ p with sink := sink }, some (.stop pc'))
  | offload {pc'} (late : ∀ pc ∈ pc', ClosePc.late pc = true) :
    CloseStep p t (.offload .stopLock) ({ p with offload.core := p.offload.core.stopLocked }, pc')
  | other {pc u pc'} (here : pc.late = true) (same : p.Same u)
    (late : ∀ pc ∈ pc', ClosePc.late pc = true) : CloseStep p t pc (u, pc')

theorem late_afterClose : ∀ pc ∈ Path.afterClose forced, ClosePc.late pc = true := by
  intro pc hpc
  cases forced with
  | true => cases hpc
  | false =>
    obtain rfl := Option.some.inj hpc
    rfl

theorem closeStep_of_close {pc : ClosePc} {u : Path ι κ × Option ClosePc}
    (h : p.close forced t r pc = some u) : CloseStep p t pc u := by
  cases pc with
  | lock =>
    simp only [Path.close] at h
    split at h
    · cases h
    · rename_i hlock
      have hfree : p.lock = none := by simpa using hlock
      obtain rfl := Option.some.inj h
      refine .lock hfree ?_ rfl rfl rfl rfl
      cases forced <;> rfl
  | sinkClose wasOpen =>
    obtain rfl := Option.some.inj h
    exact .sinkClose
  | rxClose wasOpen =>
    obtain rfl := Option.some.inj h
    exact .rxClose
  | rxDrain wasOpen =>
    simp only [Path.close] at h
    split at h
    · obtain rfl := Option.some.inj h
      refine .other rfl .refl ?_
      cases wasOpen with
      | true => simp [ClosePc.late]
      | false => exact late_afterClose
    · cases h
  | stop pc =>
    obtain ⟨s, hs, rfl⟩ := Option.map_eq_some_iff.1 h
    by_cases hpc : pc = .enter
    · subst hpc
      obtain rfl := Option.some.inj hs
      exact .stop rfl
    · refine .other rfl ⟨rfl, rfl, rfl, Sink.stop_accepting _ hpc hs, rfl, id, rfl⟩ ?_
      intro pc' hpc'
      obtain rfl := Option.some.inj hpc'
      split <;> rfl
  | offload call =>
    obtain ⟨s, hs, rfl⟩ := Option.map_eq_some_iff.1 h
    by_cases hcall : call = .stopLock
    · subst hcall
      obtain rfl := Option.some.inj hs
      exact .offload late_afterClose
    · have hstarted := fun hstate => Core.call_started hstate hcall hs
      refine .other rfl ⟨rfl, rfl, rfl, rfl, rfl, hstarted, rfl⟩ ?_
      split
      · simp [ClosePc.late]
      · exact late_afterClose
  | startClear =>
    obtain rfl := Option.some.inj h
    exact .other rfl .refl (by simp)

end Close

/-! ### The invariant -/

namespace Sys

variable {ι κ : Type*} {s : Sys ι κ} {r : Result}

/-- A shell is about to close the receive admission. -/
def ShellWillRx (s : Sys ι κ) : Prop := ∃ i pc, s.shell i = some pc ∧ pc.willRx = true

/-- What holds in every run without a late stop. -/
structure Inv (s : Sys ι κ) : Prop where
  lockBt : s.path.lock = some .bt ↔ s.bt.locks = true
  lockShell : ∀ i, s.path.lock = some (.shell i) ↔ ∃ pc, s.shell i = some pc ∧ pc.locks = true
  shellClosed : ∀ i, s.path.lock = some (.shell i) → s.path.gate.isOpen = false
  closing : s.bt.closing = true → s.path.gate.isOpen = false
  opening : s.bt.beforeSink = true → s.path.gate.isOpen = true ∧ s.path.sink.accepting = false
  gen : ∀ gen, s.bt.openGen = some gen → s.path.gate.isOpen = true → s.path.generation = gen
  openSink : s.path.gate.isOpen = true → s.path.sink.accepting = true ∨ s.bt.beforeSink = true
  shutSink : s.path.sink.accepting = true → s.path.gate.isOpen = true ∨ s.path.lock ≠ none
  openRx : s.path.gate.isOpen = true → s.path.session.admission = true ∨ s.bt.beforeRx = true
  shutRx : s.path.session.admission = true →
    (s.path.gate.isOpen = true ∧ s.bt.beforeRx = false) ∨ s.bt.willRx = true ∨ s.ShellWillRx
  openOffload : s.path.gate.isOpen = true →
    s.path.offload.core.state ≠ .stopped ∨ s.bt.beforeOffload = true
  starts : ∀ gen call, s.bt = .openOffload gen call → call.ofStop = false
  calls : ∀ i call, s.path.offload.calls i = some call → call.ofStop = false

theorem Inv.bt (h : s.Inv) {p : Path ι κ} {pc : BtPc} (hsame : s.path.Same p)
    (hlocks : pc.locks = s.bt.locks) (hclosing : pc.closing = true → s.path.gate.isOpen = false)
    (hgen : ∀ gen, pc.openGen = some gen → s.bt.openGen = some gen)
    (hsink : pc.beforeSink = s.bt.beforeSink) (hrx : pc.beforeRx = s.bt.beforeRx)
    (hwill : s.bt.willRx = true → s.path.gate.isOpen = true ∧ pc.beforeRx = false ∨
      pc.willRx = true)
    (hoffload : s.bt.beforeOffload = true →
      p.offload.core.state ≠ .stopped ∨ pc.beforeOffload = true)
    (hstarts : ∀ gen call, pc = .openOffload gen call → call.ofStop = false) :
    Inv { s with path := p, bt := pc } where
  lockBt := by rw [hsame.lock, h.lockBt, hlocks]
  lockShell i := by rw [hsame.lock, h.lockShell i]
  shellClosed i hi := hsame.gate.trans (h.shellClosed i (hsame.lock ▸ hi))
  closing hpc := hsame.gate.trans (hclosing hpc)
  opening hpc := by
    rw [hsame.gate, hsame.accepting]
    exact h.opening (hsink ▸ hpc)
  gen gen hpc hopen := hsame.generation.trans (h.gen gen (hgen gen hpc) (hsame.gate ▸ hopen))
  openSink hopen := by
    rw [hsame.accepting, hsink]
    exact h.openSink (hsame.gate ▸ hopen)
  shutSink hacc := by
    rw [hsame.gate, hsame.lock]
    exact h.shutSink (hsame.accepting ▸ hacc)
  openRx hopen := by
    rw [hsame.admission, hrx]
    exact h.openRx (hsame.gate ▸ hopen)
  shutRx hadm := by
    rw [hsame.gate]
    rcases h.shutRx (hsame.admission ▸ hadm) with ⟨hopen, hbefore⟩ | hbt | hshell
    · exact .inl ⟨hopen, hrx.trans hbefore⟩
    · exact (hwill hbt).imp_right .inl
    · exact .inr (.inr hshell)
  openOffload hopen := by
    rcases h.openOffload (hsame.gate ▸ hopen) with hstate | hbefore
    · exact .inl (hsame.offload hstate)
    · exact hoffload hbefore
  starts := hstarts
  calls i call hi := h.calls i call (hsame.calls ▸ hi)

theorem Inv.btPlain (h : s.Inv) {p : Path ι κ} {pc : BtPc} (hbt : s.bt.plain = true)
    (hpc : pc.plain = true) (hsame : s.path.Same p) : Inv { s with path := p, bt := pc } := by
  obtain ⟨h₁, h₂, h₃, h₄, h₅, h₆, -, -⟩ := BtPc.of_plain hbt
  obtain ⟨g₁, g₂, g₃, g₄, g₅, g₆, g₇, g₈⟩ := BtPc.of_plain hpc
  exact h.bt hsame (g₁.trans h₁.symm) (fun hclosing => Bool.noConfusion (g₇.symm.trans hclosing))
    (fun gen hgen => (nomatch g₅.symm.trans hgen)) (g₂.trans h₂.symm) (g₃.trans h₃.symm)
    (fun hwill => Bool.noConfusion (h₆.symm.trans hwill))
    (fun hbefore => Bool.noConfusion (h₄.symm.trans hbefore))
    fun gen call hcall => absurd hcall (g₈ gen call)

theorem Inv.btClosing (h : s.Inv) {p : Path ι κ} {pc : BtPc} (hlocks : s.bt.locks = false)
    (hgate : p.gate.isOpen = false) (hclosed : s.path.gate.isOpen = false)
    (hlock : p.lock = s.path.lock) (hcalls : p.offload.calls = s.path.offload.calls)
    (hsink : p.sink.accepting = true → s.path.sink.accepting = true)
    (hrx : p.session.admission = true → s.path.session.admission = true ∧
      (s.bt.willRx = true → pc.willRx = true))
    (hpc : pc.locks = false) (hbefore : pc.beforeSink = false)
    (hstarts : ∀ gen call, pc ≠ .openOffload gen call) : Inv { s with path := p, bt := pc } where
  lockBt := by rw [hlock, h.lockBt, hpc, hlocks]
  lockShell i := by rw [hlock, h.lockShell i]
  shellClosed _ _ := hgate
  closing _ := hgate
  opening h₁ := Bool.noConfusion (hbefore.symm.trans h₁)
  gen _ _ hopen := Bool.noConfusion (hgate.symm.trans hopen)
  openSink hopen := Bool.noConfusion (hgate.symm.trans hopen)
  shutSink hacc := by
    rw [hlock, hgate]
    exact hclosed ▸ h.shutSink (hsink hacc)
  openRx hopen := Bool.noConfusion (hgate.symm.trans hopen)
  shutRx hadm := by
    obtain ⟨hadm', hwill⟩ := hrx hadm
    rcases h.shutRx hadm' with ⟨hopen, -⟩ | hbt | hshell
    · exact Bool.noConfusion (hclosed.symm.trans hopen)
    · exact .inr (.inl (hwill hbt))
    · exact .inr (.inr hshell)
  openOffload hopen := Bool.noConfusion (hgate.symm.trans hopen)
  starts gen call hcall := absurd hcall (hstarts gen call)
  calls i call hi := h.calls i call (hcalls ▸ hi)

/-- Nobody is under a free lock. -/
theorem Inv.free (h : s.Inv) (hlock : s.path.lock = none) :
    s.bt.locks = false ∧ ∀ i pc, s.shell i = some pc → pc.locks = false := by
  constructor
  · by_contra hbt
    exact nomatch hlock.symm.trans (h.lockBt.2 (by simpa using hbt))
  · intro i pc hi
    by_contra hpc
    exact nomatch hlock.symm.trans ((h.lockShell i).2 ⟨pc, hi, by simpa using hpc⟩)

theorem Inv.btLock (h : s.Inv) {p : Path ι κ} {ev : Teardown} {wasOpen : Bool}
    (hfree : s.path.lock = none) (hgate : p.gate.isOpen = false) (hlock : p.lock = some .bt)
    (hcalls : p.offload.calls = s.path.offload.calls) :
    Inv { s with path := p, bt := .close ev (.sinkClose wasOpen) } where
  lockBt := by simp [hlock, BtPc.locks, ClosePc.locks]
  lockShell j := by
    rw [hlock]
    simp only [Option.some.injEq, reduceCtorEq, false_iff]
    rintro ⟨pc, hj, hpc⟩
    exact Bool.noConfusion (((h.free hfree).2 j pc hj).symm.trans hpc)
  shellClosed _ _ := hgate
  closing _ := hgate
  opening hpc := Bool.noConfusion hpc
  gen _ hpc := nomatch hpc
  openSink hopen := Bool.noConfusion (hgate.symm.trans hopen)
  shutSink _ := .inr (by simp [hlock])
  openRx hopen := Bool.noConfusion (hgate.symm.trans hopen)
  shutRx _ := .inr (.inl rfl)
  openOffload hopen := Bool.noConfusion (hgate.symm.trans hopen)
  starts _ _ hcall := BtPc.noConfusion hcall
  calls j call hj := h.calls j call (hcalls ▸ hj)

theorem Inv.btSinkClose (h : s.Inv) {ev : Teardown} {wasOpen : Bool}
    (hbt : s.bt = .close ev (.sinkClose wasOpen)) :
    Inv { s with
      path := { s.path with sink := s.path.sink.streamClose, lock := none }
      bt := .close ev (.rxClose wasOpen) } := by
  have hlock : s.path.lock = some .bt := h.lockBt.2 (by rw [hbt]; rfl)
  have hclosed : s.path.gate.isOpen = false := h.closing (by rw [hbt]; rfl)
  refine ⟨by simp [BtPc.locks, ClosePc.locks], fun j => ?_, fun _ _ => hclosed, fun _ => hclosed,
    fun hpc => Bool.noConfusion hpc, fun _ hpc => (nomatch hpc),
    fun hopen => Bool.noConfusion (hclosed.symm.trans hopen), fun hacc => Bool.noConfusion hacc,
    fun hopen => Bool.noConfusion (hclosed.symm.trans hopen), fun _ => .inr (.inl rfl),
    fun hopen => Bool.noConfusion (hclosed.symm.trans hopen),
    fun _ _ hcall => BtPc.noConfusion hcall, h.calls⟩
  refine ⟨fun hj => (nomatch hj), fun hj => ?_⟩
  exact nomatch hlock.symm.trans ((h.lockShell j).2 hj)

/-! ### Callbacks -/

section Callbacks

variable {p : Path ι κ} {shell : κ → Option ClosePc}

theorem after_late (ev : Teardown) {pc : Option ClosePc} (h : ∀ q ∈ pc, ClosePc.late q = true) :
    (ev.next pc).locks = false ∧ (ev.next pc).beforeSink = false ∧
      ∀ gen call, ev.next pc ≠ .openOffload gen call := by
  cases pc with
  | some q => exact ⟨ClosePc.locks_of_late (h q rfl), rfl, fun _ _ => BtPc.noConfusion⟩
  | none => cases ev <;> exact ⟨rfl, rfl, fun _ _ => BtPc.noConfusion⟩

theorem inv_btClose {ev : Teardown} {pc : ClosePc} (h : Inv ⟨p, .close ev pc, shell⟩)
    {u : Path ι κ × Option ClosePc} (hu : p.close false .bt r pc = some u) :
    Inv ⟨u.1, ev.next u.2, shell⟩ := by
  have hclosed : pc ≠ .lock → p.gate.isOpen = false := fun hpc => h.closing (bne_iff_ne.2 hpc)
  cases closeStep_of_close hu with
  | lock free gate lock sink session offload => exact h.btLock free gate lock (by rw [offload])
  | sinkClose => exact h.btSinkClose rfl
  | rxClose =>
    have hc := hclosed ClosePc.noConfusion
    exact h.btClosing rfl hc hc rfl rfl id (fun hadm => Bool.noConfusion hadm) rfl rfl
      fun _ _ => BtPc.noConfusion
  | stop accepting =>
    have hc := hclosed ClosePc.noConfusion
    exact h.btClosing rfl hc hc rfl rfl
      (fun hacc => Bool.noConfusion (accepting.symm.trans hacc))
      (fun hadm => ⟨hadm, fun hwill => Bool.noConfusion hwill⟩) rfl rfl fun _ _ => BtPc.noConfusion
  | offload late =>
    have hc := hclosed ClosePc.noConfusion
    obtain ⟨hlocks, hbefore, hstarts⟩ := after_late ev late
    exact h.btClosing rfl hc hc rfl rfl id
      (fun hadm => ⟨hadm, fun hwill => Bool.noConfusion hwill⟩) hlocks hbefore hstarts
  | other here same late =>
    have hc := hclosed (by rintro rfl; exact Bool.noConfusion here)
    obtain ⟨hlocks, hbefore, hstarts⟩ := after_late ev late
    refine h.btClosing (ClosePc.locks_of_late here) (same.gate.trans hc) hc same.lock same.calls
      (fun hacc => same.accepting ▸ hacc) (fun hadm => ⟨same.admission ▸ hadm, fun hwill => ?_⟩)
      hlocks hbefore hstarts
    exact Bool.noConfusion ((ClosePc.willRx_of_late here).symm.trans hwill)

theorem inv_opened {idx : Fin maxSinkAse} (h : Inv ⟨p, .started idx, shell⟩)
    (hfree : p.lock = none) (hopened : (p.gate.sinkStarted idx).2 = true) :
    Inv ⟨{ p with
      gate := (p.gate.sinkStarted idx).1
      generation := p.generation + 1
      lock := some .bt }, .openSink (p.generation + 1), shell⟩ := by
  have hclosed : p.gate.isOpen = false := p.gate.isOpen_of_sinkStarted hopened
  have hopen : (p.gate.sinkStarted idx).1.isOpen = true := by
    rw [p.gate.sinkStarted_isOpen, hopened, Bool.or_true]
  have hacc : p.sink.accepting = false := by
    by_contra hacc
    rcases h.shutSink (by simpa using hacc) with h₁ | h₁
    · exact Bool.noConfusion (hclosed.symm.trans h₁)
    · exact h₁ hfree
  refine ⟨by simp [BtPc.locks], fun j => ?_, fun j hj => (nomatch hj),
    fun hc => Bool.noConfusion hc, fun _ => ⟨hopen, hacc⟩, fun gen hgen _ => Option.some.inj hgen,
    fun _ => .inr rfl, fun _ => .inl hopen, fun _ => .inr rfl, fun hadm => ?_, fun _ => .inr rfl,
    fun _ _ hcall => BtPc.noConfusion hcall, h.calls⟩
  · refine ⟨fun hj => (nomatch hj), ?_⟩
    rintro ⟨pc, hj, hpc⟩
    exact Bool.noConfusion (((h.free hfree).2 j pc hj).symm.trans hpc)
  · -- only a shell could have left the admission open
    rcases h.shutRx hadm with ⟨h₁, -⟩ | h₁ | h₁
    · exact Bool.noConfusion (hclosed.symm.trans h₁)
    · exact Bool.noConfusion h₁
    · exact .inr (.inr h₁)

theorem inv_openSink {gen : UInt32} (h : Inv ⟨p, .openSink gen, shell⟩) {u : Path ι κ × BtPc}
    (hu : p.bt r (.openSink gen) = some u) : Inv ⟨u.1, u.2, shell⟩ := by
  obtain ⟨hopen, hacc⟩ : p.gate.isOpen = true ∧ p.sink.accepting = false := h.opening rfl
  have hlock : p.lock = some .bt := h.lockBt.2 rfl
  have hshell : ∀ j, (none : Option (Thread κ)) = some (.shell j) ↔
      ∃ pc, shell j = some pc ∧ pc.locks = true := by
    intro j
    refine ⟨fun hj => (nomatch hj), fun hj => ?_⟩
    exact nomatch hlock.symm.trans ((h.lockShell j).2 hj)
  have hgen : p.generation = gen := h.gen gen rfl hopen
  obtain ⟨t, ht, rfl⟩ := Option.map_eq_some_iff.1 hu
  simp only [Sink.streamOpen] at ht
  split_ifs at ht with hconf hstop
  · obtain rfl := Option.some.inj ht
    refine ⟨by simp [BtPc.locks], hshell, fun _ _ => rfl, fun _ => rfl,
      fun hpc => Bool.noConfusion hpc, fun _ hpc => (nomatch hpc), fun ho => Bool.noConfusion ho,
      fun ha => Bool.noConfusion (hacc.symm.trans ha), fun ho => Bool.noConfusion ho,
      fun hadm => ?_, fun ho => Bool.noConfusion ho, fun _ _ hcall => BtPc.noConfusion hcall,
      h.calls⟩
    -- the admission was not opened by this callback
    rcases h.shutRx hadm with ⟨-, h₁⟩ | h₁ | h₁
    · exact Bool.noConfusion h₁
    · exact Bool.noConfusion h₁
    · exact .inr (.inr h₁)
  · obtain rfl := Option.some.inj ht
    exact ⟨by simp [BtPc.locks], hshell, fun j hj => (nomatch hj), fun hc => Bool.noConfusion hc,
      fun hpc => Bool.noConfusion hpc, fun g hg _ => hgen.trans (Option.some.inj hg),
      fun _ => .inl rfl, fun _ => .inl hopen, fun _ => .inr rfl, h.shutRx, fun _ => .inr rfl,
      fun _ _ hcall => BtPc.noConfusion hcall, h.calls⟩

theorem inv_openRx {gen : UInt32} (h : Inv ⟨p, .openRx gen, shell⟩) :
    Inv ⟨{ p with session := p.session.rxOpen }, .openOffload gen Api.streamStart.first,
      shell⟩ := by
  refine ⟨h.lockBt, h.lockShell, h.shellClosed, fun hc => Bool.noConfusion hc,
    fun hpc => Bool.noConfusion hpc, h.gen, h.openSink, h.shutSink, fun _ => .inl rfl,
    fun _ => .inr (.inl rfl), fun _ => .inr rfl, fun gen' call hcall => ?_, h.calls⟩
  cases hcall
  rfl

theorem openNext_spec (gen : UInt32) (call : Option Call) :
    (BtPc.openNext gen call).locks = false ∧ (BtPc.openNext gen call).closing = false ∧
      (BtPc.openNext gen call).openGen = some gen ∧ (BtPc.openNext gen call).beforeSink = false ∧
      (BtPc.openNext gen call).beforeRx = false ∧ (BtPc.openNext gen call).willRx = true ∧
      ∀ gen' call', BtPc.openNext gen call = .openOffload gen' call' → call = some call' := by
  cases call with
  | none => exact ⟨rfl, rfl, rfl, rfl, rfl, rfl, fun _ _ h => BtPc.noConfusion h⟩
  | some call =>
    refine ⟨rfl, rfl, rfl, rfl, rfl, rfl, fun gen' call' h => ?_⟩
    cases h
    rfl

theorem inv_openOffload {gen : UInt32} {call : Call} (h : Inv ⟨p, .openOffload gen call, shell⟩)
    {t : Core × Option Call} (ht : p.offload.core.call r call = some t) :
    Inv ⟨{ p with offload.core := t.1 }, .openNext gen t.2, shell⟩ := by
  have hstop : call.ofStop = false := h.starts gen call rfl
  have hcall : call ≠ .stopLock := by
    rintro rfl
    exact Bool.noConfusion hstop
  have hsame : p.Same { p with offload.core := t.1 } :=
    ⟨rfl, rfl, rfl, rfl, rfl, fun hstate => Core.call_started hstate hcall ht, rfl⟩
  obtain ⟨h₁, h₂, h₃, h₄, h₅, h₆, h₇⟩ := openNext_spec gen t.2
  refine h.bt hsame h₁ (fun hc => Bool.noConfusion (h₂.symm.trans hc))
    (fun gen' hgen' => h₃.symm.trans hgen') h₄ h₅ (fun _ => .inr h₆) (fun hbefore => ?_)
    fun gen' call' hcall' => ?_
  · cases call with
    | startCancelRecovery | startCancelPrep =>
      obtain rfl := Option.some.inj ht
      exact .inr rfl
    | startLock =>
      obtain rfl := Option.some.inj ht
      exact .inl Offload.Lifecycle.State.noConfusion
    | _ => exact Bool.noConfusion hbefore
  · rw [Core.call_ofStop ht (h₇ gen' call' hcall'), hstop]

/-- The gate is looked at again: only a closed one is stale. -/
theorem inv_recheck {gen : UInt32} (h : Inv ⟨p, .recheck gen, shell⟩) :
    Inv ⟨p, if !p.gate.isOpen || p.generation != gen then .staleRx else .idle, shell⟩ := by
  have hgen : p.gate.isOpen = true → p.generation = gen := h.gen gen rfl
  split
  · rename_i hstale
    refine h.bt .refl rfl (fun _ => ?_) (fun _ hg => (nomatch hg)) rfl rfl (fun _ => .inr rfl)
      (fun hbefore => Bool.noConfusion hbefore) fun _ _ => BtPc.noConfusion
    by_contra hopen
    have hopen' : p.gate.isOpen = true := by simpa using hopen
    simp [hopen', hgen hopen'] at hstale
  · rename_i hfresh
    have hopen : p.gate.isOpen = true := by
      by_contra hopen
      simp [hopen] at hfresh
    exact h.bt .refl rfl (fun hc => Bool.noConfusion hc) (fun _ hg => (nomatch hg)) rfl rfl
      (fun _ => .inl ⟨hopen, rfl⟩) (fun hbefore => Bool.noConfusion hbefore)
      fun _ _ => BtPc.noConfusion

theorem of_locked {u v : Path ι κ × BtPc} (h : p.locked v = some u) : p.lock = none ∧ v = u := by
  unfold Path.locked at h
  split_ifs at h with hlock
  exact ⟨by simpa using hlock, Option.some.inj h⟩

theorem Inv.btCleanup (h : s.Inv) {pc : BtPc} (hbt : s.bt.closing = true)
    (hlocks : s.bt.locks = false) (hwill : s.bt.willRx = false) (hgate : p.gate.isOpen = false)
    (hlock : p.lock = s.path.lock) (hcalls : p.offload.calls = s.path.offload.calls)
    (hsink : p.sink = s.path.sink) (hrx : p.session.admission = s.path.session.admission)
    (hpc : pc.locks = false) (hbefore : pc.beforeSink = false)
    (hstarts : ∀ gen call, pc ≠ .openOffload gen call) : Inv { s with path := p, bt := pc } := by
  refine h.btClosing hlocks hgate (h.closing hbt) hlock hcalls (fun hacc => hsink ▸ hacc)
    (fun hadm => ⟨hrx ▸ hadm, fun h₁ => ?_⟩) hpc hbefore hstarts
  exact Bool.noConfusion (hwill.symm.trans h₁)

/-- Every step of a callback keeps the invariant. -/
theorem inv_bt {bt : BtPc} (h : Inv ⟨p, bt, shell⟩) {u : Path ι κ × BtPc}
    (hu : p.bt r bt = some u) : Inv ⟨u.1, u.2, shell⟩ := by
  -- the sections of a callback in the order of the source; most of them touch nothing that the
  -- invariant looks at
  cases bt with
  | idle => cases hu
  | config idx | pushed | leave =>
    obtain rfl := Option.some.inj hu
    exact h.btPlain rfl rfl ⟨rfl, rfl, rfl, rfl, rfl, id, rfl⟩
  | configured idx | disable =>
    obtain ⟨-, rfl⟩ := of_locked hu
    exact h.btPlain rfl rfl ⟨rfl, rfl, rfl, rfl, rfl, id, rfl⟩
  | started idx =>
    simp only [Path.bt] at hu
    -- the gate opens with this sink, or it does not
    split_ifs at hu with hlock hopened
    · obtain rfl := Option.some.inj hu
      exact inv_opened h (by simpa using hlock) hopened
    · obtain rfl := Option.some.inj hu
      refine h.btPlain rfl rfl ⟨?_, rfl, rfl, rfl, rfl, id, rfl⟩
      rw [p.gate.sinkStarted_isOpen, Bool.eq_false_iff.2 hopened, Bool.or_false]
  | openSink gen => exact inv_openSink h hu
  | openClear gen =>
    obtain rfl := Option.some.inj hu
    exact h.bt .refl rfl (fun hc => Bool.noConfusion hc) (fun _ hg => hg) rfl rfl
      (fun hwill => Bool.noConfusion hwill) (fun _ => .inr rfl) fun _ _ => BtPc.noConfusion
  | openRx gen =>
    obtain rfl := Option.some.inj hu
    exact inv_openRx h
  | openOffload gen call =>
    obtain ⟨t, ht, rfl⟩ := Option.map_eq_some_iff.1 hu
    exact inv_openOffload h ht
  | recheck gen =>
    obtain ⟨-, rfl⟩ := of_locked hu
    exact inv_recheck h
  | staleRx =>
    obtain rfl := Option.some.inj hu
    -- the gate was closed meanwhile, so the receive admission is taken back
    have hc := h.closing rfl
    exact h.btClosing rfl hc hc rfl rfl id (fun hadm => Bool.noConfusion hadm) rfl rfl
      fun _ _ => BtPc.noConfusion
  | staleDrain =>
    simp only [Path.bt] at hu
    split_ifs at hu
    obtain rfl := Option.some.inj hu
    exact h.btCleanup rfl rfl rfl (h.closing rfl) rfl rfl rfl rfl rfl rfl fun _ _ =>
      BtPc.noConfusion
  | staleOffload call =>
    obtain ⟨t, -, rfl⟩ := Option.map_eq_some_iff.1 hu
    refine h.btCleanup rfl rfl rfl (h.closing rfl) rfl rfl rfl rfl ?_ ?_ ?_
    all_goals cases t.2 <;> first | rfl | exact fun _ _ => BtPc.noConfusion
  | release idx | recv idx =>
    obtain ⟨-, rfl⟩ := of_locked hu
    refine h.btPlain rfl ?_ .refl
    dsimp only
    split_ifs <;> rfl
  | close ev pc =>
    obtain ⟨t, ht, rfl⟩ := Option.map_eq_some_iff.1 hu
    exact inv_btClose h ht
  | releaseSession idx | resetSession =>
    obtain rfl := Option.some.inj hu
    exact h.btCleanup rfl rfl rfl (h.closing rfl) rfl rfl rfl rfl rfl rfl fun _ _ =>
      BtPc.noConfusion
  | releaseGate idx =>
    obtain ⟨-, rfl⟩ := of_locked hu
    exact h.btCleanup rfl rfl rfl ((p.gate.sinkRelease_isOpen idx).trans (h.closing rfl)) rfl rfl
      rfl rfl rfl rfl fun _ _ => BtPc.noConfusion
  | resetGate =>
    obtain ⟨-, rfl⟩ := of_locked hu
    exact h.btCleanup rfl rfl rfl rfl rfl rfl rfl rfl rfl rfl fun _ _ => BtPc.noConfusion
  | acquire idx =>
    simp only [Path.bt, Session.acquire] at hu
    split at hu
    · rename_i session hsession
      split_ifs at hsession
      obtain rfl := Option.some.inj hsession
      obtain rfl := Option.some.inj hu
      exact h.btPlain rfl rfl ⟨rfl, rfl, rfl, rfl, rfl, id, rfl⟩
    · obtain rfl := Option.some.inj hu
      exact h.btPlain rfl rfl .refl
  | push =>
    simp only [Path.bt, Sink.pushEnter] at hu
    split at hu
    · obtain rfl := Option.some.inj hu
      exact h.btPlain rfl rfl .refl
    · split at hu
      · rename_i sink hsink
        split_ifs at hsink
        obtain rfl := Option.some.inj hsink
        obtain rfl := Option.some.inj hu
        exact h.btPlain rfl rfl ⟨rfl, rfl, rfl, rfl, rfl, id, rfl⟩
      · obtain rfl := Option.some.inj hu
        exact h.btPlain rfl rfl .refl

end Callbacks

/-! ### Forced stops -/

variable [DecidableEq κ]

theorem shellWillRx_update {p : Path ι κ} {bt : BtPc} {i : κ} {pc : ClosePc} {pc' : Option ClosePc}
    (hi : s.shell i = some pc) (hpc : pc.willRx = true → ∃ q, pc' = some q ∧ q.willRx = true)
    (h : s.ShellWillRx) : ShellWillRx ⟨p, bt, Function.update s.shell i pc'⟩ := by
  obtain ⟨j, q, hj, hq⟩ := h
  by_cases hji : j = i
  · subst hji
    obtain rfl := Option.some.inj (hi.symm.trans hj)
    obtain ⟨q', rfl, hq'⟩ := hpc hq
    exact ⟨j, q', Function.update_self .., hq'⟩
  · exact ⟨j, q, (Function.update_of_ne hji ..).trans hj, hq⟩

theorem Inv.shellLate (h : s.Inv) {p : Path ι κ} {i : κ} {pc : ClosePc} {pc' : Option ClosePc}
    (hi : s.shell i = some pc) (hlocks : pc.locks = false) (hlocks' : ∀ q ∈ pc', q.locks = false)
    (hgate : p.gate.isOpen = s.path.gate.isOpen) (hgen : p.generation = s.path.generation)
    (hlock : p.lock = s.path.lock) (hcalls : p.offload.calls = s.path.offload.calls)
    (hsink : p.sink.accepting = true → s.path.sink.accepting = true)
    (hsink' : s.path.gate.isOpen = true → s.path.sink.accepting = true →
      p.sink.accepting = true ∨ s.bt.beforeSink = true)
    (hrx : p.session.admission = true → s.path.session.admission = true ∧ pc.willRx = false)
    (hrx' : s.path.gate.isOpen = true → s.path.session.admission = true →
      p.session.admission = true ∨ s.bt.beforeRx = true)
    (hoffload : s.path.gate.isOpen = true → s.path.offload.core.state ≠ .stopped →
      p.offload.core.state ≠ .stopped ∨ s.bt.beforeOffload = true) :
    Inv { s with path := p, shell := Function.update s.shell i pc' } where
  lockBt := by rw [hlock, h.lockBt]
  lockShell j := by
    rw [hlock, h.lockShell j]
    by_cases hji : j = i
    · subst hji
      simp only [Function.update_self, hi]
      constructor
      · rintro ⟨q, hq, hq'⟩
        obtain rfl := Option.some.inj hq
        exact Bool.noConfusion (hlocks.symm.trans hq')
      · rintro ⟨q, hq, hq'⟩
        exact Bool.noConfusion ((hlocks' q hq).symm.trans hq')
    · simp only [Function.update_of_ne hji]
  shellClosed j hj := hgate.trans (h.shellClosed j (hlock ▸ hj))
  closing hpc := hgate.trans (h.closing hpc)
  -- while the gate opens the sink does not accept yet, and a shell never makes it
  opening hpc := by
    obtain ⟨hopen, hacc⟩ := h.opening hpc
    refine ⟨hgate.trans hopen, ?_⟩
    by_contra hacc'
    exact Bool.noConfusion (hacc.symm.trans (hsink (by simpa using hacc')))
  gen gen hpc hopen := hgen.trans (h.gen gen hpc (hgate ▸ hopen))
  openSink hopen := by
    rcases h.openSink (hgate ▸ hopen) with hacc | hbefore
    · exact hsink' (hgate ▸ hopen) hacc
    · exact .inr hbefore
  shutSink hacc := by
    rw [hgate, hlock]
    exact h.shutSink (hsink hacc)
  openRx hopen := by
    rcases h.openRx (hgate ▸ hopen) with hadm | hbefore
    · exact hrx' (hgate ▸ hopen) hadm
    · exact .inr hbefore
  shutRx hadm := by
    obtain ⟨hadm', hpc⟩ := hrx hadm
    rw [hgate]
    refine (h.shutRx hadm').imp_right (Or.imp_right (shellWillRx_update hi ?_))
    exact fun hwill => Bool.noConfusion (hpc.symm.trans hwill)
  openOffload hopen := by
    rcases h.openOffload (hgate ▸ hopen) with hstate | hbefore
    · exact hoffload (hgate ▸ hopen) hstate
    · exact .inr hbefore
  starts := h.starts
  calls j call hj := h.calls j call (hcalls ▸ hj)

theorem Inv.shellLock (h : s.Inv) {p : Path ι κ} {i : κ} {wasOpen : Bool}
    (hfree : s.path.lock = none) (hgate : p.gate.isOpen = false) (hlock : p.lock = some (.shell i))
    (hcalls : p.offload.calls = s.path.offload.calls) :
    Inv { s with path := p, shell := Function.update s.shell i (some (.sinkClose wasOpen)) } where
  lockBt := by
    rw [hlock, (h.free hfree).1]
    simp
  lockShell j := by
    rw [hlock]
    by_cases hji : j = i
    · subst hji
      simp [ClosePc.locks]
    · simp only [Function.update_of_ne hji, Option.some.injEq, Thread.shell.injEq, Ne.symm hji,
        false_iff]
      rintro ⟨pc, hj, hpc⟩
      exact Bool.noConfusion (((h.free hfree).2 j pc hj).symm.trans hpc)
  shellClosed _ _ := hgate
  closing _ := hgate
  opening hpc := by
    have hlocks : s.bt.locks = true := by
      cases hbt : s.bt <;> simp_all [BtPc.beforeSink, BtPc.locks]
    exact Bool.noConfusion ((h.free hfree).1.symm.trans hlocks)
  gen _ _ hopen := Bool.noConfusion (hgate.symm.trans hopen)
  openSink hopen := Bool.noConfusion (hgate.symm.trans hopen)
  shutSink _ := .inr (by simp [hlock])
  openRx hopen := Bool.noConfusion (hgate.symm.trans hopen)
  shutRx _ := .inr (.inr ⟨i, _, Function.update_self .., rfl⟩)
  openOffload hopen := Bool.noConfusion (hgate.symm.trans hopen)
  starts := h.starts
  calls j call hj := h.calls j call (hcalls ▸ hj)

theorem Inv.shellSinkClose (h : s.Inv) {i : κ} {wasOpen : Bool}
    (hi : s.shell i = some (.sinkClose wasOpen)) :
    Inv { s with
      path := { s.path with sink := s.path.sink.streamClose, lock := none }
      shell := Function.update s.shell i (some (.rxClose wasOpen)) } := by
  have hlock : s.path.lock = some (.shell i) := (h.lockShell i).2 ⟨_, hi, rfl⟩
  have hclosed : s.path.gate.isOpen = false := h.shellClosed i hlock
  have hbt : s.bt.locks = false := by
    by_contra hbt
    exact nomatch hlock.symm.trans (h.lockBt.2 (by simpa using hbt))
  refine ⟨by simp [hbt], fun j => ?_, fun _ _ => hclosed, h.closing, fun hpc => ?_, h.gen,
    fun hopen => Bool.noConfusion (hclosed.symm.trans hopen), fun hacc => Bool.noConfusion hacc,
    h.openRx, fun hadm => ?_, h.openOffload, h.starts, h.calls⟩
  · refine ⟨fun hj => (nomatch hj), ?_⟩
    rintro ⟨pc, hj, hpc⟩
    dsimp only at hj
    by_cases hji : j = i
    · subst hji
      rw [Function.update_self] at hj
      obtain rfl := Option.some.inj hj
      exact Bool.noConfusion hpc
    · rw [Function.update_of_ne hji] at hj
      have hj' := (h.lockShell j).2 ⟨pc, hj, hpc⟩
      exact absurd (Thread.shell.inj (Option.some.inj (hj'.symm.trans hlock))) hji
  · exact Bool.noConfusion (hclosed.symm.trans (h.opening hpc).1)
  · exact (h.shutRx hadm).imp_right (Or.imp_right (shellWillRx_update hi fun _ => ⟨_, rfl, rfl⟩))

/-- A forced stop does not act on a path that a later callback has opened. -/
def stopsCurrent (s : Sys ι κ) : Action ι κ → Bool
  | .shell i _ =>
    match s.shell i with
    | some (.rxClose _) => !s.path.gate.isOpen || s.bt.beforeRx
    | some (.stop .enter) => !s.path.gate.isOpen || s.bt.beforeSink
    | some (.offload .stopLock) => !s.path.gate.isOpen || s.bt.beforeOffload
    | _ => true
  | _ => true

theorem inv_shell (h : s.Inv) {i : κ} {pc : ClosePc} {u : Path ι κ × Option ClosePc}
    (hi : s.shell i = some pc) (hok : s.stopsCurrent (.shell i r) = true)
    (hu : s.path.close true (.shell i) r pc = some u) :
    Inv { s with path := u.1, shell := Function.update s.shell i u.2 } := by
  simp only [stopsCurrent, hi] at hok
  cases closeStep_of_close hu with
  | lock free gate lock sink session offload => exact h.shellLock free gate lock (by rw [offload])
  | sinkClose => exact h.shellSinkClose hi
  | rxClose =>
    refine h.shellLate hi rfl (by simp [ClosePc.locks]) rfl rfl rfl rfl id (fun _ => .inl)
      (fun hadm => Bool.noConfusion hadm) (fun hopen _ => .inr ?_) fun _ => .inl
    simpa [hopen] using hok
  | stop accepting =>
    refine h.shellLate hi rfl (by simp [ClosePc.locks]) rfl rfl rfl rfl
      (fun hacc => Bool.noConfusion (accepting.symm.trans hacc)) (fun hopen _ => .inr ?_)
      (fun hadm => ⟨hadm, rfl⟩) (fun _ => .inl) fun _ => .inl
    simpa [hopen] using hok
  | offload late =>
    refine h.shellLate hi rfl (fun q hq => ClosePc.locks_of_late (late q hq)) rfl rfl rfl rfl id
      (fun _ => .inl) (fun hadm => ⟨hadm, rfl⟩) (fun _ => .inl) (fun hopen _ => .inr ?_)
    simpa [hopen] using hok
  | other here same late =>
    refine h.shellLate hi (ClosePc.locks_of_late here)
      (fun q hq => ClosePc.locks_of_late (late q hq))
      same.gate same.generation same.lock same.calls (fun hacc => same.accepting ▸ hacc)
      (fun _ hacc => .inl (same.accepting ▸ hacc))
      (fun hadm => ⟨same.admission ▸ hadm, ClosePc.willRx_of_late here⟩)
      (fun _ hadm => .inl (same.admission ▸ hadm)) fun _ hstate => .inl (same.offload hstate)

/-! ### Runs -/

variable [DecidableEq ι]

theorem offload_started {o o' : Offload.Lifecycle.Sys ι} {a : Offload.Lifecycle.Action ι}
    (hcalls : ∀ i call, o.calls i = some call → call.ofStop = false) (ha : entersStream a = false)
    (h : o.next a = some o') :
    (o.core.state ≠ .stopped → o'.core.state ≠ .stopped) ∧
      ∀ i call, o'.calls i = some call → call.ofStop = false := by
  cases a with
  | enter i api =>
    simp only [Offload.Lifecycle.Sys.next] at h
    split_ifs at h
    obtain rfl := Option.some.inj h
    refine ⟨id, fun j call hj => ?_⟩
    dsimp only at hj
    by_cases hji : j = i
    · subst hji
      rw [Function.update_self] at hj
      obtain rfl := Option.some.inj hj
      cases api <;> first | rfl | exact Bool.noConfusion ha
    · rw [Function.update_of_ne hji] at hj
      exact hcalls j call hj
  | call i r =>
    simp only [Offload.Lifecycle.Sys.next] at h
    cases hi : o.calls i with
    | none =>
      rw [hi] at h
      cases h
    | some call =>
      rw [hi] at h
      obtain ⟨t, ht, rfl⟩ := Option.map_eq_some_iff.1 h
      have hstop : call.ofStop = false := hcalls i call hi
      have hcall : call ≠ .stopLock := by
        rintro rfl
        exact Bool.noConfusion hstop
      refine ⟨fun hstate => Core.call_started hstate hcall ht, fun j call' hj => ?_⟩
      dsimp only at hj
      by_cases hji : j = i
      · subst hji
        rw [Function.update_self] at hj
        rw [Core.call_ofStop ht hj, hstop]
      · rw [Function.update_of_ne hji] at hj
        exact hcalls j call' hj
  | takePrep | takeRecovery | takeIdle =>
    simp only [Offload.Lifecycle.Sys.next] at h
    split_ifs at h
    obtain rfl := Option.some.inj h
    exact ⟨id, hcalls⟩
  | worker r =>
    obtain ⟨t, ht, rfl⟩ := Option.map_eq_some_iff.1 h
    exact ⟨fun hstate => Core.work_started hstate ht, hcalls⟩

/-- Every step without a late stop keeps the invariant. -/
theorem inv_next (h : s.Inv) {a : Action ι κ} {s' : Sys ι κ} (hok : s.stopsCurrent a = true)
    (hnext : s.next a = some s') : s'.Inv := by
  cases a with
  | callback cb =>
    simp only [next] at hnext
    split_ifs at hnext with hidle
    obtain rfl := Option.some.inj hnext
    exact h.btPlain (by rw [hidle]; rfl) (by cases cb <;> rfl) .refl
  | bt r =>
    obtain ⟨u, hu, rfl⟩ := Option.map_eq_some_iff.1 hnext
    exact inv_bt h hu
  | shellStop i =>
    simp only [next] at hnext
    split_ifs at hnext with hi
    obtain rfl := Option.some.inj hnext
    -- the shells that were there are other ones
    have hold : ∀ j pc, pc.willRx = true ∨ pc.locks = true →
        (Function.update s.shell i (some .lock) j = some pc ↔ s.shell j = some pc) := by
      intro j pc hpc
      by_cases hji : j = i
      · subst hji
        rw [Function.update_self, hi]
        refine ⟨fun hj => ?_, fun hj => (nomatch hj)⟩
        obtain rfl := Option.some.inj hj
        exact absurd hpc (by decide)
      · rw [Function.update_of_ne hji]
    refine { h with lockShell := fun j => ?_, shutRx := fun hadm => ?_ }
    · rw [h.lockShell j]
      exact exists_congr fun pc => and_congr_left fun hpc => (hold j pc (.inr hpc)).symm
    · refine (h.shutRx hadm).imp_right (Or.imp_right ?_)
      rintro ⟨j, pc, hj, hpc⟩
      exact ⟨j, pc, (hold j pc (.inl hpc)).2 hj, hpc⟩
  | shell i r =>
    simp only [next] at hnext
    cases hi : s.shell i with
    | none =>
      rw [hi] at hnext
      cases hnext
    | some pc =>
      rw [hi] at hnext
      obtain ⟨u, hu, rfl⟩ := Option.map_eq_some_iff.1 hnext
      exact inv_shell h hi hok hu
  | offload a =>
    simp only [next] at hnext
    split_ifs at hnext with ha
    obtain ⟨o, ho, rfl⟩ := Option.map_eq_some_iff.1 hnext
    obtain ⟨hstarted, hcalls⟩ := offload_started h.calls (by simpa using ha) ho
    exact { h with
      openOffload := fun hopen => (h.openOffload hopen).imp_left hstarted
      calls := hcalls }

theorem inv_of_reachableBy (h : (machine ι κ).ReachableBy (fun s a => s.stopsCurrent a = true) s) :
    s.Inv := by
  refine h.invariant ?_ fun s a s' hs hok hnext => inv_next hs hok hnext
  rintro s ⟨configured, ringsReady, rfl⟩
  refine ⟨by simp [start, BtPc.locks], by simp [start], ?_, ?_, ?_, ?_, ?_, ?_, ?_, ?_, ?_, ?_, ?_⟩
  all_goals simp [start, Gate.reset, Sink.init, Session.init, Offload.Lifecycle.Sys.start,
    BtPc.closing, BtPc.beforeSink]

/-- No callback and no shell stop is executing. -/
def Idle (s : Sys ι κ) : Prop := s.bt = .idle ∧ ∀ i, s.shell i = none

/-- The gate and the two admissions agree, and an open gate has a started offload. -/
def Coherent (s : Sys ι κ) : Prop :=
  (s.path.gate.isOpen = true ↔ s.path.sink.accepting = true) ∧
  (s.path.gate.isOpen = true ↔ s.path.session.admission = true) ∧
  (s.path.gate.isOpen = true → s.path.offload.core.state ≠ .stopped)

/-- **Coherence.**  In every run without a late stop, the audio path is coherent whenever no
callback and no shell stop is executing. -/
theorem coherent (h : (machine ι κ).ReachableBy (fun s a => s.stopsCurrent a = true) s)
    (hidle : s.Idle) : s.Coherent := by
  have hinv := inv_of_reachableBy h
  obtain ⟨hbt, hshell⟩ := hidle
  have hfree : s.path.lock = none := by
    rcases hlock : s.path.lock with - | (- | i)
    · rfl
    · have hlocks := hinv.lockBt.1 hlock
      rw [hbt] at hlocks
      exact Bool.noConfusion hlocks
    · obtain ⟨pc, hi, -⟩ := (hinv.lockShell i).1 hlock
      exact nomatch (hshell i).symm.trans hi
  have hsink := hinv.openSink
  have hrx := hinv.openRx
  have hshut := hinv.shutRx
  have hoffload := hinv.openOffload
  rw [hbt] at hsink hrx hshut hoffload
  refine ⟨⟨fun hopen => ?_, fun hacc => ?_⟩, ⟨fun hopen => ?_, fun hadm => ?_⟩, fun hopen => ?_⟩
  · exact (hsink hopen).resolve_right Bool.noConfusion
  · exact (hinv.shutSink hacc).resolve_right fun hlock => hlock hfree
  · exact (hrx hopen).resolve_right Bool.noConfusion
  · rcases hshut hadm with ⟨hopen, -⟩ | hwill | ⟨i, pc, hi, -⟩
    · exact hopen
    · exact Bool.noConfusion hwill
    · exact nomatch (hshell i).symm.trans hi
  · exact (hoffload hopen).resolve_right Bool.noConfusion

/-! ### Two runs -/

/-- A whole callback, every result being a success. -/
def whole (cb : Callback) (n : ℕ) : List (Action Unit Unit) :=
  .callback cb :: List.replicate n (.bt (.ok 1))

/-- A sink is configured and starts. -/
def opens : List (Action Unit Unit) := whole (.config 0) 2 ++ whole (.started 0) 9

theorem start_reachable {ok : Sys Unit Unit → Action Unit Unit → Prop} :
    (machine Unit Unit).ReachableBy ok (start true true) :=
  .init ⟨true, true, rfl⟩

theorem coherent_opens :
    ∃ s, (machine Unit Unit).ReachableBy (fun s a => s.stopsCurrent a = true) s ∧ s.Idle ∧
      s.path.gate.isOpen = true ∧ s.Coherent := by
  have hrun : ((machine Unit Unit).runBy (fun s a => s.stopsCurrent a = true) (start true true)
      opens).map (fun s => (s.bt, s.shell (), s.path.gate.isOpen)) = some (.idle, none, true) := by
    decide +kernel
  obtain ⟨s, hs, h⟩ := Option.map_eq_some_iff.1 hrun
  obtain ⟨hbt, hshell, hopen⟩ : _ ∧ _ ∧ _ := by simpa only [Prod.mk.injEq] using h
  have hreach := start_reachable.runBy hs
  have hidle : s.Idle := ⟨hbt, fun _ => hshell⟩
  exact ⟨s, hreach, hidle, hopen, coherent hreach hidle⟩

/-- A stop of the shell closes the gate of an open path and is suspended.  The sink is released,
configured and started again, and then the stop goes on. -/
def lateStop : List (Action Unit Unit) :=
  opens ++ [.shellStop (), .shell () (.ok 1), .shell () (.ok 1)] ++ whole (.release 0) 8 ++ opens ++
    List.replicate 9 (.shell () (.ok 1))

/-- The gate is open, with both admissions closed and the offload stopped. -/
theorem incoherent_of_lateStop :
    ∃ s, (machine Unit Unit).Reachable s ∧ s.Idle ∧ s.path.gate.isOpen = true ∧
      s.path.sink.accepting = false ∧ s.path.session.admission = false ∧
      s.path.offload.core.state = .stopped ∧ ¬ s.Coherent := by
  have hrun : ((machine Unit Unit).run (start true true) lateStop).map
      (fun s => (s.bt, s.shell (), s.path.gate.isOpen, s.path.sink.accepting,
        s.path.session.admission, s.path.offload.core.state)) =
      some (.idle, none, true, false, false, .stopped) := by decide +kernel
  obtain ⟨s, hs, h⟩ := Option.map_eq_some_iff.1 hrun
  obtain ⟨hbt, hshell, hopen, hacc, hadm, hstate⟩ : _ ∧ _ ∧ _ ∧ _ ∧ _ ∧ _ := by
    simpa only [Prod.mk.injEq] using h
  refine ⟨s, Machine.Reachable.run start_reachable hs, ⟨hbt, fun _ => hshell⟩, hopen, hacc, hadm,
    hstate, fun hcoh => ?_⟩
  exact hcoh.2.2 hopen hstate

end Sys

end AudioPath

end LeAudioReceiver
