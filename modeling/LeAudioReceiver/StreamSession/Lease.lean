import LeAudioReceiver.AudioPath.Basic
import LeAudioReceiver.Machine.Basic
import LeAudioReceiver.Threads.Basic

/-!
# The leases of the receive path

Any number of threads call `audio_stream_session_recv`, `rx_open`, `rx_close` and the functions
that reset the decoders, the trackers and the assembler (`src/audio_stream_session.c`).  A step is
one section under `session_mutex`.  An admitted receive decodes between two sections; a closer
that finds one sleeps on `session_drained`, and only a broadcast wakes it.

Beside the state stands whether some `rx_close` has returned without an `rx_open` since.

* `LeaseSys.good_step_iff` : the lease protocol is kept by a step **exactly if it is no return of
  an `rx_close` that finds the admission open again**;
* `LeaseSys.lease_protocol` : with no such return it holds in every state reached;
* `LeaseSys.exists_lease_of_asleep` : a closer sleeps only as long as some receive holds a lease;
* `LeaseSys.open_in_drain` : an `rx_open` lands while an `rx_close` waits.
-/

namespace LeAudioReceiver

namespace StreamSession

open AudioPath (Session)
open Threads

/-- Where a thread is. -/
inductive LeasePc where
  | idle
  /-- An admitted receive, which decodes without the lock. -/
  | lease
  /-- `rx_close`, at its wait for the leases. -/
  | drain
  deriving DecidableEq, Repr

/-- Counted by `in_flight`. -/
def LeasePc.holds : LeasePc → Bool
  | lease => true
  | _ => false

/-- The session, its threads, and whether it is shut. -/
structure LeaseSys (ι : Type*) where
  session : Session
  pc : ι → LeasePc
  /-- Asleep on `session_drained`. -/
  asleep : ι → Bool
  /-- An `rx_close` has returned, and no `rx_open` has come since. -/
  shut : Bool

/-- The functions that reset decoders, trackers or the assembler. -/
inductive Reset where
  | release (idx : ℕ)
  | resetAll
  | startClear
  deriving DecidableEq, Repr

/-- A thread enters a function, or goes on in the one it is in. -/
inductive LeaseAction (ι : Type*) where
  | callConfig (i : ι) (idx : ℕ)
  | callReset (i : ι) (r : Reset)
  | callRecv (i : ι) (idx : ℕ)
  | callOpen (i : ι)
  | callClose (i : ι)
  | run (i : ι)

namespace LeaseSys

variable {ι : Type*} [DecidableEq ι] (s : LeaseSys ι)

/-- Thread `i` continues at `pc`. -/
def goto (i : ι) (pc : LeasePc) : LeaseSys ι := { s with pc := Function.update s.pc i pc }

/-- `k_condvar_broadcast`. -/
def broadcast : LeaseSys ι := { s with asleep := fun _ => false }

/-- `k_condvar_wait`. -/
def sleep (i : ι) : LeaseSys ι := { s with asleep := Function.update s.asleep i true }

/-- The flags after a reset. -/
def reset : Reset → Session
  | .release idx => s.session.release idx
  | .resetAll => s.session.resetAll
  | .startClear => s.session

/-- The loop of `rx_close`: sleep while there are leases, else return. -/
def drain (i : ι) : LeaseSys ι :=
  if s.session.inFlight > 0 then (s.goto i .drain).sleep i
  else { s.goto i .idle with shut := true }

/-- The end of an admitted receive. -/
def leave (i : ι) : LeaseSys ι :=
  let s' := { s with session := s.session.leave }.goto i .idle
  if s'.session.inFlight = 0 then s'.broadcast else s'

/-- One step of the system. -/
def next : LeaseAction ι → Option (LeaseSys ι)
  | .callConfig i idx =>
    if s.pc i = .idle then some { s with session := s.session.config idx } else none
  | .callReset i r => if s.pc i = .idle then some { s with session := s.reset r } else none
  | .callRecv i idx =>
    if s.pc i = .idle then
      match s.session.acquire idx with
      -- rejected with an error
      | none => some s
      | some session => some ({ s with session := session }.goto i .lease)
    else none
  | .callOpen i =>
    if s.pc i = .idle then some { s with session := s.session.rxOpen, shut := false } else none
  | .callClose i =>
    if s.pc i = .idle then some ({ s with session := s.session.rxClose }.drain i) else none
  | .run i =>
    if s.asleep i then none
    else
      match s.pc i with
      | .idle => none
      | .lease => some (s.leave i)
      | .drain => some (s.drain i)

/-- After `audio_stream_session_init`, with all threads elsewhere. -/
def start : LeaseSys ι := ⟨Session.init, fun _ => .idle, fun _ => false, false⟩

/-- All runs. -/
def machine (ι : Type*) [DecidableEq ι] : Machine (LeaseSys ι) (LeaseAction ι) :=
  ⟨fun s => s = start, next⟩

/-- The step is no return of an `rx_close` that finds the admission open. -/
def Ok : LeaseAction ι → Prop
  | .run i => s.pc i = .drain → s.session.inFlight = 0 → s.session.admission = false
  | _ => True

instance : (a : LeaseAction ι) → Decidable (s.Ok a)
  | .run i =>
    inferInstanceAs
      (Decidable (s.pc i = .drain → s.session.inFlight = 0 → s.session.admission = false))
  | .callConfig .. | .callReset .. | .callRecv .. | .callOpen _ | .callClose _ =>
    inferInstanceAs (Decidable True)

/-! ### The steps -/

/-- The steps by what they do. -/
inductive Step (s : LeaseSys ι) : LeaseAction ι → LeaseSys ι → Prop
  | flags {a : LeaseAction ι} (session : Session) : s.Ok a →
      session.inFlight = s.session.inFlight → session.admission = s.session.admission →
      Step s a { s with session := session }
  | enter (i : ι) (idx : ℕ) : s.pc i = .idle → s.session.admission = true →
      Step s (.callRecv i idx)
        ({ s with session := { s.session with inFlight := s.session.inFlight + 1 } }.goto i .lease)
  | open (i : ι) : s.pc i = .idle →
      Step s (.callOpen i) { s with session := s.session.rxOpen, shut := false }
  | close (i : ι) : s.pc i = .idle →
      Step s (.callClose i) ({ s with session := s.session.rxClose }.drain i)
  | leave (i : ι) : s.pc i = .lease → Step s (.run i) (s.leave i)
  | drain (i : ι) : s.pc i = .drain → s.asleep i = false → Step s (.run i) (s.drain i)

variable {s} {s' : LeaseSys ι} {a : LeaseAction ι}

/-- Every step is one of them. -/
theorem step_of_next (h : s.next a = some s') : Step s a s' := by
  cases a with
  | callConfig i idx =>
    simp only [next] at h
    split_ifs at h
    exact Option.some.inj h ▸ .flags _ trivial rfl rfl
  | callReset i r =>
    simp only [next] at h
    split_ifs at h
    exact Option.some.inj h ▸ .flags _ trivial (by cases r <;> rfl) (by cases r <;> rfl)
  | callRecv i idx =>
    simp only [next, Session.acquire] at h
    split_ifs at h with hidle hadmit
    · exact Option.some.inj h ▸ .enter i idx hidle (Bool.and_eq_true _ _ ▸ hadmit).1
    · exact Option.some.inj h ▸ .flags s.session trivial rfl rfl
  | callOpen i =>
    simp only [next] at h
    split_ifs at h with hidle
    exact Option.some.inj h ▸ .open i hidle
  | callClose i =>
    simp only [next] at h
    split_ifs at h with hidle
    exact Option.some.inj h ▸ .close i hidle
  | run i =>
    simp only [next] at h
    split_ifs at h with hawake
    cases hpc : s.pc i with
    | idle => simp [hpc] at h
    | lease =>
      simp only [hpc] at h
      exact Option.some.inj h ▸ .leave i hpc
    | drain =>
      simp only [hpc] at h
      exact Option.some.inj h ▸ .drain i hpc (by simpa using hawake)

/-! ### The counter and the sleepers -/

variable [Fintype ι]

/-- `in_flight` counts the admitted receives, and every sleeper waits for one. -/
structure Counted (s : LeaseSys ι) : Prop where
  inFlight : s.session.inFlight = countAt LeasePc.holds s.pc
  asleep : ∀ i, s.asleep i = true → s.pc i = .drain ∧ 0 < s.session.inFlight

omit [DecidableEq ι] in
/-- The decrement at the end of a receive does not underflow. -/
theorem Counted.pos (h : s.Counted) {i : ι} (hi : s.pc i = .lease) : 0 < s.session.inFlight := by
  rw [h.inFlight]
  exact countAt_pos (i := i) (by rw [hi]; rfl)

theorem countAt_goto (i : ι) (pc : LeasePc) :
    countAt LeasePc.holds (Function.update s.pc i pc) + (s.pc i).holds.toNat =
      countAt LeasePc.holds s.pc + pc.holds.toNat :=
  countAt_update LeasePc.holds s.pc i pc

omit [Fintype ι] in
theorem asleep_goto (h : ∀ i, s.asleep i = true → s.pc i = .drain ∧ 0 < s.session.inFlight)
    {i : ι} (hi : s.asleep i = false) (pc : LeasePc) {n : ℕ} (hn : s.session.inFlight ≤ n) :
    ∀ j, s.asleep j = true → Function.update s.pc i pc j = .drain ∧ 0 < n := by
  intro j hj
  have hji : j ≠ i := by
    rintro rfl
    rw [hi] at hj
    cases hj
  rw [Function.update_of_ne hji]
  exact ⟨(h j hj).1, (h j hj).2.trans_le hn⟩

omit [DecidableEq ι] [Fintype ι] in
theorem awake_of_ne (h : ∀ i, s.asleep i = true → s.pc i = .drain ∧ 0 < s.session.inFlight)
    {i : ι} (hi : s.pc i ≠ .drain) : s.asleep i = false := by
  cases hasleep : s.asleep i with
  | false => rfl
  | true => exact absurd (h i hasleep).1 hi

theorem Counted.drain (h : s.Counted) {i : ι} (hi : s.asleep i = false)
    (hpc : (s.pc i).holds = false) : (s.drain i).Counted := by
  have hmove := fun pc => s.countAt_goto i pc
  have hin := h.inFlight
  simp only [hpc, Bool.toNat_false, Nat.add_zero] at hmove
  rw [LeaseSys.drain]
  split_ifs with hpos
  · refine ⟨hin.trans (hmove .drain).symm, fun j hj => ?_⟩
    by_cases hji : j = i
    · subst hji
      exact ⟨Function.update_self .., hpos⟩
    · have hj' : s.asleep j = true := by simpa [sleep, goto, hji] using hj
      exact asleep_goto h.asleep hi .drain le_rfl j hj'
  · exact ⟨hin.trans (hmove .idle).symm, asleep_goto h.asleep hi .idle le_rfl⟩

theorem Counted.leave (h : s.Counted) {i : ι} (hi : s.pc i = .lease) : (s.leave i).Counted := by
  have hcount : s.session.inFlight - 1 =
      countAt LeasePc.holds (Function.update s.pc i .idle) := by
    have hmove := s.countAt_goto i .idle
    have hpos := h.pos hi
    have hin := h.inFlight
    simp only [hi, LeasePc.holds, Bool.toNat_true, Bool.toNat_false] at hmove
    omega
  have hawake : s.asleep i = false := awake_of_ne h.asleep (by rw [hi]; exact LeasePc.noConfusion)
  simp only [LeaseSys.leave]
  split_ifs with hlast
  · exact ⟨hcount, fun j hj => by cases hj⟩
  · refine ⟨hcount, fun j hj => ?_⟩
    exact ⟨(asleep_goto h.asleep hawake .idle le_rfl j hj).1, Nat.pos_of_ne_zero hlast⟩

theorem Counted.step (h : s.Counted) (hstep : Step s a s') : s'.Counted := by
  cases hstep with
  | flags session _ hin _ => exact ⟨hin.trans h.inFlight, hin ▸ h.asleep⟩
  | enter i idx hidle _ =>
    have hmove := s.countAt_goto i .lease
    have hin := h.inFlight
    simp only [hidle, LeasePc.holds, Bool.toNat_true, Bool.toNat_false] at hmove
    have hawake := awake_of_ne h.asleep (i := i) (by rw [hidle]; exact LeasePc.noConfusion)
    exact ⟨by simp only [goto]; omega, asleep_goto h.asleep hawake .lease (Nat.le_succ _)⟩
  | «open» i _ => exact ⟨h.inFlight, h.asleep⟩
  | close i hidle =>
    have hawake := awake_of_ne h.asleep (i := i) (by rw [hidle]; exact LeasePc.noConfusion)
    have hclosed : Counted { s with session := s.session.rxClose } := ⟨h.inFlight, h.asleep⟩
    exact hclosed.drain hawake (by simp only [hidle, LeasePc.holds])
  | leave i hi => exact h.leave hi
  | drain i hi hawake => exact h.drain hawake (by rw [hi]; rfl)

omit [DecidableEq ι] in
theorem counted_start : (start : LeaseSys ι).Counted :=
  ⟨(countAt_eq_zero.2 fun _ => rfl).symm, fun _ h => by cases h⟩

theorem counted_of_reachable (h : (machine ι).Reachable s) : s.Counted := by
  refine Machine.Reachable.invariant h ?_ fun s a s' hs hnext => hs.step (step_of_next hnext)
  rintro _ rfl
  exact counted_start

/-- A closer sleeps only as long as some receive holds a lease. -/
theorem exists_lease_of_asleep (h : (machine ι).Reachable s) {i : ι} (hi : s.asleep i = true) :
    ∃ j, s.pc j = .lease := by
  have hcounted := counted_of_reachable h
  have hpos := (hcounted.asleep i hi).2
  rw [hcounted.inFlight] at hpos
  obtain ⟨j, hj⟩ := exists_of_countAt_pos hpos
  refine ⟨j, ?_⟩
  cases hpc : s.pc j with
  | lease => rfl
  | idle | drain =>
    rw [hpc] at hj
    cases hj

/-! ### The shut session -/

/-- The lease protocol. -/
structure Good (s : LeaseSys ι) : Prop where
  counted : s.Counted
  /-- While the session is shut, no receive is admitted. -/
  closed : s.shut = true → s.session.admission = false
  /-- While the session is shut, nothing is decoded. -/
  inFlight : s.shut = true → s.session.inFlight = 0

omit [DecidableEq ι] in
theorem Good.quiet (h : s.Good) (hshut : s.shut = true) (i : ι) : s.pc i ≠ .lease := by
  intro hi
  have hpos := h.counted.pos hi
  rw [h.inFlight hshut] at hpos
  exact absurd hpos (lt_irrefl 0)

omit [DecidableEq ι] in
theorem good_of_not_shut (h : s.Counted) (hshut : s.shut = false) : s.Good :=
  ⟨h, fun h' => absurd (hshut.symm.trans h') (by simp),
    fun h' => absurd (hshut.symm.trans h') (by simp)⟩

/-- What a pass of the loop of `rx_close` needs, exactly. -/
theorem good_drain_iff (h : s.Good) {i : ι} (hcounted : (s.drain i).Counted) :
    (s.drain i).Good ↔ (s.session.inFlight = 0 → s.session.admission = false) := by
  by_cases hpos : s.session.inFlight > 0
  · have hdrain : s.drain i = (s.goto i .drain).sleep i := if_pos hpos
    rw [hdrain] at hcounted ⊢
    exact iff_of_true ⟨hcounted, h.closed, h.inFlight⟩ fun h₀ => absurd h₀ hpos.ne'
  · have hdrain : s.drain i = { s.goto i .idle with shut := true } := if_neg hpos
    have h₀ : s.session.inFlight = 0 := by omega
    rw [hdrain] at hcounted ⊢
    constructor
    · intro hgood _
      exact hgood.closed rfl
    · intro hclosed
      exact ⟨hcounted, fun _ => hclosed h₀, fun _ => h₀⟩

/-- A step keeps the protocol exactly if it is no return of an `rx_close` that finds the admission
open. -/
theorem good_step_iff (h : s.Good) (hstep : Step s a s') : s'.Good ↔ s.Ok a := by
  have hcounted := h.counted.step hstep
  cases hstep with
  | flags session hok hin hadm =>
    exact iff_of_true ⟨hcounted, hadm ▸ h.closed, hin ▸ h.inFlight⟩ hok
  | enter i idx hidle hopen =>
    -- an admitted receive says that the session is not shut
    have hshut : s.shut = false := by
      cases hshut : s.shut with
      | false => rfl
      | true => exact absurd (h.closed hshut) (by rw [hopen]; simp)
    exact iff_of_true (good_of_not_shut hcounted hshut) trivial
  | «open» i hidle =>
    exact iff_of_true (good_of_not_shut hcounted rfl) trivial
  | close i hidle =>
    have hclosed : Good { s with session := s.session.rxClose } :=
      ⟨⟨h.counted.inFlight, h.counted.asleep⟩, fun _ => rfl, h.inFlight⟩
    exact iff_of_true ((good_drain_iff hclosed hcounted).2 fun _ => rfl) trivial
  | leave i hi =>
    have hshut : s.shut = false := by
      cases hshut : s.shut with
      | false => rfl
      | true => exact absurd hi (h.quiet hshut i)
    have hshut' : (s.leave i).shut = false := by
      simp only [LeaseSys.leave]
      split_ifs <;> exact hshut
    refine iff_of_true (good_of_not_shut hcounted hshut') fun h' => ?_
    exact absurd (hi.symm.trans h') LeasePc.noConfusion
  | drain i hi hawake =>
    rw [good_drain_iff h hcounted]
    exact ⟨fun h' _ => h', fun h' => h' hi⟩

/-- **The lease protocol.**  In every run in which no `rx_close` returns with the admission open
again, `in_flight` counts the admitted receives, and from the return of an `rx_close` to the next
`rx_open` none is admitted and none is in progress. -/
theorem lease_protocol (h : (machine ι).ReachableBy Ok s) :
    s.session.inFlight = countAt LeasePc.holds s.pc ∧
      (∀ i, s.pc i = .lease → 0 < s.session.inFlight) ∧
      (s.shut = true → s.session.admission = false ∧ s.session.inFlight = 0 ∧
        ∀ i, s.pc i ≠ .lease) := by
  have hgood : s.Good := by
    refine Machine.ReachableBy.invariant h ?_ fun s a s' hs hok hnext => ?_
    · rintro _ rfl
      exact good_of_not_shut counted_start rfl
    · exact (good_step_iff hs (step_of_next hnext)).2 hok
  exact ⟨hgood.counted.inFlight, fun i hi => hgood.counted.pos hi,
    fun hshut => ⟨hgood.closed hshut, hgood.inFlight hshut, hgood.quiet hshut⟩⟩

/-- A closer sleeps, the receive ends, and the closer returns. -/
theorem lease_protocol_drained :
    ∃ s : LeaseSys (Fin 2), s.shut = true ∧ s.session.inFlight = countAt LeasePc.holds s.pc := by
  have hrun : ((machine (Fin 2)).runBy Ok start
      [.callConfig 1 0, .callOpen 1, .callRecv 1 0, .callClose 0, .run 1, .run 0]).any
      LeaseSys.shut = true := by
    decide
  obtain ⟨s, hs, hshut⟩ := Option.any_eq_true _ _ |>.1 hrun
  exact ⟨s, hshut, (lease_protocol ((Machine.ReachableBy.init rfl).runBy hs)).1⟩

/-- An `rx_open` lands while an `rx_close` waits: the session is shut, and a receive is admitted. -/
theorem open_in_drain :
    ((machine (Fin 2)).run start [.callConfig 1 0, .callOpen 1, .callRecv 1 0, .callClose 0,
      .run 1, .callOpen 1, .run 0, .callRecv 1 0]).any
      (fun s => s.shut && s.pc 1 == .lease) = true := by
  decide

end LeaseSys

end StreamSession

end LeAudioReceiver
