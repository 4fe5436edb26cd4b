import LeAudioReceiver.Offload.Policy

/-!
# Epochs of the offload and of the rings

The lifecycle of the offload beside the ring manager of `src/flpr_ring_mgr.c`.  The handlers of the
work queue take an epoch from the cycle counter and hand it to a coordinated reset, which publishes
it in `ring_stream_epoch` and in both ring headers; they commit it to `g_stream_epoch` later, under
another lock.  An operation of the ring manager is one step here: the module is not ACTIVE while
one runs.

The check against epoch `0` stands before the mask, so the counter value `0x80000000` becomes
epoch `0`, which the ring manager replaces by another one.

* `RingSys.epochs_agree` : in every run in which the handlers do not read that value, the epochs
  agree whenever the module is ACTIVE and nobody else has reset the rings.
-/

namespace LeAudioReceiver

namespace Offload

namespace Lifecycle

/-! ### The ring manager -/

/-- `rings_initialized`, `ring_stream_epoch` and the epochs in the two ring headers. -/
structure Rings where
  initialized : Bool
  streamEpoch : UInt32
  inEpoch : UInt32
  outEpoch : UInt32
  deriving DecidableEq

/-- What comes of a `RING_RESET`. -/
inductive Peer where
  /-- No token is left, or the request cannot be sent. -/
  | unsent
  /-- No acknowledgement of this epoch in time; the other core may have reset the headers. -/
  | silent (applied : Bool)
  | acked
  deriving DecidableEq, Repr

namespace Rings

variable (g : Rings)

/-- `flpr_ring_init` on both rings. -/
def initHeaders : Rings := { g with inEpoch := 0, outEpoch := 0 }

/-- `flpr_ring_mgr_init`. -/
def init (ready : Bool) : Rings × Bool :=
  if !ready then (g, false)
  else if g.initialized then (g, true)
  else ({ g.initHeaders with initialized := true, streamEpoch := 0 }, true)

/-- `flpr_ring_mgr_remote_restarted`. -/
def remoteRestarted : Rings := { g.initHeaders with streamEpoch := 0 }

/-- `flpr_ring_mgr_reset_locked`. -/
def resetLocked (newEpoch : UInt32) : Rings × Bool :=
  if newEpoch = 0 then (g, false)
  else ({ g with streamEpoch := newEpoch, inEpoch := newEpoch, outEpoch := newEpoch }, true)

/-- `flpr_ring_mgr_coordinated_reset`; it reads `cycles` from the counter if it has to. -/
def coordinatedReset (newEpoch : UInt32) (ready : Bool) (cycles : UInt32) (peer : Peer) :
    Rings × Bool :=
  if !ready then (g, false)
  else
    let epoch := if newEpoch = 0 then cycles else newEpoch
    if epoch = 0 then (g, false)
    else
      match peer with
      | .unsent => (g, false)
      | .silent applied =>
        (if applied then { g with inEpoch := epoch, outEpoch := epoch } else g, false)
      | .acked => g.resetLocked epoch

/-- The manager and both headers have the epoch. -/
def Agree (epoch : UInt32) : Prop :=
  epoch ≠ 0 ∧ g.streamEpoch = epoch ∧ g.inEpoch = epoch ∧ g.outEpoch = epoch

variable {g}

theorem agree_coordinatedReset {epoch cycles : UInt32} {ready : Bool} {peer : Peer}
    (hepoch : epoch ≠ 0) (h : (g.coordinatedReset epoch ready cycles peer).2 = true) :
    (g.coordinatedReset epoch ready cycles peer).1.Agree epoch := by
  unfold coordinatedReset at h ⊢
  simp only [hepoch, if_false] at h ⊢
  split_ifs at h ⊢
  cases peer with
  | unsent => exact Bool.noConfusion h
  | silent applied => exact Bool.noConfusion h
  | acked =>
    simp only [resetLocked, hepoch, if_false]
    exact ⟨hepoch, rfl, rfl, rfl⟩

end Rings

theorem Core.epochOf_ne_zero {cycles : UInt32} (h : cycles ≠ 0x80000000) : epochOf cycles ≠ 0 := by
  unfold epochOf
  split_ifs with hzero
  · decide
  · intro hmask
    have hnat : cycles.toNat % 2 ^ 31 = 0 := by
      have := congrArg UInt32.toNat hmask
      rwa [UInt32.toNat_and, show (0x7FFFFFFF : UInt32).toNat = 2 ^ 31 - 1 from rfl,
        Nat.and_two_pow_sub_one_eq_mod] at this
    have hlt := cycles.toNat_lt
    have hne : cycles.toNat ≠ 0 := fun h₀ => hzero (UInt32.toNat_inj.1 h₀)
    have hne' : cycles.toNat ≠ 2 ^ 31 := fun h₀ => h (UInt32.toNat_inj.1 h₀)
    omega

/-! ### Ring operations of the work queue -/

namespace Worker

/-- The next step is a coordinated reset. -/
def resets : Worker → Bool
  | .prep (.reset _) | .recovery (.shortReset _) | .recovery (.reset _) => true
  | _ => false

/-- The next step is a call of the ring manager or a restart of the other core. -/
def atRing : Worker → Bool
  | .prep (.rings _) | .prep (.reset _) | .recovery (.shortReset _) | .recovery (.restart _)
  | .recovery (.rings _) | .recovery (.reset _) | .idleRestart .restart => true
  | _ => false

/-- The handler has passed the check of the state at its entry, and has not ended. -/
def busy : Worker → Bool
  | .prep .entry | .prep .finish | .recovery .entry | .recovery .finish => false
  | .prep _ | .recovery _ | .idleRestart .restart | .idleRestart (.done _) => true
  | .idle | .idleRestart _ => false

/-- The epoch that the handler is about to commit. -/
def commits : Worker → Option UInt32
  | .prep (.commit _ epoch) | .recovery (.commit _ epoch) => some epoch
  | _ => none

end Worker

/-- What the surroundings contribute to a ring operation. -/
structure RingInput where
  /-- `check_flpr_healthy`. -/
  healthy : Bool
  /-- The handshake is ready and acknowledged. -/
  ready : Bool
  /-- The counter, as read for the epoch. -/
  cycles : UInt32
  /-- The counter, as read inside of `flpr_ring_mgr_coordinated_reset`. -/
  cycles' : UInt32
  peer : Peer
  /-- `flpr_runtime_restart` succeeds. -/
  restarted : Bool
  /-- The other core was started and has initialised the headers. -/
  booted : Bool
  deriving DecidableEq

/-- The coordinated reset of a handler: the rings after it, and its result. -/
def RingInput.reset (x : RingInput) (g : Rings) : Rings × Result :=
  let t := g.coordinatedReset (Core.epochOf x.cycles) x.ready x.cycles' x.peer
  (t.1, if t.2 then .ok x.cycles else .fail)

/-- The restart of the other core. -/
def RingInput.restart (x : RingInput) (g : Rings) : Rings :=
  if x.booted then g.initHeaders else g

/-- The operation of a handler: the rings after it, and its result. -/
def ringOp (c : Core) (x : RingInput) (g : Rings) : Worker → Option (Rings × Result)
  | .prep (.rings _) =>
    if c.ringsReady then some (g, .ok 0)
    else
      let t := g.init x.ready
      some (t.1, if t.2 then .ok 0 else .fail)
  | .prep (.reset _) | .recovery (.reset _) => some (x.reset g)
  | .recovery (.shortReset _) => some (if x.healthy then x.reset g else (g, .fail))
  | .recovery (.restart _) => some (x.restart g, if x.restarted then .ok 0 else .fail)
  | .recovery (.rings _) => some (g.remoteRestarted, .ok 0)
  | .idleRestart .restart =>
    if x.restarted then some ((x.restart g).remoteRestarted, .ok 0) else some (x.restart g, .fail)
  | _ => none

/-! ### The machine -/

/-- The module and the rings. -/
structure RingSys (ι : Type*) where
  sys : Sys ι
  rings : Rings
  /-- Somebody else has reset the rings since the latest successful reset by a handler. -/
  other : Bool

/-- What can happen next. -/
inductive RingAction (ι : Type*) where
  /-- A step of the module that is no ring operation. -/
  | step (a : Action ι)
  /-- A ring operation of a handler. -/
  | ring (x : RingInput)
  /-- A reset by somebody else. -/
  | otherReset (g : Rings)

/-- A step of the work queue's thread. -/
def Action.isWorker {ι : Type*} : Action ι → Bool
  | .worker _ => true
  | _ => false

namespace RingSys

variable {ι : Type*} [DecidableEq ι]

/-- One step. -/
def next (s : RingSys ι) : RingAction ι → Option (RingSys ι)
  | .step a =>
    if a.isWorker && s.sys.worker.atRing then none
    else (s.sys.next a).map fun t => { s with sys := t }
  | .ring x =>
    (ringOp s.sys.core x s.rings s.sys.worker).bind fun p =>
      (s.sys.next (.worker p.2)).map fun t =>
        { sys := t
          rings := p.1
          other := s.other && !(s.sys.worker.resets && p.2.accepted) }
  | .otherReset g => some { s with rings := g, other := true }

/-- The module after its initialisation. -/
def start (initialized : Bool) : RingSys ι where
  sys := Sys.start initialized
  rings := ⟨initialized, 0, 0, 0⟩
  other := false

/-- The machine. -/
def machine (ι : Type*) [DecidableEq ι] : Machine (RingSys ι) (RingAction ι) where
  init s := ∃ initialized, s = start initialized
  next := next

/-- The counter does not read `0x80000000` where a handler takes an epoch from it. -/
def NoTopBit (s : RingSys ι) : RingAction ι → Prop
  | .ring x => s.sys.worker.resets = true → x.cycles ≠ 0x80000000
  | _ => True

instance : (s : RingSys ι) → (a : RingAction ι) → Decidable (s.NoTopBit a)
  | s, .ring x =>
    inferInstanceAs (Decidable (s.sys.worker.resets = true → x.cycles ≠ 0x80000000))
  | _, .step _ => inferInstanceAs (Decidable True)
  | _, .otherReset _ => inferInstanceAs (Decidable True)

end RingSys

/-! ### One step -/

/-- ACTIVE is entered with the committed epoch, or kept with the epoch it had. -/
theorem Policy.next_active {p p' : Policy} {e : Event} (hnext : p.next e = some p')
    (h : p'.state = .active) :
    e = .prepared p'.streamEpoch ∨ e = .recovered p'.streamEpoch ∨
      p.state = .active ∧ p'.streamEpoch = p.streamEpoch := by
  cases e with
  | quiet | attempt =>
    obtain rfl := Option.some.inj hnext
    exact .inr (.inr ⟨h, rfl⟩)
  | start | stop =>
    obtain rfl := Option.some.inj hnext
    cases h
  | prepared epoch =>
    simp only [next] at hnext
    split_ifs at hnext
    obtain rfl := Option.some.inj hnext
    exact .inl rfl
  | recovered epoch =>
    simp only [next] at hnext
    split_ifs at hnext
    obtain rfl := Option.some.inj hnext
    exact .inr (.inl rfl)
  | success =>
    simp only [next] at hnext
    split_ifs at hnext with hguard <;> obtain rfl := Option.some.inj hnext <;>
      exact .inr (.inr ⟨hguard.1, rfl⟩)
  | cleared =>
    simp only [next] at hnext
    split_ifs at hnext with hguard
    obtain rfl := Option.some.inj hnext
    exact .inr (.inr ⟨hguard.1, rfl⟩)
  | cycle | prepFailed | cycleFailed =>
    simp only [next] at hnext
    split_ifs at hnext
    obtain rfl := Option.some.inj hnext
    exact .inr (.inr ⟨h, rfl⟩)
  | unhealthy | fault | prepExhausted | exhausted =>
    simp only [next] at hnext
    split_ifs at hnext <;> obtain rfl := Option.some.inj hnext <;> cases h

namespace Core

variable {c : Core} {r : Result} {w : Worker} {x : Core × Worker}

theorem work_busy (hx : c.work r w = some x) (hw : w.busy = true → c.state ≠ .active)
    (hbusy : x.2.busy = true) : x.1.state ≠ .active := by
  -- a handler that goes on has checked the state at its entry, and no section of it enters ACTIVE
  -- before the commit
  cases w with
  | idle => cases hx
  | prep pc =>
    cases pc with
    | entry =>
      obtain rfl := Option.some.inj hx
      simp only [prepWork] at hbusy ⊢
      split_ifs at hbusy ⊢ with hstate
      · exact Bool.noConfusion hbusy
      · exact Bool.noConfusion hbusy
      · rw [not_not.1 hstate]
        exact State.noConfusion
    | rings g =>
      obtain rfl := Option.some.inj hx
      simp only [prepWork]
      split_ifs
      · exact hw rfl
      · cases r <;> exact hw rfl
    | reset g => cases r <;> obtain rfl := Option.some.inj hx <;> exact hw rfl
    | commit g epoch =>
      obtain rfl := Option.some.inj hx
      simp only [prepWork] at hbusy
      split_ifs at hbusy <;> exact Bool.noConfusion hbusy
    | retry g =>
      obtain rfl := Option.some.inj hx
      simp only [prepWork]
      split_ifs <;> exact hw rfl
    | schedule | finish =>
      obtain rfl := Option.some.inj hx
      exact Bool.noConfusion hbusy
  | recovery pc =>
    cases pc with
    | entry =>
      obtain rfl := Option.some.inj hx
      simp only [recoveryWork] at hbusy ⊢
      split_ifs at hbusy ⊢ with hstate
      · exact Bool.noConfusion hbusy
      · exact Bool.noConfusion hbusy
      · show c.state ≠ .active
        rw [not_not.1 hstate]
        exact State.noConfusion
    | shortReset | restart | rings | reset =>
      cases r <;> obtain rfl := Option.some.inj hx <;> exact hw rfl
    | verify g =>
      obtain rfl := Option.some.inj hx
      simp only [recoveryWork]
      split_ifs <;> exact hw rfl
    | restartFailed g | retry g =>
      obtain rfl := Option.some.inj hx
      simp only [recoveryWork, recoveryAgain]
      split_ifs <;> exact hw rfl
    | commit g epoch =>
      obtain rfl := Option.some.inj hx
      simp only [recoveryWork] at hbusy
      split_ifs at hbusy <;> exact Bool.noConfusion hbusy
    | schedule | finish =>
      obtain rfl := Option.some.inj hx
      exact Bool.noConfusion hbusy
  | idleRestart pc =>
    cases pc with
    | entry =>
      obtain ⟨x', hx', rfl⟩ := Option.map_eq_some_iff.1 hx
      simp only [idleRestartWork] at hx'
      split_ifs at hx' with _ hstate <;> obtain rfl := Option.some.inj hx'
      · show c.state ≠ .active
        rw [hstate]
        exact State.noConfusion
      · exact Bool.noConfusion hbusy
    | restart => cases r <;> obtain rfl := Option.some.inj hx <;> exact hw rfl
    | health pc =>
      obtain rfl := Option.some.inj hx
      simp only at hbusy
      split at hbusy <;> exact Bool.noConfusion hbusy
    | done | clear | finish =>
      obtain rfl := Option.some.inj hx
      exact Bool.noConfusion hbusy

theorem work_commits (hx : c.work r w = some x) {epoch : UInt32}
    (h : x.2.commits = some epoch) :
    w.resets = true ∧ ∃ cycles, r = .ok cycles ∧ epoch = epochOf cycles := by
  -- only a successful reset of the rings goes on to a commit
  cases w with
  | idle => cases hx
  | prep pc =>
    cases pc with
    | reset g =>
      cases r with
      | ok cycles =>
        obtain rfl := Option.some.inj hx
        exact ⟨rfl, cycles, rfl, (Option.some.inj h).symm⟩
      | fail =>
        obtain rfl := Option.some.inj hx
        cases h
    | rings g =>
      obtain rfl := Option.some.inj hx
      simp only [prepWork] at h
      split_ifs at h
      · cases h
      · cases r <;> cases h
    | entry | commit | retry =>
      obtain rfl := Option.some.inj hx
      simp only [prepWork] at h
      split_ifs at h <;> cases h
    | schedule | finish =>
      obtain rfl := Option.some.inj hx
      cases h
  | recovery pc =>
    cases pc with
    | shortReset g | reset g =>
      cases r with
      | ok cycles =>
        obtain rfl := Option.some.inj hx
        exact ⟨rfl, cycles, rfl, (Option.some.inj h).symm⟩
      | fail =>
        obtain rfl := Option.some.inj hx
        cases h
    | restart | rings => cases r <;> obtain rfl := Option.some.inj hx <;> cases h
    | restartFailed | retry =>
      obtain rfl := Option.some.inj hx
      simp only [recoveryWork, recoveryAgain] at h
      split_ifs at h <;> cases h
    | entry | verify | commit =>
      obtain rfl := Option.some.inj hx
      simp only [recoveryWork] at h
      split_ifs at h <;> cases h
    | schedule | finish =>
      obtain rfl := Option.some.inj hx
      cases h
  | idleRestart pc =>
    by_cases hpc : pc = .finish
    · subst hpc
      obtain rfl := Option.some.inj hx
      cases h
    · rw [work_idleRestart hpc] at hx
      obtain ⟨x', -, rfl⟩ := Option.map_eq_some_iff.1 hx
      cases h

end Core

theorem ringOp_busy {c : Core} {x : RingInput} {g : Rings} {w : Worker} {p : Rings × Result}
    (h : ringOp c x g w = some p) : w.busy = true ∧ w.commits = none := by
  cases w with
  | idle => cases h
  | prep pc => cases pc <;> first | exact ⟨rfl, rfl⟩ | cases h
  | recovery pc => cases pc <;> first | exact ⟨rfl, rfl⟩ | cases h
  | idleRestart pc => cases pc <;> first | exact ⟨rfl, rfl⟩ | cases h

/-- A successful reset of a handler leaves the rings with the epoch that the handler commits. -/
theorem ringOp_agree {c : Core} {x : RingInput} {g : Rings} {w : Worker} {p : Rings × Result}
    {cycles : UInt32} (h : ringOp c x g w = some p) (hw : w.resets = true)
    (hx : x.cycles ≠ 0x80000000) (hp : p.2 = .ok cycles) : p.1.Agree (Core.epochOf cycles) := by
  have hreset : (x.reset g).2 = .ok cycles → (x.reset g).1.Agree (Core.epochOf cycles) := by
    intro hok
    simp only [RingInput.reset] at hok ⊢
    split_ifs at hok with hsuccess
    obtain rfl : x.cycles = cycles := by simpa using hok
    exact Rings.agree_coordinatedReset (Core.epochOf_ne_zero hx) hsuccess
  cases w with
  | prep pc =>
    cases pc with
    | reset _ =>
      obtain rfl := Option.some.inj h
      exact hreset hp
    | _ => exact Bool.noConfusion hw
  | recovery pc =>
    cases pc with
    | reset _ =>
      obtain rfl := Option.some.inj h
      exact hreset hp
    | shortReset _ =>
      obtain rfl := Option.some.inj h
      split_ifs at hp ⊢
      exact hreset hp
    | _ => exact Bool.noConfusion hw
  | idle | idleRestart => exact Bool.noConfusion hw

/-! ### Whole runs -/

namespace RingSys

variable {ι : Type*} [DecidableEq ι] {s s' : RingSys ι} {a : RingAction ι}

theorem sys_reachable {ok : RingSys ι → RingAction ι → Prop} (h : (machine ι).ReachableBy ok s) :
    (Sys.machine ι).Reachable s.sys := by
  induction h with
  | init h₀ =>
    obtain ⟨initialized, rfl⟩ := h₀
    exact .init ⟨initialized, rfl⟩
  | @step s s' a _ _ hnext ih =>
    cases a with
    | step a =>
      simp only [machine, next] at hnext
      split_ifs at hnext
      obtain ⟨t, ht, rfl⟩ := Option.map_eq_some_iff.1 hnext
      exact .step ih trivial ht
    | ring x =>
      obtain ⟨p, -, hp⟩ := Option.bind_eq_some_iff.1 hnext
      obtain ⟨t, ht, rfl⟩ := Option.map_eq_some_iff.1 hp
      exact .step (a := .worker p.2) ih trivial ht
    | otherReset g =>
      obtain rfl := Option.some.inj hnext
      exact ih

/-- The invariant. -/
structure Inv (s : RingSys ι) : Prop where
  busy : s.sys.worker.busy = true → s.sys.core.state ≠ .active
  commit : ∀ epoch, s.sys.worker.commits = some epoch → s.other = false → s.rings.Agree epoch
  active : s.sys.core.state = .active → s.other = false → s.rings.Agree s.sys.core.streamEpoch

/-- What a step of the module does: a handler past its entry keeps out of ACTIVE, and ACTIVE is
entered with the epoch of the commit. -/
theorem next_sys {t t' : Sys ι} {a : Action ι} (hcaptured : t.CapturedActive)
    (hbusy : t.worker.busy = true → t.core.state ≠ .active) (hnext : t.next a = some t') :
    (t'.worker.busy = true → t'.core.state ≠ .active) ∧
    (t'.core.state = .active →
      t.worker.commits = some t'.core.streamEpoch ∨
        t.core.state = .active ∧ t'.core.streamEpoch = t.core.streamEpoch) := by
  have hactive := fun h => Policy.next_active (Sys.next_refines hcaptured hnext) h
  have hcause := Sys.causes_event t a
  refine ⟨fun hbusy' hstate => ?_, fun hstate => ?_⟩
  · obtain ⟨i, api, rfl, -, rfl⟩ | ⟨i, r, call, x, rfl, -, -, rfl⟩ | ⟨rfl, -, rfl⟩ |
      ⟨rfl, -, rfl⟩ | ⟨rfl, -, rfl⟩ | ⟨r, x, rfl, hx, rfl⟩ := Sys.next_cases hnext
    · exact hbusy hbusy' hstate
    · -- the caller cannot make the module ACTIVE
      rcases hactive hstate with he | he | ⟨hstate₀, -⟩
      · rw [he] at hcause
        obtain ⟨_, _, h, -⟩ := hcause
        cases h
      · rw [he] at hcause
        obtain ⟨_, _, h, -⟩ := hcause
        cases h
      · exact hbusy hbusy' hstate₀
    · exact Bool.noConfusion hbusy'
    · exact Bool.noConfusion hbusy'
    · exact Bool.noConfusion hbusy'
    · exact Core.work_busy hx hbusy hbusy' hstate
  · rcases hactive hstate with he | he | hsame
    · rw [he] at hcause
      obtain ⟨r, g, -, hw⟩ := hcause
      rw [hw]
      exact .inl rfl
    · rw [he] at hcause
      obtain ⟨r, g, -, hw⟩ := hcause
      rw [hw]
      exact .inl rfl
    · exact .inr hsame

theorem next_commits {t t' : Sys ι} {a : Action ι}
    (hring : (a.isWorker && t.worker.atRing) = false) (hnext : t.next a = some t') {epoch : UInt32}
    (h : t'.worker.commits = some epoch) : t.worker.commits = some epoch := by
  obtain ⟨i, api, rfl, -, rfl⟩ | ⟨i, r, call, x, rfl, -, -, rfl⟩ | ⟨rfl, -, rfl⟩ |
    ⟨rfl, -, rfl⟩ | ⟨rfl, -, rfl⟩ | ⟨r, x, rfl, hx, rfl⟩ := Sys.next_cases hnext
  · exact h
  · exact h
  · cases h
  · cases h
  · cases h
  · have hresets := (Core.work_commits hx h).1
    have hat : t.worker.atRing = true := by
      cases hw : t.worker with
      | prep pc =>
        rw [hw] at hresets
        cases pc <;> first | rfl | exact Bool.noConfusion hresets
      | recovery pc =>
        rw [hw] at hresets
        cases pc <;> first | rfl | exact Bool.noConfusion hresets
      | _ =>
        rw [hw] at hresets
        exact Bool.noConfusion hresets
    rw [hat] at hring
    exact Bool.noConfusion hring

theorem Inv.next (h : s.Inv) (hcaptured : s.sys.CapturedActive) (hok : s.NoTopBit a)
    (hnext : s.next a = some s') : s'.Inv := by
  cases a with
  | step a =>
    simp only [RingSys.next] at hnext
    split_ifs at hnext with hring
    obtain ⟨t, ht, rfl⟩ := Option.map_eq_some_iff.1 hnext
    obtain ⟨hbusy, hactive⟩ := next_sys hcaptured h.busy ht
    refine ⟨hbusy, fun epoch hcommit => ?_, fun hstate hother => ?_⟩
    · exact h.commit epoch (next_commits (by simpa using hring) ht hcommit)
    · rcases hactive hstate with hcommit | ⟨hstate₀, hepoch⟩
      · exact h.commit _ hcommit hother
      · rw [hepoch]
        exact h.active hstate₀ hother
  | ring x =>
    obtain ⟨p, hp, hp'⟩ := Option.bind_eq_some_iff.1 hnext
    obtain ⟨t, ht, rfl⟩ := Option.map_eq_some_iff.1 hp'
    obtain ⟨hbusy, hactive⟩ := next_sys hcaptured h.busy ht
    obtain ⟨hop, hnone⟩ := ringOp_busy hp
    obtain ⟨y, hy, hty⟩ := Option.map_eq_some_iff.1 ht
    refine ⟨hbusy, fun epoch hcommit _ => ?_, fun hstate _ => ?_⟩
    · rw [← hty] at hcommit
      obtain ⟨hresets, cycles, hr, rfl⟩ := Core.work_commits hy hcommit
      exact ringOp_agree hp hresets (hok hresets) hr
    · -- a ring operation does not make the module ACTIVE
      rcases hactive hstate with hcommit | ⟨hstate₀, -⟩
      · rw [hnone] at hcommit
        cases hcommit
      · exact absurd hstate₀ (h.busy hop)
  | otherReset g =>
    obtain rfl := Option.some.inj hnext
    exact ⟨h.busy, fun _ _ hother => Bool.noConfusion hother,
      fun _ hother => Bool.noConfusion hother⟩

theorem inv_of_reachable (h : (machine ι).ReachableBy (fun s a => s.NoTopBit a) s) : s.Inv := by
  induction h with
  | init h₀ =>
    obtain ⟨initialized, rfl⟩ := h₀
    exact ⟨fun h => Bool.noConfusion h, fun _ h => (nomatch h), fun h => State.noConfusion h⟩
  | step hs hok hnext ih => exact ih.next (Sys.capturedActive (sys_reachable hs)) hok hnext

/-- In every run in which the cycle counter does not read `0x80000000` where a handler takes an
epoch from it: if the module is ACTIVE and nobody else has reset the rings, then its epoch is not
zero and is the epoch of the ring manager and of both rings. -/
theorem epochs_agree (h : (machine ι).ReachableBy (fun s a => s.NoTopBit a) s)
    (hstate : s.sys.core.state = .active) (hother : s.other = false) :
    s.sys.core.streamEpoch ≠ 0 ∧ s.rings.streamEpoch = s.sys.core.streamEpoch ∧
      s.rings.inEpoch = s.sys.core.streamEpoch ∧ s.rings.outEpoch = s.sys.core.streamEpoch := by
  have hinv := inv_of_reachable h
  exact hinv.active hstate hother

/-- A ring operation for which the other core answers. -/
def answered (cycles cycles' : UInt32) : RingAction ι :=
  .ring ⟨true, true, cycles, cycles', .acked, true, true⟩

/-- Thread `i` starts a stream, and the preparation reads the counter. -/
def preparedAt (i : ι) (cycles cycles' : UInt32) : List (RingAction ι) :=
  (Sys.callSteps i .streamStart 4).map .step ++
    [.step .takePrep, .step (.worker .fail), answered cycles cycles', answered cycles cycles',
      .step (.worker .fail), .step (.worker .fail)]

/-- Thread `i` finds the other core unhealthy, and the recovery reads the counter. -/
def recoveredAt (i : ι) (cycles cycles' : UInt32) : List (RingAction ι) :=
  (Sys.callSteps i .healthTransition 2).map .step ++
    [.step .takeRecovery, .step (.worker .fail), answered cycles cycles', .step (.worker .fail)]

/-- A stream that is prepared at the counter value `0` and recovered at `0x80000007`. -/
theorem epochs_agree_recovered : ∃ s : RingSys (Fin 2), s.sys.core.streamEpoch = 7 ∧
    s.rings.streamEpoch = s.sys.core.streamEpoch ∧ s.rings.inEpoch = s.sys.core.streamEpoch ∧
    s.rings.outEpoch = s.sys.core.streamEpoch := by
  have hrun : ((machine (Fin 2)).runBy (fun s a => s.NoTopBit a) (start true)
      (preparedAt 0 0 5 ++ recoveredAt 1 0x80000007 5)).map
      (fun s => (s.sys.core.state, s.other, s.sys.core.streamEpoch)) =
        some (.active, false, 7) := by decide +kernel
  obtain ⟨s, hs, hs'⟩ := Option.map_eq_some_iff.1 hrun
  simp only [Prod.mk.injEq] at hs'
  obtain ⟨hstate, hother, hepoch⟩ := hs'
  have hagree := epochs_agree (Machine.ReachableBy.runBy (.init ⟨true, rfl⟩) hs) hstate hother
  exact ⟨s, hepoch, hagree.2⟩

/-- The preparation reads `0x80000000` and the ring manager, asked for epoch `0`, reads
`0x80000005`: the module is ACTIVE with epoch `0`, and the rings have another one. -/
theorem epochs_differ : ∃ s : RingSys (Fin 2), (machine (Fin 2)).Reachable s ∧
    s.sys.core.state = .active ∧ s.other = false ∧ s.sys.core.streamEpoch = 0 ∧
    s.rings.streamEpoch ≠ s.sys.core.streamEpoch := by
  have hrun : ((machine (Fin 2)).run (start true) (preparedAt 0 0x80000000 0x80000005)).map
      (fun s => (s.sys.core.state, s.other, s.sys.core.streamEpoch, s.rings.streamEpoch)) =
        some (.active, false, 0, 0x80000005) := by decide +kernel
  obtain ⟨s, hs, hs'⟩ := Option.map_eq_some_iff.1 hrun
  simp only [Prod.mk.injEq] at hs'
  obtain ⟨hstate, hother, hepoch, hring⟩ := hs'
  refine ⟨s, Machine.Reachable.run (.init ⟨true, rfl⟩) hs, hstate, hother, hepoch, ?_⟩
  rw [hepoch, hring]
  decide

end RingSys

end Lifecycle

end Offload

end LeAudioReceiver
