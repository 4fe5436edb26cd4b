import LeAudioReceiver.Stress.Basic
import Mathlib.Algebra.Order.Ring.Nat

/-!
# The accounts of a stress run

* `Settled` : between two iterations every ping is counted once, and no give is outstanding;
* `Under` : within an iteration the gives and the semaphore are the pongs counted for its cookie;
* `Sys.accounts_of_orderly` : **in every orderly run one call at most is past its guard, and the
  accounts of a finished run add up**, where a step is orderly if it activates no second run, counts
  no pong for a ping that is not open, and fails or times out no ping that was counted;
* `Sys.accounts_broken` : two calls can pass the guard, and a ping can be counted twice.
-/

namespace LeAudioReceiver

namespace Stress

/-! ### Iterations -/

/-- Behind `i` iterations: each ping is counted once, and nothing is outstanding. -/
structure Settled (s : Shared) (i : ℕ) : Prop where
  giving : s.giving = 0
  sem : s.sem = 0
  total : s.sent + s.errSend = i
  split : s.recv + s.timeouts = s.sent
  length : s.ledger.sent.length = s.sent
  once : ∀ c ∈ s.ledger.sent, s.ledger.received c + s.ledger.timedOut c = 1
  nodup : s.ledger.sent.Nodup
  le : ∀ c ∈ s.ledger.sent, c ≤ s.cookie
  fresh : ∀ c, s.cookie < c → s.ledger.received c = 0 ∧ s.ledger.timedOut c = 0
  cookie : s.cookie ≤ 2 * i

/-- In iteration `i`, whose ping has the cookie `c`; `k` is `1` once it is counted as sent. -/
structure Under (s : Shared) (i c k : ℕ) : Prop where
  cookie : s.cookie = c
  balance : s.giving + s.sem = s.ledger.received c
  le_one : s.ledger.received c ≤ 1
  notTimedOut : s.ledger.timedOut c = 0
  total : s.sent + s.errSend = i + k
  split : s.recv + s.timeouts + k = s.sent + s.ledger.received c
  length : s.ledger.sent.length = s.sent
  once : ∀ c' ∈ s.ledger.sent, c' ≠ c → s.ledger.received c' + s.ledger.timedOut c' = 1
  nodup : s.ledger.sent.Nodup
  le : ∀ c' ∈ s.ledger.sent, c' ≤ c
  mem : c ∈ s.ledger.sent ↔ k = 1
  fresh : ∀ c', c < c' → s.ledger.received c' = 0 ∧ s.ledger.timedOut c' = 0
  bound : c ≤ 2 * i + 1

theorem inc_eq {n : ℕ} (h : n < 2 ^ 32 - 1) : inc n = n + 1 := Nat.mod_eq_of_lt (by omega)

variable {s : Shared} {i c k : ℕ}

theorem settled_activate (hgiving : s.giving = 0) (hsem : s.sem = 0) (count : ℕ) :
    Settled (s.activate count) 0 := by
  refine ⟨hgiving, hsem, rfl, rfl, rfl, ?_, List.nodup_nil, ?_, fun _ _ => ⟨rfl, rfl⟩, le_refl 0⟩
  · intro c hc
    cases hc
  · intro c hc
    cases hc

theorem Settled.nextCookie (h : Settled s i) (hi : i < maxCount) :
    Under s.nextCookie i (inc s.cookie) 0 := by
  have hinc : inc s.cookie = s.cookie + 1 :=
    inc_eq (by have := h.cookie; unfold maxCount at hi; omega)
  have hfresh := h.fresh (s.cookie + 1) (Nat.lt_succ_self _)
  rw [hinc]
  refine ⟨hinc, ?_, ?_, hfresh.2, h.total, ?_, h.length, ?_, h.nodup, ?_, ?_, ?_, ?_⟩
  · change s.giving + s.sem = _
    rw [h.giving, h.sem]
    exact hfresh.1.symm
  · change s.ledger.received _ ≤ 1
    rw [hfresh.1]
    exact Nat.zero_le 1
  · change s.recv + s.timeouts + 0 = s.sent + s.ledger.received _
    rw [hfresh.1, h.split]
  · exact fun c' hc' _ => h.once c' hc'
  · exact fun c' hc' => (h.le c' hc').trans (Nat.le_succ _)
  · refine ⟨fun hmem => ?_, fun heq => by cases heq⟩
    exact absurd (h.le _ hmem) (by omega)
  · exact fun c' hc' => h.fresh c' (by omega)
  · have := h.cookie
    omega

theorem Under.countPong (h : Under s i c k) (hi : i < maxCount)
    (hzero : s.ledger.received c = 0) : Under s.countPong i c k := by
  have hrecv : inc s.recv = s.recv + 1 := by
    refine inc_eq ?_
    have := h.split
    have := h.total
    unfold maxCount at hi
    omega
  have hcookie := h.cookie
  have hself : s.countPong.ledger.received c = 1 := by
    change Function.update _ s.cookie _ c = 1
    rw [hcookie, Function.update_self, hzero]
  have hother : ∀ c', c' ≠ c → s.countPong.ledger.received c' = s.ledger.received c' := by
    intro c' hne
    change Function.update _ s.cookie _ c' = _
    rw [hcookie, Function.update_of_ne hne]
  refine ⟨hcookie, ?_, hself.le, h.notTimedOut, h.total, ?_, h.length, ?_, h.nodup, h.le, h.mem, ?_,
    h.bound⟩
  · have := h.balance
    change s.giving + 1 + s.sem = _
    omega
  · have := h.split
    rw [hself]
    change inc s.recv + s.timeouts + k = s.sent + 1
    omega
  · intro c' hc' hne
    rw [hother c' hne]
    exact h.once c' hc' hne
  · intro c' hlt
    rw [hother c' hlt.ne']
    exact h.fresh c' hlt

theorem Under.give (h : Under s i c k) (hgiving : s.giving ≠ 0) : Under s.give i c k := by
  have hbalance := h.balance
  have hle := h.le_one
  refine ⟨h.cookie, ?_, h.le_one, h.notTimedOut, h.total, h.split, h.length, h.once, h.nodup, h.le,
    h.mem, h.fresh, h.bound⟩
  change s.giving - 1 + min (s.sem + 1) (maxCount + 1) = _
  rw [Nat.min_eq_left (by unfold maxCount; omega)]
  change _ = s.ledger.received c
  omega

theorem Under.countSent (h : Under s i c 0) (hi : i < maxCount) : Under (s.countSent c) i c 1 := by
  have hsent : inc s.sent = s.sent + 1 :=
    inc_eq (by have := h.total; unfold maxCount at hi; omega)
  have hnot : c ∉ s.ledger.sent := fun hmem => by
    have := h.mem.1 hmem
    omega
  refine ⟨h.cookie, h.balance, h.le_one, h.notTimedOut, ?_, ?_, ?_, ?_, ?_, ?_, ?_, h.fresh,
    h.bound⟩
  · have := h.total
    change inc s.sent + s.errSend = i + 1
    omega
  · have := h.split
    change s.recv + s.timeouts + 1 = inc s.sent + s.ledger.received c
    omega
  · change (s.ledger.sent ++ [c]).length = inc s.sent
    rw [List.length_append, h.length, hsent]
    rfl
  · intro c' hc' hne
    rcases List.mem_append.1 hc' with hc' | hc'
    · exact h.once c' hc' hne
    · exact absurd (List.mem_singleton.1 hc') hne
  · refine List.nodup_append.2 ⟨h.nodup, List.pairwise_singleton _ c, fun a ha b hb => ?_⟩
    rw [List.mem_singleton.1 hb]
    exact fun heq => hnot (heq ▸ ha)
  · intro c' hc'
    rcases List.mem_append.1 hc' with hc' | hc'
    · exact h.le c' hc'
    · exact (List.mem_singleton.1 hc').le
  · exact ⟨fun _ => rfl, fun _ => List.mem_append_right _ (List.mem_singleton_self c)⟩

/-- The take ends the iteration: the pong of this ping has given the semaphore. -/
theorem Under.take (h : Under s i c 1) (hsem : s.sem ≠ 0) : Settled s.take (i + 1) := by
  have hbalance := h.balance
  have hle := h.le_one
  have hreceived : s.ledger.received c = 1 := by omega
  refine ⟨?_, ?_, h.total, ?_, h.length, fun c' hc' => ?_, h.nodup, fun c' hc' => ?_,
    fun c' hlt => ?_, ?_⟩
  · change s.giving = 0
    omega
  · change s.sem - 1 = 0
    omega
  · have := h.split
    change s.recv + s.timeouts = s.sent
    omega
  · change s.ledger.received c' + s.ledger.timedOut c' = 1
    by_cases hne : c' = c
    · rw [hne, hreceived, h.notTimedOut]
    · exact h.once c' hc' hne
  · exact (h.le c' hc').trans h.cookie.ge
  · exact h.fresh c' (lt_of_le_of_lt h.cookie.ge hlt)
  · have := h.bound
    have := h.cookie
    change s.cookie ≤ _
    omega

theorem Under.invalidate (h : Under s i c 1) (hi : i < maxCount)
    (hzero : s.ledger.received c = 0) : Settled (s.invalidate c) (i + 1) := by
  have hsplit := h.split
  have htotal := h.total
  have hbound := h.bound
  have hcookie := h.cookie
  have hbalance := h.balance
  have htimeouts : inc s.timeouts = s.timeouts + 1 := inc_eq (by unfold maxCount at hi; omega)
  have hinc : inc s.cookie = s.cookie + 1 := inc_eq (by unfold maxCount at hi; omega)
  have hself : (s.invalidate c).ledger.timedOut c = 1 := by
    change Function.update _ c _ c = 1
    rw [Function.update_self, h.notTimedOut]
  have hother : ∀ c', c' ≠ c → (s.invalidate c).ledger.timedOut c' = s.ledger.timedOut c' :=
    fun c' hne => Function.update_of_ne hne _ _
  refine ⟨?_, ?_, h.total, ?_, h.length, fun c' hc' => ?_, h.nodup, fun c' hc' => ?_,
    fun c' hlt => ?_, ?_⟩
  · change s.giving = 0
    omega
  · change s.sem = 0
    omega
  · change s.recv + inc s.timeouts = s.sent
    omega
  · by_cases hne : c' = c
    · rw [hne, hself]
      exact congrArg (· + 1) hzero
    · rw [hother c' hne]
      exact h.once c' hc' hne
  · have := h.le c' hc'
    change c' ≤ inc s.cookie
    omega
  · change inc s.cookie < c' at hlt
    rw [hother c' (by omega)]
    exact h.fresh c' (by omega)
  · change inc s.cookie ≤ _
    omega

theorem Under.countFailed (h : Under s i c 0) (hi : i < maxCount)
    (hzero : s.ledger.received c = 0) : Settled s.countFailed (i + 1) := by
  have hsplit := h.split
  have htotal := h.total
  have hbound := h.bound
  have hcookie := h.cookie
  have hbalance := h.balance
  have herr : inc s.errSend = s.errSend + 1 := inc_eq (by unfold maxCount at hi; omega)
  refine ⟨?_, ?_, ?_, ?_, h.length, fun c' hc' => ?_, h.nodup, fun c' hc' => ?_,
    fun c' hlt => ?_, ?_⟩
  · change s.giving = 0
    omega
  · change s.sem = 0
    omega
  · change s.sent + inc s.errSend = _
    omega
  · change s.recv + s.timeouts = s.sent
    omega
  · refine h.once c' hc' fun heq => ?_
    have := h.mem.1 (heq ▸ hc')
    omega
  · exact (h.le c' hc').trans hcookie.ge
  · exact h.fresh c' (lt_of_le_of_lt hcookie.ge hlt)
  · change s.cookie ≤ _
    omega

/-! ### Runs -/

/-- What holds of the shared state while a run is at a program point. -/
def RunInv (s : Shared) : Pc → Prop
  | .drainFirst count => 0 < count ∧ count ≤ maxCount ∧ Settled s 0
  | .drain count i | .nextCookie count i => i < count ∧ count ≤ maxCount ∧ Settled s i
  | .send count i c | .sendDone count i c => i < count ∧ count ≤ maxCount ∧ Under s i c 0
  | .sendFailed count i =>
    i < count ∧ count ≤ maxCount ∧ ∃ c, Under s i c 0 ∧ s.ledger.received c = 0
  | .wait count i c => i < count ∧ count ≤ maxCount ∧ Under s i c 1
  | .timedOut count i c =>
    i < count ∧ count ≤ maxCount ∧ Under s i c 1 ∧ s.ledger.received c = 0
  | .finish count => count ≤ maxCount ∧ Settled s count
  | _ => False

theorem runInv_loop {count : ℕ} (h : Settled s i) (hle : i ≤ count) (hmax : count ≤ maxCount) :
    RunInv s (.loop count i) := by
  unfold Pc.loop
  split
  · rename_i hlt
    exact ⟨hlt, hmax, h⟩
  · obtain rfl : i = count := by omega
    exact ⟨hmax, h⟩

/-- The cookie of the ping that a call has under way. -/
def Pc.pending : Pc → Option ℕ
  | .send _ _ c | .sendDone _ _ c | .wait _ _ c => some c
  | _ => none

theorem RunInv.countPong {pc : Pc} (h : RunInv s pc) (hpending : pc.pending = some c)
    (hzero : s.ledger.received c = 0) : RunInv s.countPong pc := by
  cases pc with
  | send count i c' =>
    obtain rfl := Option.some.inj hpending
    obtain ⟨hi, hmax, hunder⟩ := h
    exact ⟨hi, hmax, hunder.countPong (hi.trans_le hmax) hzero⟩
  | sendDone count i c' =>
    obtain rfl := Option.some.inj hpending
    obtain ⟨hi, hmax, hunder⟩ := h
    exact ⟨hi, hmax, hunder.countPong (hi.trans_le hmax) hzero⟩
  | wait count i c' =>
    obtain rfl := Option.some.inj hpending
    obtain ⟨hi, hmax, hunder⟩ := h
    exact ⟨hi, hmax, hunder.countPong (hi.trans_le hmax) hzero⟩
  | _ => cases hpending

theorem RunInv.give {pc : Pc} (h : RunInv s pc) (hgiving : s.giving ≠ 0) : RunInv s.give pc := by
  have hzero : ∀ {i c k}, Under s i c k → s.ledger.received c = 0 → False := by
    intro i c k hunder hreceived
    have := hunder.balance
    omega
  cases pc with
  | drainFirst count => exact absurd h.2.2.giving hgiving
  | drain count i => exact absurd h.2.2.giving hgiving
  | nextCookie count i => exact absurd h.2.2.giving hgiving
  | send count i c => exact ⟨h.1, h.2.1, h.2.2.give hgiving⟩
  | sendFailed count i =>
    obtain ⟨-, -, c, hunder, hreceived⟩ := h
    exact (hzero hunder hreceived).elim
  | sendDone count i c => exact ⟨h.1, h.2.1, h.2.2.give hgiving⟩
  | wait count i c => exact ⟨h.1, h.2.1, h.2.2.give hgiving⟩
  | timedOut count i c => exact (hzero h.2.2.1 h.2.2.2).elim
  | finish count => exact absurd h.2.giving hgiving
  | _ => exact h.elim

theorem RunInv.mono {s' : Shared} {pc : Pc} (h : RunInv s pc)
    (hsettled : ∀ i, Settled s i → Settled s' i) (hunder : ∀ i c k, Under s i c k → Under s' i c k)
    (hledger : s'.ledger = s.ledger) : RunInv s' pc := by
  cases pc with
  | drainFirst count => exact ⟨h.1, h.2.1, hsettled _ h.2.2⟩
  | drain count i => exact ⟨h.1, h.2.1, hsettled _ h.2.2⟩
  | nextCookie count i => exact ⟨h.1, h.2.1, hsettled _ h.2.2⟩
  | send count i c => exact ⟨h.1, h.2.1, hunder _ _ _ h.2.2⟩
  | sendFailed count i =>
    obtain ⟨hi, hmax, c, hc, hreceived⟩ := h
    exact ⟨hi, hmax, c, hunder _ _ _ hc, by rw [hledger]; exact hreceived⟩
  | sendDone count i c => exact ⟨h.1, h.2.1, hunder _ _ _ h.2.2⟩
  | wait count i c => exact ⟨h.1, h.2.1, hunder _ _ _ h.2.2⟩
  | timedOut count i c =>
    exact ⟨h.1, h.2.1, hunder _ _ _ h.2.2.1, by rw [hledger]; exact h.2.2.2⟩
  | finish count => exact ⟨h.1, hsettled _ h.2⟩
  | _ => exact h.elim

theorem RunInv.pastGuard {pc : Pc} (h : RunInv s pc) : pc.PastGuard := by
  cases pc with
  | idle => exact h
  | check count => exact h
  | ready count => exact h
  | activate count => exact h
  | _ => trivial

/-- The counts that wait at the guard. -/
def Pc.Clamped : Pc → Prop
  | .check count | .ready count | .activate count => 0 < count ∧ count ≤ maxCount
  | _ => True

namespace Sys

/-- At most one call is past its guard, and the accounts of a finished run add up: the pings of the
count are sent or failed, and each ping sent was received once or timed out once. -/
structure Accounts (s : Sys) : Prop where
  exclusive : ∀ a b, (s.pc a).PastGuard → (s.pc b).PastGuard → a = b
  total : ∀ a count, s.pc a = .finish count → s.shared.sent + s.shared.errSend = count
  split : ∀ a count, s.pc a = .finish count → s.shared.sent = s.shared.recv + s.shared.timeouts
  once : ∀ a count, s.pc a = .finish count →
    s.shared.ledger.sent.Nodup ∧ s.shared.ledger.sent.length = s.shared.sent ∧
      ∀ c ∈ s.shared.ledger.sent,
        s.shared.ledger.received c + s.shared.ledger.timedOut c = 1

/-- The ping of a cookie is under way and no pong was counted for it. -/
def Open (s : Sys) (c : ℕ) : Prop :=
  (∃ id, (s.pc id).pending = some c) ∧ s.shared.ledger.received c = 0

/-- No second run is activated; a pong that is counted finds its ping open; a ping that was counted
does not fail and does not time out. -/
def Orderly (s : Sys) : Action → Prop
  | .step id ok =>
    match s.pc id with
    | .activate _ => s.shared.active = false
    | .send _ _ c | .wait _ _ c => ok = false → s.shared.ledger.received c = 0
    | _ => True
  | .pong cookie =>
    classifyStressPong cookie s.shared.cookie s.shared.active = .matching → s.Open cookie
  | _ => True

/-- No run, with nothing outstanding. -/
structure Quiet (s : Sys) : Prop where
  outside : ∀ id, ¬(s.pc id).PastGuard
  active : s.shared.active = false
  giving : s.shared.giving = 0
  sem : s.shared.sem = 0

/-- The call `id` runs, alone. -/
structure Runs (s : Sys) (id : ℕ) : Prop where
  alone : ∀ id', (s.pc id').PastGuard → id' = id
  active : s.shared.active = true
  run : RunInv s.shared (s.pc id)

/-- What holds in every state of an orderly run. -/
structure Inv (s : Sys) : Prop where
  clamped : ∀ id, (s.pc id).Clamped
  guard : s.Quiet ∨ ∃ id, s.Runs id

variable {s s' : Sys} {id : ℕ}

theorem Inv.accounts (h : Inv s) : Accounts s := by
  have hfinish : ∀ a count, s.pc a = .finish count → Settled s.shared count := by
    intro a count hpc
    have hpast : (s.pc a).PastGuard := by
      rw [hpc]
      trivial
    rcases h.guard with hquiet | ⟨id, hrun⟩
    · exact absurd hpast (hquiet.outside a)
    · have hinv := hrun.run
      rw [← hrun.alone a hpast, hpc] at hinv
      exact hinv.2
  refine ⟨fun a b ha hb => ?_, fun a count hpc => (hfinish a count hpc).total,
    fun a count hpc => (hfinish a count hpc).split.symm, fun a count hpc => ?_⟩
  · rcases h.guard with hquiet | ⟨id, hrun⟩
    · exact absurd ha (hquiet.outside a)
    · rw [hrun.alone a ha, hrun.alone b hb]
  · have := hfinish a count hpc
    exact ⟨this.nodup, this.length, this.once⟩

theorem goto_self (s : Sys) (id : ℕ) (sh : Shared) (pc : Pc) : (s.goto id sh pc).pc id = pc :=
  Function.update_self ..

theorem goto_of_ne {id' : ℕ} (h : id' ≠ id) (s : Sys) (sh : Shared) (pc : Pc) :
    (s.goto id sh pc).pc id' = s.pc id' := Function.update_of_ne h ..

theorem clamped_goto (h : ∀ id, (s.pc id).Clamped) {pc : Pc} (hpc : pc.Clamped) (sh : Shared)
    (id' : ℕ) : ((s.goto id sh pc).pc id').Clamped := by
  by_cases hid : id' = id
  · rw [hid, goto_self]
    exact hpc
  · rw [goto_of_ne hid]
    exact h id'

theorem Inv.outside (h : Inv s) (hid : ¬(s.pc id).PastGuard) {pc : Pc} (hpc : ¬pc.PastGuard)
    (hclamped : pc.Clamped) : Inv (s.goto id s.shared pc) := by
  refine ⟨clamped_goto h.clamped hclamped _, ?_⟩
  rcases h.guard with hquiet | ⟨owner, hrun⟩
  · refine .inl ⟨fun id' => ?_, hquiet.active, hquiet.giving, hquiet.sem⟩
    by_cases heq : id' = id
    · rw [heq, goto_self]
      exact hpc
    · rw [goto_of_ne heq]
      exact hquiet.outside id'
  · have hne : owner ≠ id := fun heq => hid (heq ▸ hrun.run.pastGuard)
    refine .inr ⟨owner, fun id' hid' => ?_, hrun.active, ?_⟩
    · by_cases heq : id' = id
      · rw [heq, goto_self] at hid'
        exact absurd hid' hpc
      · rw [goto_of_ne heq] at hid'
        exact hrun.alone id' hid'
    · rw [goto_of_ne hne]
      exact hrun.run

theorem Inv.runs (h : Inv s) (hid : (s.pc id).PastGuard) : s.Runs id := by
  rcases h.guard with hquiet | ⟨owner, hrun⟩
  · exact absurd hid (hquiet.outside id)
  · rw [hrun.alone id hid]
    exact hrun

/-- The run moves on. -/
theorem Inv.move (h : Inv s) (hid : (s.pc id).PastGuard) {sh : Shared} {pc : Pc}
    (hactive : sh.active = s.shared.active) (hrun : RunInv sh pc) : Inv (s.goto id sh pc) := by
  have hold := h.runs hid
  have hclamped : pc.Clamped := by
    cases pc with
    | check count => exact hrun.elim
    | ready count => exact hrun.elim
    | activate count => exact hrun.elim
    | _ => trivial
  refine ⟨clamped_goto h.clamped hclamped _, .inr ⟨id, fun id' hid' => ?_,
    hactive.trans hold.active, ?_⟩⟩
  · by_contra hne
    rw [goto_of_ne hne] at hid'
    exact hne (hold.alone id' hid')
  · rw [goto_self]
    exact hrun

theorem inv_init : Inv init :=
  ⟨fun _ => trivial, .inl ⟨fun _ => id, rfl, rfl, rfl⟩⟩

theorem Inv.activate (h : Inv s) {count : ℕ} (hpc : s.pc id = .activate count)
    (hactive : s.shared.active = false) :
    Inv (s.goto id (s.shared.activate count) (.drainFirst count)) := by
  rcases h.guard with hquiet | ⟨owner, hrun⟩
  · have hclamped := h.clamped id
    rw [hpc] at hclamped
    have hfirst : (Pc.drainFirst count).Clamped := trivial
    refine ⟨clamped_goto h.clamped hfirst _, .inr ⟨id, fun id' hid' => ?_, rfl, ?_⟩⟩
    · by_contra hne
      rw [goto_of_ne hne] at hid'
      exact hquiet.outside id' hid'
    · rw [goto_self]
      exact ⟨hclamped.1, hclamped.2, settled_activate hquiet.giving hquiet.sem count⟩
  · rw [hrun.active] at hactive
    cases hactive

theorem Inv.finish (h : Inv s) {count : ℕ} (hpc : s.pc id = .finish count) :
    Inv (s.goto id { s.shared with active := false } .idle) := by
  have hpast : (s.pc id).PastGuard := by rw [hpc]; trivial
  have hrun := h.runs hpast
  have hsettled := hrun.run
  rw [hpc] at hsettled
  have hidle : Pc.idle.Clamped := trivial
  refine ⟨clamped_goto h.clamped hidle _, .inl ⟨fun id' hid' => ?_, rfl, hsettled.2.giving,
    hsettled.2.sem⟩⟩
  by_cases heq : id' = id
  · rw [heq, goto_self] at hid'
    exact hid'
  · rw [goto_of_ne heq] at hid'
    exact heq (hrun.alone id' hid')

theorem inv_stepCall (h : Inv s) {ok : Bool} (horderly : s.Orderly (.step id ok))
    (hstep : s.stepCall id ok = some s') : Inv s' := by
  have hpast : ∀ {pc : Pc}, s.pc id = pc → pc.PastGuard → (s.pc id).PastGuard :=
    fun heq hpc => heq ▸ hpc
  have hrun : ∀ {pc : Pc}, s.pc id = pc → pc.PastGuard → RunInv s.shared pc := by
    intro pc heq hpc
    have := (h.runs (hpast heq hpc)).run
    rwa [heq] at this
  rw [Orderly] at horderly
  unfold stepCall at hstep
  -- one case for each place of the call; behind the guard the accounts of the run hold
  cases hpc : s.pc id with
  | idle =>
    rw [hpc] at hstep
    cases hstep
  | check count =>
    simp only [hpc] at hstep
    obtain rfl := Option.some.inj hstep
    have hclamped := h.clamped id
    have hout : ¬(s.pc id).PastGuard := by rw [hpc]; exact fun hp => hp
    rw [hpc] at hclamped
    split
    · exact h.outside hout (fun hp => hp) trivial
    · exact h.outside hout (fun hp => hp) hclamped
  | ready count =>
    simp only [hpc] at hstep
    obtain rfl := Option.some.inj hstep
    have hclamped := h.clamped id
    have hout : ¬(s.pc id).PastGuard := by rw [hpc]; exact fun hp => hp
    rw [hpc] at hclamped
    split
    · exact h.outside hout (fun hp => hp) hclamped
    · exact h.outside hout (fun hp => hp) trivial
  -- in an orderly run no other call is active
  | activate count =>
    simp only [hpc] at hstep
    obtain rfl := Option.some.inj hstep
    rw [hpc] at horderly
    exact h.activate hpc horderly
  | drainFirst count =>
    simp only [hpc] at hstep
    obtain rfl := Option.some.inj hstep
    obtain ⟨hpos, hmax, hsettled⟩ := hrun hpc trivial
    rw [if_pos hsettled.sem]
    exact h.move (hpast hpc trivial) rfl (runInv_loop hsettled (Nat.zero_le _) hmax)
  | drain count i =>
    simp only [hpc] at hstep
    obtain rfl := Option.some.inj hstep
    obtain ⟨hi, hmax, hsettled⟩ := hrun hpc trivial
    rw [if_pos hsettled.sem]
    exact h.move (hpast hpc trivial) rfl ⟨hi, hmax, hsettled⟩
  | nextCookie count i =>
    simp only [hpc] at hstep
    obtain rfl := Option.some.inj hstep
    obtain ⟨hi, hmax, hsettled⟩ := hrun hpc trivial
    exact h.move (hpast hpc trivial) rfl ⟨hi, hmax, hsettled.nextCookie (hi.trans_le hmax)⟩
  | send count i c =>
    simp only [hpc] at hstep
    obtain rfl := Option.some.inj hstep
    obtain ⟨hi, hmax, hunder⟩ := hrun hpc trivial
    rw [hpc] at horderly
    -- a ping whose send fails has not been counted
    cases ok with
    | true => exact h.move (hpast hpc trivial) rfl ⟨hi, hmax, hunder⟩
    | false => exact h.move (hpast hpc trivial) rfl ⟨hi, hmax, c, hunder, horderly rfl⟩
  | sendFailed count i =>
    simp only [hpc] at hstep
    obtain rfl := Option.some.inj hstep
    obtain ⟨hi, hmax, c, hunder, hzero⟩ := hrun hpc trivial
    exact h.move (hpast hpc trivial) rfl
      (runInv_loop (hunder.countFailed (hi.trans_le hmax) hzero) hi hmax)
  | sendDone count i c =>
    simp only [hpc] at hstep
    obtain rfl := Option.some.inj hstep
    obtain ⟨hi, hmax, hunder⟩ := hrun hpc trivial
    exact h.move (hpast hpc trivial) rfl ⟨hi, hmax, hunder.countSent (hi.trans_le hmax)⟩
  | wait count i c =>
    simp only [hpc] at hstep
    obtain ⟨hi, hmax, hunder⟩ := hrun hpc trivial
    rw [hpc] at horderly
    -- the semaphore was given, or the wait timed out
    split at hstep
    · split at hstep
      · cases hstep
      · rename_i hsem
        obtain rfl := Option.some.inj hstep
        exact h.move (hpast hpc trivial) rfl (runInv_loop (hunder.take hsem) hi hmax)
    · split at hstep
      · rename_i hok hsem
        obtain rfl := Option.some.inj hstep
        exact h.move (hpast hpc trivial) rfl
          ⟨hi, hmax, hunder, horderly (eq_false_of_ne_true hok)⟩
      · cases hstep
  | timedOut count i c =>
    simp only [hpc] at hstep
    obtain rfl := Option.some.inj hstep
    obtain ⟨hi, hmax, hunder, hzero⟩ := hrun hpc trivial
    exact h.move (hpast hpc trivial) rfl
      (runInv_loop (hunder.invalidate (hi.trans_le hmax) hzero) hi hmax)
  | finish count =>
    simp only [hpc] at hstep
    obtain rfl := Option.some.inj hstep
    exact h.finish hpc

theorem Inv.shared (h : Inv s) {sh : Shared} (hactive : sh.active = s.shared.active)
    (hquiet : s.Quiet → sh.giving = 0 ∧ sh.sem = 0)
    (hrun : ∀ id, s.Runs id → RunInv sh (s.pc id)) : Inv { s with shared := sh } := by
  refine ⟨h.clamped, ?_⟩
  rcases h.guard with hq | ⟨id, hr⟩
  · obtain ⟨hgiving, hsem⟩ := hquiet hq
    exact .inl ⟨hq.outside, hactive.trans hq.active, hgiving, hsem⟩
  · exact .inr ⟨id, hr.alone, hactive.trans hr.active, hrun id hr⟩

theorem inv_pong (h : Inv s) {cookie : ℕ} (horderly : s.Orderly (.pong cookie)) :
    Inv { s with shared := s.shared.pong cookie } := by
  unfold Shared.pong
  split
  · rename_i hclass
    obtain ⟨⟨id, hpending⟩, hzero⟩ := horderly hclass
    have hpast : (s.pc id).PastGuard := by
      cases hpc : s.pc id with
      | idle => rw [hpc] at hpending; cases hpending
      | check count => rw [hpc] at hpending; cases hpending
      | ready count => rw [hpc] at hpending; cases hpending
      | activate count => rw [hpc] at hpending; cases hpending
      | _ => trivial
    have hrun := h.runs hpast
    refine h.shared rfl (fun hq => absurd hpast (hq.outside id)) fun id' hrun' => ?_
    obtain rfl : id = id' := hrun'.alone id hpast
    exact hrun'.run.countPong hpending hzero
  · exact h.shared rfl (fun hq => ⟨hq.giving, hq.sem⟩) fun id hrun => hrun.run.mono
      (fun i hi => ⟨hi.giving, hi.sem, hi.total, hi.split, hi.length, hi.once, hi.nodup, hi.le,
        hi.fresh, hi.cookie⟩)
      (fun i c k hu => ⟨hu.cookie, hu.balance, hu.le_one, hu.notTimedOut, hu.total, hu.split,
        hu.length, hu.once, hu.nodup, hu.le, hu.mem, hu.fresh, hu.bound⟩) rfl
  · exact h.shared rfl (fun hq => ⟨hq.giving, hq.sem⟩) fun id hrun => hrun.run.mono
      (fun i hi => ⟨hi.giving, hi.sem, hi.total, hi.split, hi.length, hi.once, hi.nodup, hi.le,
        hi.fresh, hi.cookie⟩)
      (fun i c k hu => ⟨hu.cookie, hu.balance, hu.le_one, hu.notTimedOut, hu.total, hu.split,
        hu.length, hu.once, hu.nodup, hu.le, hu.mem, hu.fresh, hu.bound⟩) rfl
  · exact h

theorem inv_next (h : Inv s) {a : Action} (horderly : s.Orderly a) (hnext : s.next a = some s') :
    Inv s' := by
  cases a with
  | call id count =>
    rw [next] at hnext
    split at hnext
    · rename_i hidle
      obtain rfl := Option.some.inj hnext
      refine h.outside (by rw [hidle.1]; exact fun hp => hp) (fun hp => hp) ?_
      split
      · exact ⟨by decide, le_refl _⟩
      · exact ⟨Nat.pos_of_ne_zero hidle.2, by omega⟩
    · cases hnext
  | step id ok => exact inv_stepCall h horderly hnext
  | pong cookie =>
    obtain rfl := Option.some.inj hnext
    exact inv_pong h horderly
  | give =>
    rw [next] at hnext
    split at hnext
    · cases hnext
    · rename_i hgiving
      obtain rfl := Option.some.inj hnext
      exact h.shared rfl (fun hq => absurd hq.giving hgiving) fun id hrun => hrun.run.give hgiving

/-- **The accounts of an orderly run.** -/
theorem accounts_of_orderly (h : machine.ReachableBy Orderly s) : Accounts s := by
  refine Inv.accounts (h.invariant ?_ fun s a s' hs horderly hnext => inv_next hs horderly hnext)
  rintro s rfl
  exact inv_init

/-- A run of one ping, whose pong arrives in time. -/
theorem accounts_of_one_ping :
    ∃ s, machine.ReachableBy Orderly s ∧ s.pc 0 = .finish 1 ∧ s.shared.recv = 1 ∧ Accounts s := by
  have h₀ : machine.ReachableBy Orderly init := .init rfl
  have h₁ := h₀.step (a := Action.call 0 1) trivial rfl
  have h₂ := h₁.step (a := Action.step 0 true) trivial rfl
  have h₃ := h₂.step (a := Action.step 0 true) trivial rfl
  have h₄ := h₃.step (a := Action.step 0 true) rfl rfl
  have h₅ := h₄.step (a := Action.step 0 true) trivial rfl
  have h₆ := h₅.step (a := Action.step 0 true) trivial rfl
  have h₇ := h₆.step (a := Action.step 0 true) trivial rfl
  have h₈ := h₇.step (a := Action.step 0 true) (fun hok => nomatch hok) rfl
  have h₉ := h₈.step (a := Action.step 0 true) trivial rfl
  have h₁₀ := h₉.step (a := Action.pong 1) (fun _ => ⟨⟨0, rfl⟩, rfl⟩) rfl
  have h₁₁ := h₁₀.step (a := Action.give) trivial rfl
  have h₁₂ := h₁₁.step (a := Action.step 0 true) (fun hok => nomatch hok) rfl
  exact ⟨_, h₁₂, rfl, rfl, accounts_of_orderly h₁₂⟩

/-- Two calls check `stress_active` before either of them sets it. -/
def bothChecked : List Action :=
  [.call 0 1, .call 1 1, .step 0 true, .step 1 true, .step 0 true, .step 1 true, .step 0 true,
    .step 1 true]

/-- The pong is counted in time, and its give comes behind the timeout. -/
def lateGive : List Action :=
  [.call 0 1, .step 0 true, .step 0 true, .step 0 true, .step 0 true, .step 0 true, .step 0 true,
    .step 0 true, .step 0 true, .pong 1, .step 0 false, .step 0 true]

/-- Two calls past the guard, and a ping that is received and timed out. -/
theorem accounts_broken :
    (∃ s, machine.Reachable s ∧ (s.pc 0).PastGuard ∧ (s.pc 1).PastGuard ∧ ¬Accounts s) ∧
      ∃ s, machine.Reachable s ∧ s.pc 0 = .finish 1 ∧ s.shared.sent = 1 ∧ s.shared.recv = 1 ∧
        s.shared.timeouts = 1 ∧ ¬Accounts s := by
  have hboth : machine.run init bothChecked = some _ := rfl
  have hlate : machine.run init lateGive = some _ := rfl
  refine ⟨⟨_, .run (.init rfl) hboth, trivial, trivial, fun h => ?_⟩,
    ⟨_, .run (.init rfl) hlate, rfl, rfl, rfl, rfl, fun h => ?_⟩⟩
  · exact absurd (h.exclusive 0 1 trivial trivial) (by decide)
  · exact absurd (h.split 0 1 rfl) (by decide)

end Sys

end Stress

end LeAudioReceiver
