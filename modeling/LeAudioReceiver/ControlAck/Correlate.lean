import LeAudioReceiver.ControlAck.Basic

/-!
# Which acknowledgement a request returns with

Tokens come from a counter that does not wrap, so no token is armed twice.  The data of an
acknowledgement reaches the requester through the payload, which arming has cleared; the
semaphore only says that there is something to look at.  A handler gives it behind its critical
section, so the give of an acknowledgement whose request has timed out can arrive after the next
request has drained the semaphore.  The next request then looks too early and finds the cleared
payload.

* `TokenInv` : the tokens given out are below the counter;
* `AckInv` : the payload is cleared or acknowledged, and a request that expects `0` is woken only
  when it is acknowledged;
* `correlated` : **a request returns success only when its own acknowledgement has arrived**,
  provided that no request expecting `0` is armed while a give is outstanding;
* `ok_of_late_give` : without that, it is false.
-/

namespace LeAudioReceiver

namespace ControlAck

open Sys

/-! ### Tokens -/

/-- The tokens given out are different, and below the counter. -/
structure TokenInv (s : Sys) : Prop where
  nodup : s.armedTokens.Nodup
  lt : ∀ t ∈ s.armedTokens, t.toNat < s.ctl.nextToken

theorem TokenInv.of_eq {s s' : Sys} (h : TokenInv s) (htokens : s'.armedTokens = s.armedTokens)
    (hnext : s'.ctl.nextToken = s.ctl.nextToken) : TokenInv s' := by
  refine ⟨htokens ▸ h.nodup, ?_⟩
  rw [htokens, hnext]
  exact h.lt

theorem tokenInv_step {s s' : Sys} {a : Action} (h : TokenInv s) (hstep : Step s a s') :
    TokenInv s' := by
  cases hstep with
  | arm e _ hle =>
    have htoken : (UInt16.ofNat s.ctl.nextToken).toNat = s.ctl.nextToken :=
      UInt16.toNat_ofNat_of_lt' (by show _ < 65536; omega)
    refine ⟨List.nodup_cons.2 ⟨fun hmem => ?_, h.nodup⟩, fun t ht => ?_⟩
    · exact absurd (h.lt _ hmem) (by omega)
    · rcases List.mem_cons.1 ht with rfl | ht
      · dsimp only
        omega
      · exact (h.lt t ht).trans (Nat.lt_succ_self _)
  | _ => exact h.of_eq rfl rfl

theorem tokenInv_of_reachable {s : Sys} (h : machine.Reachable s) : TokenInv s := by
  refine h.invariant (fun s hs => ?_) (fun s a s' hs hnext => tokenInv_step hs (step_of_next hnext))
  refine ⟨?_, ?_⟩ <;> rw [hs.armedTokens] <;> simp

/-! ### Acknowledgements -/

/-- No request that expects `0` is armed while the semaphore is given or a give is outstanding. -/
def QuietArm (s : Sys) : Action → Prop
  | .arm => s.pc = .arming 0 → s.sem = false ∧ s.giving = 0
  | _ => True

instance (s : Sys) (a : Action) : Decidable (QuietArm s a) := by
  cases a <;> unfold QuietArm <;> infer_instance

/-- While a request is in flight, it is armed with a cleared payload, or acknowledged.  One that
expects `0` and is still armed has not been woken, and nothing is about to wake it. -/
structure AckInv (s : Sys) : Prop where
  inFlight : ∀ r, s.pc.request = some r →
    (s.ctl.armed = true ∧ s.ctl.expectedSeq = r.token ∧ s.ctl.payload = 0) ∨
      (s.ctl.armed = false ∧ ⟨r.token, s.ctl.payload⟩ ∈ s.acked)
  quiet : ∀ r, s.pc.request = some r → r.expectedData = 0 → s.ctl.armed = true →
    s.sem = false ∧ s.giving = 0 ∧ s.pc ≠ .taken r
  returned : ∀ r, (r, Ret.ok) ∈ s.returned → r ∈ s.acked

theorem AckInv.of_same {s s' : Sys} (h : AckInv s)
    (hreq : ∀ r, s'.pc.request = some r →
      s.pc.request = some r ∧ (s.pc ≠ .taken r → s'.pc ≠ .taken r))
    (harmed : s'.ctl.armed = s.ctl.armed) (hseq : s'.ctl.expectedSeq = s.ctl.expectedSeq)
    (hpayload : s'.ctl.payload = s.ctl.payload) (hsem : s.sem = false → s'.sem = false)
    (hgiving : s'.giving = s.giving) (hacked : s'.acked = s.acked)
    (hreturned : s'.returned = s.returned) : AckInv s' := by
  refine ⟨fun r hr => ?_, fun r hr h₀ ha => ?_, ?_⟩
  · rw [harmed, hseq, hpayload, hacked]
    exact h.inFlight r (hreq r hr).1
  · obtain ⟨hs, hg, htaken⟩ := h.quiet r (hreq r hr).1 h₀ (harmed ▸ ha)
    exact ⟨hsem hs, hgiving.trans hg, (hreq r hr).2 htaken⟩
  · rw [hreturned, hacked]
    exact h.returned

theorem AckInv.of_none {s : Sys} (hreq : s.pc.request = none)
    (hreturned : ∀ r, (r, Ret.ok) ∈ s.returned → r ∈ s.acked) : AckInv s :=
  ⟨fun _ hr => (nomatch hreq.symm.trans hr), fun _ hr => (nomatch hreq.symm.trans hr), hreturned⟩

theorem ackInv_step {s s' : Sys} {a : Action} (h : AckInv s) (hok : QuietArm s a)
    (hstep : Step s a s') : AckInv s' := by
  cases hstep with
  | begin e _ => exact .of_none rfl h.returned
  | drainTake e _ _ => exact .of_none rfl h.returned
  | drainEnd e _ _ => exact .of_none rfl h.returned
  | armOverflow e _ => exact .of_none rfl h.returned
  | arm e hpc _ =>
    refine ⟨fun r hr => ?_, fun r hr h₀ _ => ?_, h.returned⟩
    · obtain rfl := Option.some.inj hr
      exact .inl ⟨rfl, rfl, rfl⟩
    · obtain rfl := Option.some.inj hr
      obtain rfl : e = 0 := h₀
      -- by the condition nothing is left of an earlier request
      obtain ⟨hsem, hgiving⟩ := hok hpc
      exact ⟨hsem, hgiving, by simp⟩
  | send r ok hpc =>
    refine h.of_same (fun r' hr' => ?_) rfl rfl rfl id rfl rfl rfl
    cases ok <;> exact ⟨by simpa [hpc, Pc.request] using hr', fun _ => by simp⟩
  | take r hpc hsem =>
    have hreq : s.pc.request = some r := by simp [hpc, Pc.request]
    refine ⟨fun r' hr' => ?_, fun r' hr' h₀ ha => ?_, h.returned⟩
    · obtain rfl := Option.some.inj hr'
      exact h.inFlight r hreq
    · -- the token cannot be for a request that is still armed
      obtain rfl := Option.some.inj hr'
      obtain ⟨hs, -⟩ := h.quiet r hreq h₀ ha
      exact absurd (hs.symm.trans hsem) (by simp)
  | timeout r hpc _ =>
    refine h.of_same (fun r' hr' => ⟨?_, fun _ => by simp⟩) rfl rfl rfl id rfl rfl rfl
    simpa [hpc, Pc.request] using hr'
  | disarm r timeout _ =>
    refine .of_none rfl fun r' hr' => ?_
    rcases List.mem_cons.1 hr' with heq | hr'
    · cases timeout <;> simp at heq
    · exact h.returned r' hr'
  | verify r hpc =>
    have hreq : s.pc.request = some r := by simp [hpc, Pc.request]
    refine .of_none rfl fun r' hr' => ?_
    rcases List.mem_cons.1 hr' with heq | hr'
    · obtain ⟨rfl, hret⟩ := Prod.mk.inj heq
      have hpayload : s.ctl.payload = r'.expectedData := by
        by_contra hne
        rw [if_neg hne] at hret
        exact absurd hret (by simp)
      rcases h.inFlight r' hreq with ⟨harmed, -, hzero⟩ | ⟨-, hacked⟩
      · -- still armed: the payload is the cleared one, so `0` was expected
        obtain ⟨-, -, htaken⟩ := h.quiet r' hreq (hpayload.symm.trans hzero) harmed
        exact absurd hpc htaken
      · rw [hpayload] at hacked
        exact hacked
    · exact h.returned r' hr'
  | accept data harmed =>
    refine ⟨fun r hr => ?_, fun r hr h₀ ha => (nomatch ha), fun r hr => ?_⟩
    · rcases h.inFlight r hr with ⟨-, hseq, -⟩ | ⟨hdisarmed, -⟩
      · exact .inr ⟨rfl, hseq ▸ List.mem_cons_self ..⟩
      · exact absurd (hdisarmed.symm.trans harmed) (by simp)
    · exact List.mem_cons_of_mem _ (h.returned r hr)
  | ignore seq data => exact h.of_same (fun r hr => ⟨hr, id⟩) rfl rfl rfl id rfl rfl rfl
  | give hpos =>
    refine ⟨h.inFlight, fun r hr h₀ ha => ?_, h.returned⟩
    obtain ⟨-, hgiving, -⟩ := h.quiet r hr h₀ ha
    omega

theorem ackInv_of_reachableBy {s : Sys} (h : machine.ReachableBy QuietArm s) : AckInv s := by
  refine h.invariant (fun s hs => ?_) fun s a s' hs hok hnext =>
    ackInv_step hs hok (step_of_next hnext)
  refine .of_none ?_ ?_
  · rw [hs.pc]
    rfl
  · rw [hs.returned]
    simp

/-- In every run no token is armed twice.  In every run that never arms a request for `0` while
the semaphore is given or a give is outstanding, a request returns success only when an
acknowledgement with its own token and the data it expects was handled while it was armed. -/
theorem correlated {s : Sys} (h : machine.Reachable s) :
    s.armedTokens.Nodup ∧
      (machine.ReachableBy QuietArm s → ∀ r, (r, Ret.ok) ∈ s.returned → r ∈ s.acked) :=
  ⟨(tokenInv_of_reachable h).nodup, fun hquiet => (ackInv_of_reachableBy hquiet).returned⟩

/-- The state of a fresh instance. -/
def fresh : Sys := ⟨Ctl.init, false, .idle, 0, [], [], []⟩

theorem fresh_start : Start fresh := ⟨rfl, rfl, rfl, rfl, rfl⟩

/-- A request for `0` that is acknowledged. -/
theorem correlated_zero :
    ∃ s, machine.ReachableBy QuietArm s ∧ (⟨1, 0⟩, Ret.ok) ∈ s.returned ∧ ⟨1, 0⟩ ∈ s.acked := by
  have hrun : ((machine.runBy QuietArm fresh
      [.begin 0, .drain, .arm, .send true, .handle 1 0, .give, .take, .verify]).map
        fun s => s.returned) = some [(⟨1, 0⟩, .ok)] := by decide +kernel
  obtain ⟨s, hs, hreturned⟩ := Option.map_eq_some_iff.1 hrun
  have hreach : machine.ReachableBy QuietArm s := Machine.ReachableBy.runBy (.init fresh_start) hs
  have hmem : (⟨1, 0⟩, Ret.ok) ∈ s.returned := by
    rw [hreturned]
    exact List.mem_singleton_self _
  exact ⟨s, hreach, hmem, (correlated hreach.reachable).2 hreach ⟨1, 0⟩ hmem⟩

/-- A request for `7` whose acknowledgement is handled but not given before the timeout, and a
request for `0` behind it: the give arrives behind the draining loop, and the second request
returns success without any acknowledgement. -/
def lateGive : List Action :=
  [.begin 7, .drain, .arm, .send true, .handle 1 7, .timeout, .disarm,
    .begin 0, .drain, .give, .arm, .send true, .take, .verify]

theorem ok_of_late_give :
    ¬ ∀ s, machine.Reachable s → s.armedTokens.Nodup ∧
      ∀ r, (r, Ret.ok) ∈ s.returned → r ∈ s.acked := by
  intro h
  have hrun : ((machine.run fresh lateGive).map fun s => (s.returned, s.acked)) =
      some ([(⟨2, 0⟩, .ok), (⟨1, 7⟩, .etimedout)], [⟨1, 7⟩]) := by decide +kernel
  obtain ⟨s, hs, hsnd⟩ := Option.map_eq_some_iff.1 hrun
  obtain ⟨hreturned, hacked⟩ := Prod.mk.inj hsnd
  have hreach : machine.Reachable s := Machine.Reachable.run (.init fresh_start) hs
  have hmem := (h s hreach).2 ⟨2, 0⟩ (by rw [hreturned]; simp)
  rw [hacked] at hmem
  exact absurd hmem (by decide)

end ControlAck

end LeAudioReceiver
