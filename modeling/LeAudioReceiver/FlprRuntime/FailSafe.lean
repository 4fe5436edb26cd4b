import LeAudioReceiver.FlprRuntime.Basic

/-!
# The registers of the remote core

What holds of the registers and of the execution memory at each stage of a restart, whatever the
hardware and the IPC service answer.

* `Runtime.Regs` : what holds at each stage;
* `Runtime.fail_safe` : **the execution memory is written and checked under reset, the interrupts
  come back as they were, the counters agree, and a call that has stopped the core and fails leaves
  it in reset**;
* `Runtime.disconnect_fails` : a call that cannot deregister the endpoint leaves the core running.
-/

namespace LeAudioReceiver

namespace FlprRuntime

open FlprRing (crc32)
open Handshake (Sys)

namespace Pc

/-- The CRC of the source has been taken in this call. -/
def crcTaken : Pc → Bool
  | idle | snapshot | sourceCrc => false
  | _ => true

/-- What the call will return, where it has failed. -/
def failing : Pc → Option ℤ
  | rollback ret | rollbackCancel ret | rollbackBound ret | rollbackDrain ret | failStop ret
  | failReset ret | fail ret => some ret
  | _ => none

end Pc

namespace Runtime

variable {s s' : Runtime} {a : Action}

/-- The core is stopped in reset, and its interrupts are disabled. -/
def Held (s : Runtime) : Prop :=
  s.vpr.cpurun = false ∧ s.vpr.reset = true ∧ s.vpr.inten = 0

/-- Between two calls the interrupts are enabled as configured, or cleared by a reset. -/
def MaskKept (s : Runtime) : Prop := s.vpr.inten = 0 ∨ s.vpr.inten = s.configured

/-- The registers are as they were when the call began, and the interrupts as between two calls. -/
def Untouched (s : Runtime) : Prop := s.vpr = s.entry ∧ s.MaskKept

/-- What holds of the registers where the restarting thread is. -/
def Regs (s : Runtime) : Pc → Prop
  | .idle => s.MaskKept
  | .snapshot | .sourceCrc => s.Untouched
  | .disconnect | .drainBound | .cancel | .deregister =>
    s.Untouched ∧ s.status.failedStage = .disconnect
  | .stop => True
  | .retention | .assertReset => s.vpr.cpurun = false
  | .copy | .verify => s.Held
  | .initpc | .cpurun => s.Held ∧ crc32 s.exec = s.expectedCrc
  | .release => s.vpr.reset = true ∧ s.vpr.inten = 0 ∧ crc32 s.exec = s.expectedCrc
  | .intEnable => s.vpr.inten = 0
  | .intCheck => s.vpr.inten &&& s.savedMask = s.vpr.inten
  | .reconnect | .reconnectDrain | .admitSession | .register | .waitBound | .repost | .waitReady
  | .readyWaiting | .readyDrain | .success => s.vpr.inten = s.configured
  | .rollback _ | .rollbackCancel _ | .rollbackBound _ | .rollbackDrain _ | .failStop _ => True
  | .failReset _ => s.vpr.cpurun = false
  | .fail _ => s.Held ∨ s.Untouched ∧ s.status.failedStage = .disconnect

/-- The calls that have not returned. -/
def openCalls (s : Runtime) : UInt32 := if s.pc = .idle then 0 else 1

/-- The invariant of the restarts. -/
structure Inv (s : Runtime) : Prop where
  saved : s.savedMask = s.configured
  regs : s.Regs s.pc
  expected : s.pc.crcTaken = true → s.expectedCrc = crc32 s.source
  failing : ∀ ret, s.pc.failing = some ret → ret ≠ 0
  count : s.status.requests = s.status.successCount + s.status.failCount + s.openCalls

theorem inv_start (h : Start s) : Inv s where
  saved := h.saved.trans h.configured.symm
  regs := by
    rw [h.pc]
    exact .inr h.configured.symm
  expected hpc := by
    rw [h.pc] at hpc
    cases hpc
  failing ret hret := by
    rw [h.pc] at hret
    cases hret
  count := by
    rw [h.requests, h.successCount, h.failCount, openCalls, if_pos h.pc]
    rfl

theorem Inv.regsAt (h : Inv s) {pc : Pc} (hpc : s.pc = pc) : s.Regs pc := hpc ▸ h.regs

theorem Inv.crc (h : Inv s) {pc : Pc} (hpc : s.pc = pc) (htaken : pc.crcTaken = true) :
    s.expectedCrc = crc32 s.source :=
  h.expected (hpc ▸ htaken)

/-- A step within a call. -/
theorem Inv.move (h : Inv s) {pc : Pc} (hpc : s.pc = pc) (hopen : pc ≠ .idle)
    (hmask : s'.savedMask = s.savedMask ∧ s'.configured = s.configured)
    (hcounts : s'.status.requests = s.status.requests ∧
      s'.status.successCount = s.status.successCount ∧ s'.status.failCount = s.status.failCount)
    (hopen' : s'.pc ≠ .idle) (hregs : s'.Regs s'.pc)
    (hexpected : s'.pc.crcTaken = true → s'.expectedCrc = crc32 s'.source)
    (hfailing : ∀ ret, s'.pc.failing = some ret → ret ≠ 0) : Inv s' where
  saved := by rw [hmask.1, hmask.2, h.saved]
  regs := hregs
  expected := hexpected
  failing := hfailing
  count := by
    rw [hcounts.1, hcounts.2.1, hcounts.2.2, h.count, openCalls, openCalls, hpc, if_neg hopen,
      if_neg hopen']

theorem Inv.goOn (h : Inv s) {pc : Pc} (hpc : s.pc = pc) (hopen : pc ≠ .idle)
    (hmask : s'.savedMask = s.savedMask ∧ s'.configured = s.configured)
    (hcounts : s'.status.requests = s.status.requests ∧
      s'.status.successCount = s.status.successCount ∧ s'.status.failCount = s.status.failCount)
    (hopen' : s'.pc ≠ .idle) (hok : s'.pc.failing = none) (hregs : s'.Regs s'.pc)
    (hexpected : s'.pc.crcTaken = true → s'.expectedCrc = crc32 s'.source) : Inv s' :=
  h.move hpc hopen hmask hcounts hopen' hregs hexpected fun _ hret => by
    rw [hok] at hret
    cases hret

theorem Inv.goFail (h : Inv s) {pc : Pc} {ret : ℤ} (hpc : s.pc = pc) (hopen : pc ≠ .idle)
    (hmask : s'.savedMask = s.savedMask ∧ s'.configured = s.configured)
    (hcounts : s'.status.requests = s.status.requests ∧
      s'.status.successCount = s.status.successCount ∧ s'.status.failCount = s.status.failCount)
    (hpc' : s'.pc.failing = some ret) (hret : ret ≠ 0) (hregs : s'.Regs s'.pc)
    (hexpected : s'.expectedCrc = crc32 s'.source) : Inv s' := by
  refine h.move hpc hopen hmask hcounts ?_ hregs (fun _ => hexpected) ?_
  · intro hidle
    rw [hidle] at hpc'
    cases hpc'
  · intro r hr
    exact Option.some.inj (hpc'.symm.trans hr) ▸ hret

theorem Inv.same (h : Inv s) (hpc : s'.pc = s.pc) (hregs : ∀ pc, s.Regs pc → s'.Regs pc)
    (hmask : s'.savedMask = s.savedMask ∧ s'.configured = s.configured)
    (hcounts : s'.status.requests = s.status.requests ∧
      s'.status.successCount = s.status.successCount ∧ s'.status.failCount = s.status.failCount)
    (hcrc : s'.expectedCrc = s.expectedCrc ∧ s'.source = s.source) : Inv s' where
  saved := by rw [hmask.1, hmask.2, h.saved]
  regs := hpc ▸ hregs s.pc h.regs
  expected htaken := by
    rw [hcrc.1, hcrc.2]
    exact h.expected (hpc ▸ htaken)
  failing := hpc ▸ h.failing
  count := by rw [hcounts.1, hcounts.2.1, hcounts.2.2, openCalls, hpc, h.count, openCalls]

theorem Inv.begin (h : Inv s) (hpc : s.pc = .idle) (timeoutMs : UInt32) :
    Inv (s.begin timeoutMs) := by
  have hmask : s.MaskKept := by
    have hregs := h.regs
    rwa [hpc] at hregs
  refine ⟨?_, ⟨rfl, hmask⟩, (nomatch ·), (fun _ hret => nomatch hret), ?_⟩
  · change (if s.vpr.inten ≠ 0 then s.vpr.inten else s.savedMask) = s.configured
    split_ifs with hne
    · exact hmask.resolve_left hne
    · exact h.saved
  · have hcount := h.count
    rw [openCalls, if_pos hpc] at hcount
    change s.status.requests + 1 = s.status.successCount + s.status.failCount + 1
    rw [hcount, UInt32.add_zero]

theorem Inv.succeed (h : Inv s) (hpc : s.pc = .success) : Inv s.succeed := by
  have hregs := h.regs
  have hcount := h.count
  rw [hpc] at hregs
  rw [openCalls, hpc, if_neg (by decide)] at hcount
  refine ⟨h.saved, .inr hregs, (nomatch ·), (fun _ hret => nomatch hret), ?_⟩
  change s.status.requests = s.status.successCount + 1 + s.status.failCount + 0
  rw [hcount, UInt32.add_zero, UInt32.add_assoc, UInt32.add_assoc, UInt32.add_comm 1]

theorem Inv.giveUp (h : Inv s) {ret : ℤ} (hpc : s.pc = .fail ret) : Inv (s.giveUp ret) := by
  have hregs := h.regs
  have hcount := h.count
  rw [hpc] at hregs
  rw [openCalls, hpc, if_neg (Pc.noConfusion ·)] at hcount
  refine ⟨h.saved, ?_, (nomatch ·), (fun _ hret => nomatch hret), ?_⟩
  · rcases hregs with ⟨-, -, hinten⟩ | ⟨⟨-, hmask⟩, -⟩
    · exact .inl hinten
    · exact hmask
  · change s.status.requests = s.status.successCount + (s.status.failCount + 1) + 0
    rw [hcount, UInt32.add_zero, UInt32.add_assoc]

theorem timedOut_ne_zero : s.timedOut ≠ 0 := by
  unfold timedOut
  split_ifs <;> decide

theorem Inv.ctl (h : Inv s) {pc pc' : Pc} {b : Handshake.Action} {hs : Sys} (hpc : s.pc = pc)
    (hmove : CtlMove pc a b pc') : Inv { s with hs := hs, pc := pc' } := by
  have hregs := h.regsAt hpc
  cases hmove with
  | deregister _ =>
    exact h.goOn hpc (by simp) ⟨rfl, rfl⟩ ⟨rfl, rfl, rfl⟩ (by simp) rfl trivial
      fun _ => h.crc hpc rfl
  | deregisterFailed hret =>
    exact h.goFail hpc (by simp) ⟨rfl, rfl⟩ ⟨rfl, rfl, rfl⟩ rfl hret.ne (.inr hregs)
      (h.crc hpc rfl)
  | registerFailed hret =>
    exact h.goFail hpc (by simp) ⟨rfl, rfl⟩ ⟨rfl, rfl, rfl⟩ rfl hret.ne trivial (h.crc hpc rfl)
  | rollback ret | rollbackCancel ret | rollbackDrain ret =>
    exact h.goFail hpc (by simp) ⟨rfl, rfl⟩ ⟨rfl, rfl, rfl⟩ rfl (h.failing ret (by rw [hpc]; rfl))
      trivial (h.crc hpc rfl)
  | disconnect | cancel | reconnect | install | take | readyDrain =>
    exact h.goOn hpc (by simp) ⟨rfl, rfl⟩ ⟨rfl, rfl, rfl⟩ (by simp) rfl hregs
      fun _ => h.crc hpc rfl

theorem Inv.waitReady (h : Inv s) {hs : Sys} (hpc : s.pc = .waitReady) :
    Inv { s with hs := hs, status := s.stage .waitReady, pc := .waiting hs.ctl } := by
  have hregs := h.regsAt hpc
  cases hctl : hs.ctl with
  | succeeding _ | waiting _ =>
    exact h.goOn hpc (by simp) ⟨rfl, rfl⟩ ⟨rfl, rfl, rfl⟩ (by simp [Pc.waiting]) rfl hregs
      fun _ => h.crc hpc rfl
  | _ =>
    exact h.goFail hpc (by simp) ⟨rfl, rfl⟩ ⟨rfl, rfl, rfl⟩ rfl (by decide : -ecanceled ≠ 0) trivial
      (h.crc hpc rfl)

/-- Behind a reset the enabled interrupts are those of the saved mask that were taken over. -/
theorem enabled_and_saved (hzero : s.vpr.inten = 0) (taken : UInt32) :
    (s.vpr.inten ||| s.savedMask &&& taken) &&& s.savedMask = s.savedMask &&& taken := by
  rw [hzero, UInt32.zero_or, UInt32.and_comm s.savedMask taken, UInt32.and_assoc, UInt32.and_self]

theorem Inv.next (h : Inv s) (hs : s.next a = some s') : Inv s' := by
  cases step_of_next hs with
  | env _ _ | busy _ =>
    refine h.same rfl ?_ ⟨rfl, rfl⟩ ⟨rfl, rfl, rfl⟩ ⟨rfl, rfl⟩
    rintro (_ | _) <;> exact id
  | call timeoutMs hpc => exact h.begin hpc timeoutMs
  | ctl hpc hmove _ => exact h.ctl hpc hmove
  | snapshot hpc =>
    exact h.goOn hpc (by simp) ⟨rfl, rfl⟩ ⟨rfl, rfl, rfl⟩ (by simp) rfl (h.regsAt hpc) (nomatch ·)
  | sourceCrc hpc =>
    exact h.goOn hpc (by simp) ⟨rfl, rfl⟩ ⟨rfl, rfl, rfl⟩ (by simp) rfl ⟨h.regsAt hpc, rfl⟩
      fun _ => rfl
  | drainBound hpc | cleared hpc | copy _ hpc | initpc hpc | reconnect hpc | admitSession hpc _
  | register hpc _ _ | bound hpc _ | repost hpc =>
    exact h.goOn hpc (by simp) ⟨rfl, rfl⟩ ⟨rfl, rfl, rfl⟩ (by simp) rfl (h.regsAt hpc)
      fun _ => h.crc hpc rfl
  | stop hpc =>
    exact h.goOn hpc (by simp) ⟨rfl, rfl⟩ ⟨rfl, rfl, rfl⟩ (by simp) rfl rfl fun _ => h.crc hpc rfl
  | assertReset hpc =>
    exact h.goOn hpc (by simp) ⟨rfl, rfl⟩ ⟨rfl, rfl, rfl⟩ (by simp) rfl ⟨h.regsAt hpc, rfl, rfl⟩
      fun _ => h.crc hpc rfl
  | verified hpc hcrc =>
    exact h.goOn hpc (by simp) ⟨rfl, rfl⟩ ⟨rfl, rfl, rfl⟩ (by simp) rfl ⟨h.regsAt hpc, hcrc.symm⟩
      fun _ => h.crc hpc rfl
  | cpurun hpc =>
    obtain ⟨⟨-, hreset, hinten⟩, hcrc⟩ := h.regsAt hpc
    exact h.goOn hpc (by simp) ⟨rfl, rfl⟩ ⟨rfl, rfl, rfl⟩ (by simp) rfl ⟨hreset, hinten, hcrc⟩
      fun _ => h.crc hpc rfl
  | release hpc =>
    exact h.goOn hpc (by simp) ⟨rfl, rfl⟩ ⟨rfl, rfl, rfl⟩ (by simp) rfl (h.regsAt hpc).2.1
      fun _ => h.crc hpc rfl
  | intEnable taken hpc =>
    have hzero : s.vpr.inten = 0 := h.regsAt hpc
    refine h.goOn hpc (by simp) ⟨rfl, rfl⟩ ⟨rfl, rfl, rfl⟩ (by simp) rfl ?_ fun _ => h.crc hpc rfl
    -- the bits taken over are among those asked for
    change (s.vpr.inten ||| s.savedMask &&& taken) &&& s.savedMask =
      s.vpr.inten ||| s.savedMask &&& taken
    rw [enabled_and_saved hzero, hzero, UInt32.zero_or]
  | intKept hpc hmask =>
    have hamong : s.vpr.inten &&& s.savedMask = s.vpr.inten := h.regsAt hpc
    have hinten : s.vpr.inten = s.configured := hamong.symm.trans (hmask.trans h.saved)
    exact h.goOn hpc (by simp) ⟨rfl, rfl⟩ ⟨rfl, rfl, rfl⟩ (by simp) rfl hinten
      fun _ => h.crc hpc rfl
  | waitReady hpc _ => exact h.waitReady hpc
  | corrupted hpc _ =>
    exact h.goFail hpc (by simp) ⟨rfl, rfl⟩ ⟨rfl, rfl, rfl⟩ rfl (by decide : -eio ≠ 0)
      (.inl (h.regsAt hpc)) (h.crc hpc rfl)
  | retained hpc | intLost hpc _ =>
    exact h.goFail hpc (by simp) ⟨rfl, rfl⟩ ⟨rfl, rfl, rfl⟩ rfl (by decide : -eio ≠ 0) trivial
      (h.crc hpc rfl)
  | boundTimeout hpc | readyTimeout hpc _ =>
    exact h.goFail hpc (by simp) ⟨rfl, rfl⟩ ⟨rfl, rfl, rfl⟩ rfl timedOut_ne_zero trivial
      (h.crc hpc rfl)
  | rollbackBound hpc =>
    exact h.goFail hpc (by simp) ⟨rfl, rfl⟩ ⟨rfl, rfl, rfl⟩ rfl (h.failing _ (by rw [hpc]; rfl))
      trivial (h.crc hpc rfl)
  | failStop hpc =>
    exact h.goFail hpc (by simp) ⟨rfl, rfl⟩ ⟨rfl, rfl, rfl⟩ rfl (h.failing _ (by rw [hpc]; rfl))
      rfl (h.crc hpc rfl)
  | failReset hpc =>
    exact h.goFail hpc (by simp) ⟨rfl, rfl⟩ ⟨rfl, rfl, rfl⟩ rfl (h.failing _ (by rw [hpc]; rfl))
      (.inl ⟨h.regsAt hpc, rfl, rfl⟩) (h.crc hpc rfl)
  | success hpc => exact h.succeed hpc
  | fail hpc => exact h.giveUp hpc

theorem inv_of_reachable (h : machine.Reachable s) : Inv s :=
  h.invariant (fun _ => inv_start) fun _ _ _ hs hnext => hs.next hnext

/-! ### Safety -/

/-- What a step does to the execution memory, to the reset and to a call that goes on: only a copy
writes, only the release lifts the reset, and a call ends in success or behind the label `fail`. -/
theorem next_frame (hs : s.next a = some s') :
    (s'.exec = s.exec ∧ (∀ image, a ≠ .copy image) ∨ s.pc = .copy) ∧
    (s'.vpr.reset = s.vpr.reset ∨ s'.vpr.reset = true ∨ s.pc = .release) ∧
    (s'.pc = .idle → s.pc ≠ .idle → s' = s.succeed ∧ s.pc = .success ∨
      ∃ ret, s' = s.giveUp ret ∧ s.pc = .fail ret) := by
  cases step_of_next hs with
  | env _ _ => exact ⟨.inl ⟨rfl, by simp⟩, .inl rfl, fun hidle hopen => absurd hidle hopen⟩
  | busy hopen => exact ⟨.inl ⟨rfl, by simp⟩, .inl rfl, fun hidle => absurd hidle hopen⟩
  | copy _ hpc => exact ⟨.inr hpc, .inl rfl, (nomatch ·)⟩
  | release hpc => exact ⟨.inl ⟨rfl, by simp⟩, .inr (.inr hpc), (nomatch ·)⟩
  | assertReset _ | failReset _ => exact ⟨.inl ⟨rfl, by simp⟩, .inr (.inl rfl), (nomatch ·)⟩
  | success hpc => exact ⟨.inl ⟨rfl, by simp⟩, .inl rfl, fun _ _ => .inl ⟨rfl, hpc⟩⟩
  | fail hpc => exact ⟨.inl ⟨rfl, by simp⟩, .inl rfl, fun _ _ => .inr ⟨_, rfl, hpc⟩⟩
  | ctl _ hmove _ =>
    refine ⟨.inl ⟨rfl, ?_⟩, .inl rfl, ?_⟩
    · cases hmove <;> simp
    · cases hmove <;> exact (nomatch ·)
  | waitReady _ _ =>
    refine ⟨.inl ⟨rfl, by simp⟩, .inl rfl, fun hidle => ?_⟩
    unfold Pc.waiting at hidle
    split at hidle <;> cases hidle
  | _ => exact ⟨.inl ⟨rfl, by simp⟩, .inl rfl, (nomatch ·)⟩

theorem return_of_next (hs : s.next a = some s') (hopen : s.pc ≠ .idle) (hidle : s'.pc = .idle) :
    s' = s.succeed ∧ s.pc = .success ∨ ∃ ret, s' = s.giveUp ret ∧ s.pc = .fail ret :=
  (next_frame hs).2.2 hidle hopen

/-- **A restart is fail-safe**, whatever the hardware and the IPC service answer.  The execution
memory is written under reset only; reset is released only when its CRC is that of the source; a
call that fails has left the registers alone, because it could not deregister the endpoint, or
leaves the core stopped in reset; a call that succeeds leaves the interrupts enabled that were
enabled at initialisation; and between two calls every request has succeeded or failed. -/
theorem fail_safe (h : machine.Reachable s) :
    (∀ a s', s.next a = some s' → (s'.exec ≠ s.exec ∨ ∃ image, a = .copy image) →
      s.vpr.reset = true) ∧
    (∀ a s', s.next a = some s' → s.vpr.reset = true → s'.vpr.reset = false →
      crc32 s.exec = s.expectedCrc ∧ s.expectedCrc = crc32 s.source) ∧
    (∀ a s', s.next a = some s' → s.pc ≠ .idle → s'.pc = .idle → s'.result ≠ 0 →
      (s'.status.failedStage = .disconnect ∧ s'.vpr = s.entry) ∨
        s'.vpr.cpurun = false ∧ s'.vpr.reset = true) ∧
    (∀ a s', s.next a = some s' → s.pc ≠ .idle → s'.pc = .idle → s'.result = 0 →
      s'.vpr.inten = s'.configured) ∧
    (s.pc = .idle → s.status.requests = s.status.successCount + s.status.failCount) := by
  have hinv := inv_of_reachable h
  have hregs := hinv.regs
  refine ⟨?_, ?_, ?_, ?_, ?_⟩
  · intro a s' hs hwrite
    -- only the copy writes
    have hcopy : s.pc = .copy := by
      refine (next_frame hs).1.resolve_left ?_
      rintro ⟨hsame, hquiet⟩
      rcases hwrite with hne | ⟨image, rfl⟩
      · exact hne hsame
      · exact hquiet image rfl
    rw [hcopy] at hregs
    exact hregs.2.1
  · intro a s' hs hreset hreset'
    -- only the release takes the core out of reset
    have hrelease : s.pc = .release := by
      rcases (next_frame hs).2.1 with hsame | htrue | hpc
      · rw [hsame, hreset] at hreset'
        cases hreset'
      · rw [htrue] at hreset'
        cases hreset'
      · exact hpc
    rw [hrelease] at hregs
    exact ⟨hregs.2.2, hinv.expected (by rw [hrelease]; rfl)⟩
  · intro a s' hs hopen hidle hne
    rcases return_of_next hs hopen hidle with ⟨rfl, -⟩ | ⟨ret, rfl, hpc⟩
    · exact absurd rfl hne
    · rw [hpc] at hregs
      rcases hregs with ⟨hcpurun, hreset, -⟩ | ⟨⟨hvpr, -⟩, hstage⟩
      · exact .inr ⟨hcpurun, hreset⟩
      · exact .inl ⟨hstage, hvpr⟩
  · intro a s' hs hopen hidle hzero
    rcases return_of_next hs hopen hidle with ⟨rfl, hpc⟩ | ⟨ret, rfl, hpc⟩
    · rw [hpc] at hregs
      exact hregs
    · exact absurd hzero (hinv.failing ret (by rw [hpc]; rfl))
  · intro hpc
    have hcount := hinv.count
    rwa [openCalls, if_pos hpc, UInt32.add_zero] at hcount

/-- A remote core that runs, with its endpoint registered. -/
def boot : Runtime :=
  { hs := Handshake.Sys.boot, boundSem := true, vpr := ⟨true, false, 0xFF00, execBase⟩
    exec := [0xA5, 0xA5], source := [0x13, 0x37], savedMask := 0xFF00
    status := ⟨.idle, .disconnect, 0, 0, 0, 0, 0, 0, 0, 0, 0, 0, 0, 0⟩, pc := .idle
    timeoutMs := 0, startMs := 0, epochBefore := 0, expectedCrc := 0, result := 0
    entry := ⟨true, false, 0xFF00, execBase⟩, configured := 0xFF00
    bound := false, fresh := false, readied := false }

theorem start_boot : Start boot := ⟨Handshake.Sys.start_boot, rfl, rfl, rfl, rfl, rfl, rfl⟩

/-- A call, until the endpoint is to be deregistered. -/
def toDeregister : List Action := .call 1500 :: List.replicate 5 .run

/-- The endpoint is deregistered and the core is put into reset. -/
def toCopy : List Action :=
  toDeregister ++ [.deregister 0, .run, .retention true, .run]

theorem reachable_boot : machine.Reachable boot := .init start_boot

/-- A copy that goes wrong. -/
theorem fail_safe_corrupted :
    ∃ s, machine.Reachable s ∧ s.pc = .idle ∧ s.status.requests = 1 ∧
      s.status.requests = s.status.successCount + s.status.failCount := by
  have hrun : ((machine.run boot (toCopy ++ [.copy [0x13, 0x38], .run, .run])).map
      fun s => (s.pc, s.status.requests)) = some (.idle, 1) := by
    decide +kernel
  obtain ⟨s, hs, hstate⟩ := Option.map_eq_some_iff.1 hrun
  obtain ⟨hpc, hrequests⟩ := Prod.mk.inj hstate
  have hreach := reachable_boot.run hs
  exact ⟨s, hreach, hpc, hrequests, (fail_safe hreach).2.2.2.2 hpc⟩

/-- A call that cannot deregister the endpoint returns an error and leaves the core running. -/
theorem disconnect_fails :
    ∃ s s', machine.Reachable s ∧ s.next .run = some s' ∧ s.pc ≠ .idle ∧ s'.pc = .idle ∧
      s'.result = -5 ∧ s'.vpr.cpurun = true ∧ s'.vpr.reset = false := by
  have hrun : ((machine.run boot (toDeregister ++ [.deregister (-5)])).map fun s =>
      (s.pc, (s.next .run).map fun s' => (s'.pc, s'.result, s'.vpr.cpurun, s'.vpr.reset))) =
      some (.fail (-5), some (.idle, -5, true, false)) := by
    decide +kernel
  obtain ⟨s, hs, hstate⟩ := Option.map_eq_some_iff.1 hrun
  obtain ⟨hpc, hnext⟩ := Prod.mk.inj hstate
  obtain ⟨s', hs', hstate'⟩ := Option.map_eq_some_iff.1 hnext
  obtain ⟨hpc', hresult, hcpurun, hreset⟩ :
      s'.pc = .idle ∧ s'.result = -5 ∧ s'.vpr.cpurun = true ∧ s'.vpr.reset = false := by
    simpa using hstate'
  exact ⟨s, s', reachable_boot.run hs, hs', by simp [hpc], hpc', hresult, hcpurun, hreset⟩

end Runtime

end FlprRuntime

end LeAudioReceiver
