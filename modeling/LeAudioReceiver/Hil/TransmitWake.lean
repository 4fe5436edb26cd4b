import LeAudioReceiver.Hil.TransmitSteps

/-!
# The wakes of the transmit stage

The worker waits in four places on one binary semaphore.  Whatever ends a wait gives a token while
the worker may be on its way into the wait, so a token cannot be missed, although a wait may also
take a token that was given for an earlier one.

* `Tx.satisfied` : what the worker waits for has come;
* `no_lost_wake` : **the worker does not wait for what has come without a token**.
-/

namespace LeAudioReceiver

namespace Hil

namespace Transmit

/-- What the worker waits for has come; behind a sample of the flags, that one was raised since. -/
def Tx.satisfied (s : Tx) (target : ℕ) : Bool :=
  match s.worker with
  | .anchorDue _ | .pinRead _ _ | .pinWait _ _ => s.stopPending
  | .anchorWait _ => s.stopPending || s.readbackDue
  | .spaceWait _ => s.stopPending || s.canSend target
  | .drainWait _ =>
    s.stopPending || s.run.config.mode.allStreams fun i => (s.stream i).outstanding = 0
  | _ => false

/-- A token is there for whatever has come. -/
def Tx.Alert (target : ℕ) (s : Tx) : Prop := s.satisfied target = true → s.wake = true

section Alert

variable {target : ℕ} {s s' : Tx}

theorem Tx.Alert.of_unsatisfied (h : s.satisfied target = false) : s.Alert target := by
  intro hsat
  rw [h] at hsat
  cases hsat

theorem Works.alert {f : History → History} (hworks : Works target s s' f) (hs : s.Alert target) :
    s'.Alert target := by
  cases hworks with
  | enter => exact .of_unsatisfied rfl
  | @encoders again hw => cases again <;> exact .of_unsatisfied rfl
  | ends hends =>
    obtain ⟨ret, -, hret⟩ := hends.worker
    exact .of_unsatisfied (by unfold Tx.satisfied; rw [hret])
  | endsBehind hends =>
    obtain ⟨ret, -, hret⟩ := hends.worker
    exact .of_unsatisfied (by unfold Tx.satisfied; rw [hret])
  | @moves pc hpc =>
    have hquiet : (s.goto pc).satisfied target = false := by
      cases hw : s.worker <;> rw [hw] at hpc <;> cases hpc <;> rfl
    exact .of_unsatisfied hquiet
  | @checked pc hpc hstop =>
    -- the sample found neither flag raised
    have hquiet : (s.goto pc).satisfied target = false := by
      cases hw : s.worker <;> rw [hw] at hpc <;> cases hpc <;> first | rfl | exact hstop
    exact .of_unsatisfied hquiet
  | @woken pc hpc =>
    have hquiet : ({ s with wake := false, worker := pc } : Tx).satisfied target = false := by
      cases hw : s.worker <;> rw [hw] at hpc <;> cases hpc <;> rfl
    exact .of_unsatisfied hquiet
  | @expired pc hpc =>
    have hquiet : (s.goto pc).satisfied target = false := by
      cases hw : s.worker <;> rw [hw] at hpc <;> cases hpc <;> rfl
    exact .of_unsatisfied hquiet
  | @notDue deadline hw hdue =>
    -- the timestamp was not due, and a flag that was raised since the sample gave a token
    intro hsat
    have hstop : s.stopPending = true := by
      change (s.stopPending || s.readbackDue) = true at hsat
      rwa [hdue, Bool.or_false] at hsat
    have hbefore : s.satisfied target = true := by
      unfold Tx.satisfied
      rw [hw]
      exact hstop
    exact hs hbefore
  | noSpace hw hstop hspace =>
    refine .of_unsatisfied ?_
    change (s.stopPending || s.canSend target) = false
    rw [hstop, hspace]
    rfl
  | @inTime pin now deadline pc hw _ hpc =>
    rcases hpc with rfl | rfl
    · exact .of_unsatisfied rfl
    · intro hsat
      have hbefore : s.satisfied target = true := by
        unfold Tx.satisfied
        rw [hw]
        exact hsat
      exact hs hbefore
  | undrained hw hstop hdrained =>
    refine .of_unsatisfied ?_
    change (s.stopPending ||
      s.run.config.mode.allStreams fun i => (s.stream i).outstanding = 0) = false
    rw [hstop, hdrained]
    rfl
  | @synced i ts pc hw hpc =>
    have hquiet : ((s.modify i fun t => { t with syncLast := ts, syncCnt := t.syncCnt + 1 }).goto
        pc).satisfied target = false := by
      rw [hw] at hpc
      cases hpc <;> rfl
    exact .of_unsatisfied hquiet
  | _ => exact .of_unsatisfied rfl

theorem Tx.Alert.same (hs : s.Alert target) (hworker : s'.worker = s.worker)
    (hwake : s'.wake = s.wake) (hdue : s'.readbackDue = s.readbackDue)
    (hstream : s'.stream = s.stream) (hstop : s'.run.stopRequested = s.run.stopRequested)
    (herror : s'.runtimeError = s.runtimeError) (hconfig : s'.run.config = s.run.config) :
    s'.Alert target := by
  have hpending : s'.stopPending = s.stopPending := by
    unfold Tx.stopPending
    rw [hstop, herror]
  have hsatisfied : s'.satisfied target = s.satisfied target := by
    unfold Tx.satisfied Tx.canSend
    rw [hworker, hpending, hdue, hstream, hconfig]
  intro hsat
  rw [hwake]
  exact hs (hsatisfied ▸ hsat)

/-- A callback that changes anything gives a token. -/
theorem Tx.Alert.sent (hs : s.Alert target) (i : Fin 2) : (s.sent i).Alert target := by
  obtain ⟨counters, hsent | hsent | ⟨pending, due, hsent⟩⟩ := s.sent_cases i
  · rw [hsent]
    exact hs.same rfl rfl rfl rfl rfl rfl rfl
  · rw [hsent]
    exact fun _ => rfl
  · rw [hsent]
    exact fun _ => rfl

theorem Tx.Alert.emitStatus (hs : s.Alert target) (e : Emission) :
    (s.emitStatus e).Alert target := by
  rcases s.emitStatus_cases e with heq | heq
  · rw [heq]
    exact hs
  · rw [heq]
    exact fun _ => rfl

theorem Tx.Alert.stop (hs : s.Alert target) (e : Emission) : (s.stop e).Alert target := by
  unfold Tx.stop
  dsimp only
  split_ifs
  · exact Tx.Alert.emitStatus (fun _ => rfl) e
  · exact hs.emitStatus e

/-- Every step keeps the invariant. -/
theorem Tx.Alert.step {a : Tx.Action} (hs : s.Alert target)
    (hnext : (machine target).next s a = some s') : s'.Alert target := by
  cases a with
  | work a =>
    obtain ⟨f, hworks, -⟩ := works (show s.work target a = some s' from hnext)
    exact hworks.alert hs
  | sent i =>
    change (if _ then none else some (s.sent i)) = some s' at hnext
    split_ifs at hnext
    exact Option.some.inj hnext ▸ hs.sent i
  | status e =>
    change (if _ then none else some (s.emitStatus e)) = some s' at hnext
    split_ifs at hnext
    exact Option.some.inj hnext ▸ hs.emitStatus e
  | stop e =>
    change (if _ then none else some (s.stop e)) = some s' at hnext
    split_ifs at hnext
    exact Option.some.inj hnext ▸ hs.stop e
  | tick ms =>
    obtain rfl := Option.some.inj hnext
    exact hs.same rfl rfl rfl rfl rfl rfl rfl

end Alert

/-- **No wake is lost**: in every order of steps and with any callbacks, a worker that waits for
what has come finds a token, so it can take its next step. -/
theorem no_lost_wake {target : ℕ} {s : Tx} (h : (machine target).Reachable s) {pc : Pc}
    (hwait : s.worker.Waits pc) (hcome : s.satisfied target = true) :
    s.wake = true ∧ s.work target .go = some { s with wake := false, worker := pc } := by
  have hinv : s.Alert target := by
    refine h.invariant (fun s hs => ?_) fun s a s' hs hnext => hs.step hnext
    exact .of_unsatisfied (by unfold Tx.satisfied; rw [hs.worker])
  refine ⟨hinv hcome, ?_⟩
  unfold Tx.work
  cases hw : s.worker <;> rw [hw] at hwait <;> cases hwait <;>
  · dsimp only
    unfold Tx.woken
    rw [if_pos (hinv hcome)]

end Transmit

end Hil

end LeAudioReceiver
