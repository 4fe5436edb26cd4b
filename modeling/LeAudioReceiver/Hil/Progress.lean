import LeAudioReceiver.Hil.Steps

/-!
# The way through a run

The places of the worker in the order in which it comes to them.  A step of the worker goes on to a
later place, begins the one other segment, or takes one more turn of a wait, of a retry or of the
transmit stage.

* `App.ahead` : how much of the run is ahead of the worker;
* `App.work_enabled` : while a run is in progress the worker has a next step;
* `App.Works.progress` : **a step of the worker takes a turn, or less is ahead**.
-/

namespace LeAudioReceiver

namespace Hil

/-! ### Inside of a run -/

/-- Inside of `hil_app_run`, before its last record is out. -/
def Pc.inside : Pc → Bool
  | .waiting | .done => false
  | _ => true

theorem Pc.ne_waiting {pc : Pc} (h : pc.inside = true) : pc ≠ .waiting := by
  rintro rfl
  cases h

theorem Pc.Moves.inside {pc pc' : Pc} (h : pc.Moves pc') :
    pc.inside = true ∧ pc'.inside = true := by
  cases h with
  | @finished o => cases o <;> exact ⟨rfl, rfl⟩
  | fails hpc => cases pc <;> first | exact ⟨rfl, rfl⟩ | cases hpc
  | _ => exact ⟨rfl, rfl⟩

theorem Pc.Checks.inside {pc pc' : Pc} (h : pc.Checks pc') :
    pc.inside = true ∧ pc'.inside = true := by
  cases h <;> exact ⟨rfl, rfl⟩

/-- The run of an accepted START whose terminal record is not out. -/
def App.inProgress (s : App) : Bool := s.worker.inside || (s.worker = .waiting && s.semWorker)

/-! ### The order of the places -/

/-- The order of the operations. -/
def BackendOp.index : BackendOp → ℕ
  | connect => 0
  | security => 1
  | discover => 2
  | configure => 3
  | qos => 4
  | enable => 5
  | streamConnect => 6
  | start => 7

/-- The place of a state record in the order of the places. -/
def RunState.position : RunState → ℕ
  | idle => 2
  | configured => 4
  | connecting => 7
  | secured => 21
  | discovered => 27
  | qos => 39
  | streaming => 60
  | scoredComplete => 61
  | teardown => 65

/-- The order in which the worker comes to the places of a segment. -/
def Pc.position : Pc → ℕ
  | waiting => 79
  | entry => 1
  | advance k => k.position - 1
  | emit k => k.position
  | top => 5
  | shape => 8
  | retry o => 10 + 6 * o.index
  | kick o => 11 + 6 * o.index
  | sample o => 12 + 6 * o.index
  | wait o => 13 + 6 * o.index
  | txStart => 58
  | txReset => 61
  | tx => 62
  | drained => 63
  | cleanup false => 66
  | cleanupRest false => 67
  | decide => 68
  | publish => 69
  | abortRead _ => 70
  | abortEdge _ _ => 71
  | abortEmit _ _ => 72
  | cleanup true => 73
  | cleanupRest true => 74
  | abortReport _ => 75
  | abortTerminal => 76
  | abortEmitTerminal => 77
  | done => 78

/-- A turn of a wait, of a retry or of the transmit stage.  The source bounds them by a timeout, by
a number of retries and by the number of SDUs. -/
def Pc.turn : Pc → Pc → Bool
  | kick o, retry o' | wait o, sample o' | wait o, kick o' | wait o, retry o' => o = o'
  | tx, tx => true
  | _, _ => false

theorem Pc.position_le (pc : Pc) : pc.position ≤ 79 := by
  cases pc with
  | advance k | emit k => cases k <;> decide
  | kick o | retry o | sample o | wait o => cases o <;> decide
  | cleanup aborting | cleanupRest aborting => cases aborting <;> decide
  | _ => simp [Pc.position]

theorem Pc.position_fallible {pc : Pc} (h : pc.fallible = true) : pc.position < 70 := by
  cases pc with
  | kick o | retry o | sample o | wait o => cases o <;> decide
  | cleanupRest aborting =>
    cases aborting with
    | false => decide
    | true => cases h
  | txStart | tx => decide
  | _ => cases h

theorem Pc.Moves.position {pc pc' : Pc} (h : pc.Moves pc') :
    pc.turn pc' = true ∨ pc.position < pc'.position := by
  cases h with
  | kickAgain | slice | nextStream | retryStream | tx => exact .inl (by simp [Pc.turn])
  | @finished o => cases o <;> exact .inr (by decide)
  | @cleanup aborting => cases aborting <;> exact .inr (by decide)
  | fails hpc => exact .inr (Pc.position_fallible hpc)
  | _ => exact .inr (by simp [Pc.position, RunState.position, BackendOp.index])

theorem Pc.Checks.position {pc pc' : Pc} (h : pc.Checks pc') :
    pc.turn pc' = true ∨ pc.position < pc'.position := by
  cases h with
  | tx => exact .inl rfl
  | _ => exact .inr (by simp [Pc.position])

theorem RunState.position_afterEmit (k : RunState) :
    k.position < (App.afterEmit k).position := by
  cases k <;> decide

theorem RunState.position_advance (k : RunState) :
    k.position - 1 < k.position ∧ k.position - 1 < 70 := by
  cases k <;> decide

namespace App

/-- While a run is in progress the worker has a next step. -/
theorem work_enabled {s : App} (h : s.inProgress = true) : ∃ a, (s.work a).isSome = true := by
  cases hpc : s.worker with
  | waiting =>
    have hsem : s.semWorker = true := by simpa [inProgress, hpc, Pc.inside] using h
    exact ⟨.go, by simp [work, hpc, hsem]⟩
  | done => simp [inProgress, hpc, Pc.inside] at h
  | emit k => exact ⟨.emitted .queued, by simp [work, hpc]⟩
  | abortEmit cause attempts => exact ⟨.emitted .queued, by simp [work, hpc]⟩
  | abortEmitTerminal => exact ⟨.emitted .queued, by simp [work, hpc]⟩
  | kick o => exact ⟨.returned 0, by simp [work, hpc]⟩
  | wait o => exact ⟨.returned 0, by simp [work, hpc]⟩
  | txStart => exact ⟨.returned 0, by simp [work, hpc]⟩
  | cleanupRest aborting =>
    cases aborting <;> exact ⟨.returned 0, by simp [work, hpc]⟩
  | tx => exact ⟨.tx .check, by simp [work, hpc, txWork]⟩
  | publish => exact ⟨.published .queued .queued, by simp [work, hpc]⟩
  | decide =>
    refine ⟨.go, ?_⟩
    unfold work
    rw [hpc]
    dsimp only
    split_ifs
    · split <;> rfl
    · rfl
  | abortEdge err stop =>
    refine ⟨.go, ?_⟩
    unfold work
    rw [hpc]
    dsimp only
    split <;> rfl
  | _ => exact ⟨.go, by simp [work, hpc]⟩

/-- How much of the run is ahead of the worker: a segment counts for more than all places. -/
def ahead (s : App) : ℕ :=
  (if s.run.reconnectUsed then 0 else 100) +
    (100 - if s.semWorker then 0 else s.worker.position)

theorem ahead_lt {s s' : App} (hsem : s.semWorker = false) (hsem' : s'.semWorker = false)
    (hused : s'.run.reconnectUsed = s.run.reconnectUsed)
    (hpos : s.worker.position < s'.worker.position) : s'.ahead < s.ahead := by
  have hle := s'.worker.position_le
  unfold ahead
  rw [hsem, hsem', hused]
  simp only [Bool.false_eq_true, if_false]
  omega

/-- A step of the worker takes a turn, or less of the run is ahead. -/
theorem Works.progress {s s' : App} {a : Answer} (h : Works s a s') (ha : a.queued = true)
    (hsem : s.worker ≠ .waiting → s.semWorker = false) :
    s.worker.turn s'.worker = true ∨ s'.ahead < s.ahead := by
  cases h with
  | wake hpc hwoken =>
    refine .inr ?_
    unfold ahead
    simp only [hwoken, if_true, Bool.false_eq_true, if_false, Pc.position]
    omega
  | moves hmove hcore =>
    have hnone := hsem (Pc.ne_waiting hmove.inside.1)
    have hused := State.eq_of_core hcore _ State.core_reconnectUsed
    exact hmove.position.imp_right fun hlt => ahead_lt hnone hnone hused hlt
  | checked hcheck =>
    have hnone := hsem (Pc.ne_waiting hcheck.inside.1)
    exact hcheck.position.imp_right fun hlt => ahead_lt hnone hnone rfl hlt
  | @emitted k hpc =>
    have hnone := hsem (by rw [hpc]; simp)
    exact .inr (ahead_lt hnone hnone rfl (hpc ▸ k.position_afterEmit))
  | unemitted _ hne => exact absurd (of_decide_eq_true ha) hne
  | @advanced k hpc =>
    have hnone := hsem (by rw [hpc]; simp)
    refine .inr (ahead_lt hnone hnone rfl ?_)
    rw [hpc]
    exact k.position_advance.1
  | @unadvanced k err hpc =>
    have hnone := hsem (by rw [hpc]; simp)
    refine .inr (ahead_lt hnone hnone rfl ?_)
    rw [hpc]
    exact k.position_advance.2
  | enter hpc | connecting hpc | reconnecting hpc =>
    have hnone := hsem (by rw [hpc]; simp)
    exact .inr (ahead_lt hnone hnone rfl (by simp [hpc, Pc.position, RunState.position]))
  | scored hpc => exact .inl (by simp [hpc, Pc.turn, goto])
  | unscored _ hne => exact absurd (of_decide_eq_true ha) hne
  | nextSegment hpc _ _ _ _ hused =>
    -- the places begin anew, but no other segment is left
    have hnone := hsem (by rw [hpc]; simp)
    refine .inr ?_
    unfold ahead
    simp only [hnone, hused, hpc, State.reconnected, Pc.position, Bool.false_eq_true, if_false,
      if_true]
    omega
  | unpassed raised errored hpc hcore =>
    have hnone := hsem (by rw [hpc]; simp)
    have hused := State.of_core hcore State.reconnectUsed State.core_reconnectUsed
    rw [State.failedCore_reconnectUsed] at hused
    obtain ⟨-, hqueued⟩ := Bool.and_eq_true_iff.1 ha
    obtain rfl := of_decide_eq_true hqueued
    exact .inr (ahead_lt hnone hnone hused (by simp [hpc, Pc.position, goto]))
  | abortEdge hpc _ _ _ hcore =>
    have hnone := hsem (by rw [hpc]; simp)
    have hused := State.of_core hcore State.reconnectUsed State.core_reconnectUsed
    exact .inr (ahead_lt hnone hnone hused (by simp [hpc, Pc.position]))
  | lateAbort hpc _ hcore =>
    have hnone := hsem (by rw [hpc]; simp)
    have hused := State.eq_of_core hcore _ State.core_reconnectUsed
    exact .inr (ahead_lt hnone hnone hused (by simp [hpc, Pc.position]))
  | abortUnemitted _ hne => exact absurd (of_decide_eq_true ha) hne
  | terminated hpc hcore =>
    have hnone := hsem (by rw [hpc]; simp)
    have hused := State.of_core hcore State.reconnectUsed State.core_reconnectUsed
    rw [State.failedCore_reconnectUsed] at hused
    exact .inr (ahead_lt hnone hnone hused (by simp [hpc, Pc.position]))
  | ended hpc =>
    have hnone := hsem (by rw [hpc]; simp)
    obtain rfl := of_decide_eq_true ha
    exact .inr (ahead_lt hnone hnone rfl (by simp [hpc, Pc.position, goto]))
  | unconnecting hpc | incomplete hpc | noSegment hpc | last hpc | passed hpc
  | abortEmitted hpc | done hpc =>
    have hnone := hsem (by rw [hpc]; simp)
    exact .inr (ahead_lt hnone hnone rfl (by simp [hpc, Pc.position, goto]))

end App

end Hil

end LeAudioReceiver
