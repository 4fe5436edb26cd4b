import Mathlib.Tactic.Common

/-!
# Delayable work items

The states of a delayable work item of a real-time kernel's work queue.  An item can be pending
(delayed or queued) and running at once.  Scheduling does nothing while it is pending or while a
cancellation of the running handler is not finished; cancelling takes a pending item back, and
marks a running one until its handler returns.
-/

namespace LeAudioReceiver

namespace WorkQueue

/-- A delayable work item. -/
structure Item where
  /-- Delayed or queued. -/
  pending : Bool
  /-- The handler has been called and has not returned. -/
  running : Bool
  /-- The running handler is being cancelled. -/
  canceling : Bool
  /-- Only a running item is being cancelled, and it was taken back. -/
  wf : canceling = true → running = true ∧ pending = false
  deriving DecidableEq

namespace Item

/-- An item that nobody has scheduled. -/
def idle : Item := ⟨false, false, false, fun h => Bool.noConfusion h⟩

variable (i : Item)

/-- Scheduling finds the item pending or being cancelled, and does nothing. -/
def refuses : Bool := i.pending || i.canceling

/-- Scheduling; the queue may reject the item. -/
def schedule (accepted : Bool) : Item :=
  if i.refuses || !accepted then i
  else ⟨true, i.running, false, fun h => Bool.noConfusion h⟩

/-- The scheduling was rejected, and the caller is told. -/
def rejected (accepted : Bool) : Bool := !i.refuses && !accepted

/-- Cancelling. -/
def cancel : Item := ⟨false, i.running, i.running, fun h => ⟨h, rfl⟩⟩

/-- An item that the queue has taken to call its handler. -/
def taken : Item := ⟨false, true, false, fun h => Bool.noConfusion h⟩

/-- The handler returns. -/
def finish : Item := ⟨i.pending, false, false, fun h => Bool.noConfusion h⟩

variable {i}

theorem schedule_pending_of_pending (h : i.pending = true) (accepted : Bool) :
    (i.schedule accepted).pending = true := by
  unfold schedule
  split_ifs
  · exact h
  · rfl

theorem schedule_pending (hc : i.canceling = false) {accepted : Bool}
    (hr : i.rejected accepted = false) : (i.schedule accepted).pending = true := by
  unfold schedule
  split_ifs with h
  · cases accepted <;> simp_all [refuses, rejected]
  · rfl

theorem schedule_canceling (hc : i.canceling = false) (accepted : Bool) :
    (i.schedule accepted).canceling = false := by
  unfold schedule
  split_ifs
  · exact hc
  · rfl

@[simp]
theorem schedule_running (accepted : Bool) : (i.schedule accepted).running = i.running := by
  unfold schedule
  split_ifs <;> rfl

/-- Only a running item is being cancelled. -/
theorem canceling_of_running (h : i.running = false) : i.canceling = false := by
  by_contra hc
  have := (i.wf (by simpa using hc)).1
  rw [h] at this
  exact Bool.noConfusion this

end Item

end WorkQueue

end LeAudioReceiver
