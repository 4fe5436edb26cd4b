import LeAudioReceiver.Hil.StatusLine
import LeAudioReceiver.Hil.TransmitAccount

/-!
# Statuses in runs of the transmit stage

What a STATUS of the configured run does to a run: its line is enqueued and nothing changes, or the
line is too long and the run is aborted.

* `Query` : a STATUS with what it shows;
* `status_fits_iff` : **a status has a line exactly while its fields leave room, and only such
  statuses leave a run alone**;
* `late_status` : a run that reaches a status without a line.

The run has two streams whose batches are all late: an interval of events passes before each of
them, so the pin catches up by the events that were skipped.  `Transmit.late_batch` is one batch,
and `Transmit.late_end` the end of the stage.
-/

namespace LeAudioReceiver

namespace Hil

open Json (Text)
open Transmit (Tx Reached)

/-! ### Statuses -/

/-- STATUS of the configured run. -/
structure Query where
  header : Header
  shown : Shown
  ok : header.ok = true

namespace Query

/-- The status shows what the stage keeps. -/
structure Of (q : Query) (s : Tx) : Prop where
  run : q.shown.run = s.run
  stream : q.shown.stream = s.stream

/-- The line of the status. -/
def line (q : Query) : Except EmitError Text := statusLine q.header q.shown

/-- The fields of the status leave room for it in a line of the output. -/
def fits (q : Query) : Bool := lineWidth q.header q.shown ≤ outputLineSize

/-- What becomes of the status while the output queue has room. -/
def emission (q : Query) : Emission := Hil.emission q.line true

theorem line_iff (q : Query) : (∃ line, q.line = .ok line) ↔ q.fits = true := by
  unfold line fits
  rw [statusLine_eq q.ok, decide_eq_true_eq]
  split_ifs with hfits hnear
  · exact ⟨fun _ => hfits, fun _ => ⟨_, rfl⟩⟩
  · exact ⟨nofun, fun hle => absurd hle hfits⟩
  · exact ⟨nofun, fun hle => absurd hle hfits⟩

theorem emission_queued (q : Query) : q.emission = .queued ↔ q.fits = true := by
  rw [← q.line_iff]
  unfold emission
  cases hline : q.line with
  | ok line => exact ⟨fun _ => ⟨line, rfl⟩, fun _ => rfl⟩
  | error e => cases e <;> exact ⟨nofun, nofun⟩

/-- A status that does not fit aborts an active run. -/
theorem emitStatus_iff (q : Query) {s : Tx} (hactive : s.run.active = true) :
    (s.emitStatus q.emission).runtimeError = true ↔ s.runtimeError = true ∨ q.fits = false := by
  have hqueued := q.emission_queued
  cases he : q.emission with
  | queued =>
    rw [hqueued.1 he]
    exact ⟨.inl, fun h => h.resolve_right nofun⟩
  | refused =>
    have hfits : q.fits = false := Bool.eq_false_iff.2 fun h => nomatch he ▸ hqueued.2 h
    exact ⟨fun _ => .inr hfits, fun _ => rfl⟩
  | unformatted =>
    have hfits : q.fits = false := Bool.eq_false_iff.2 fun h => nomatch he ▸ hqueued.2 h
    refine ⟨fun _ => .inr hfits, fun _ => ?_⟩
    unfold Tx.emitStatus
    rw [if_pos hactive]
    rfl

end Query

/-! ### Runs -/

/-- The statuses of a run fit. -/
def Transmit.Tx.Fitting (s : Tx) : Tx.Action → Prop
  | .status e => ∃ q : Query, q.Of s ∧ q.fits = true ∧ e = q.emission
  | _ => True

/-- No status is asked for. -/
def Transmit.Tx.Unasked (_ : Tx) : Tx.Action → Prop
  | .status _ => False
  | _ => True

/-- A run whose statuses fit is a run without them. -/
theorem Transmit.fitting_run {target : ℕ} {s : Tx}
    (h : (Transmit.machine target).ReachableBy Tx.Fitting s) :
    (Transmit.machine target).ReachableBy Tx.Unasked s := by
  induction h with
  | init hs => exact .init hs
  | @step s s' a _ hfit hnext ih =>
    cases a with
    | status e =>
      obtain ⟨q, -, hq, rfl⟩ := hfit
      change (if _ then none else some (s.emitStatus q.emission)) = some s' at hnext
      rw [q.emission_queued.2 hq] at hnext
      split_ifs at hnext
      exact Option.some.inj hnext ▸ ih
    | work a => exact .step (a := .work a) ih trivial hnext
    | sent i => exact .step (a := .sent i) ih trivial hnext
    | stop e => exact .step (a := .stop e) ih trivial hnext
    | tick ms => exact .step (a := .tick ms) ih trivial hnext

/-- **When a status fits**: its scratch buffers always hold it, it has a line exactly while its
fields leave room, only a status that does not fit aborts an active run, and a run whose statuses
all fit is a run without them. -/
theorem status_fits_iff (q : Query) (target : ℕ) (s : Tx) :
    (∃ streams, appendStreams q.shown q.shown.run.config.mode.indices [] = .ok streams) ∧
      (txText q.shown true).length < txJsonSize ∧
      ((∃ line, q.line = .ok line) ↔ q.fits = true) ∧
      (q.Of s → s.run.active = true →
        ((s.emitStatus q.emission).runtimeError = true ↔
          s.runtimeError = true ∨ q.fits = false)) ∧
      ((Transmit.machine target).ReachableBy Tx.Fitting s →
        (Transmit.machine target).ReachableBy Tx.Unasked s) :=
  ⟨⟨_, (appendStreams_eq q.shown).1⟩, length_txText_lt q.shown true, q.line_iff,
    fun _ hactive => q.emitStatus_iff hactive, Transmit.fitting_run⟩

namespace Transmit

/-! ### A run with late batches -/

/-- Two streams with as many scored SDUs as a run can have. -/
def lateArg : ConfigArg :=
  { mode := some .modeA, profile := some .p48_4_1, peerAddress := fun _ => 0
    peerAddressType := some .pub, scoredSduCount := 20000, signalSeed := 1
    reconnectPolicy := some .once }

/-- The run state at the start of the stage. -/
def lateStart : State :=
  [Op.configure lateArg, .start, .advance (some .configured), .advance (some .connecting),
    .advance (some .secured), .advance (some .discovered), .advance (some .qos),
    .advance (some .streaming)].foldl (fun s op => (s.call op).1) .zero

/-- The counters of a stream that sent `k` SDUs, of which `called` are called back. -/
def lateCounter (k called : ℕ) : StreamCounter :=
  ⟨UInt32.ofNat k, UInt32.ofNat (min (k - 144) 20000), 0, UInt32.ofNat called⟩

/-- The run state where the streams sent `k` SDUs and the encoders are at the stage of SDU `n`. -/
def lateRun (k n : ℕ) : State :=
  { lateStart with
      currentState := if n < 20144 then .streaming else .scoredComplete
      counters := fun _ => lateCounter k k }

/-- The timestamp of the bootstrap SDU. -/
def lateAnchor : UInt32 := 2000000000

/-- The uptime behind `k` batches. -/
def lateUptime (k : ℕ) : ℕ := 1000000000 + 510 * k

/-- The pin of an event. -/
def latePin (event : ℕ) : UInt32 := movePin lateAnchor event 10000

/-- A stream behind `k` batches. -/
def lateStream (k : ℕ) (i : Fin 2) : Stream :=
  { outstanding := 0, seq := UInt16.ofNat (k + if i = 0 then 1 else 0), submitted := k
    lastActivity := lateUptime k, next := latePin (51 * k + 1), pinAdvances := UInt32.ofNat (50 * k)
    readback := if i = 0 then lateAnchor else 0, pinLast := if k = 0 then 0 else latePin (51 * k)
    leadMin := if k = 0 then int32Max else 2500, leadMax := if k = 0 then int32Min else 2500
    leadCnt := UInt32.ofNat k, leadUnder := 0, syncLast := 0, syncCnt := 0 }

/-- The stage behind `k` batches, with the encoders at the stage of SDU `n`. -/
def lateTx (k n : ℕ) (pc : Pc) : Tx :=
  { run := lateRun k n, stream := lateStream k, active := true, anchorPending := false
    readbackDue := false, encStage := frameStage n 144 20000
    scoredCompleteEmitted := decide (20144 ≤ n), runtimeError := false, wake := true
    uptime := lateUptime k, worker := pc }

/-- The stage between two batches. -/
def lateTop (k : ℕ) : Tx := lateTx k (k - 1) .top

/-- The call of the stage. -/
def lateEntry : Tx :=
  { run := lateStart, stream := fun _ => .reset 0, active := false, anchorPending := false
    readbackDue := false, encStage := .preamble, scoredCompleteEmitted := false
    runtimeError := false, wake := false, uptime := lateUptime 0, worker := .entry }

theorem lateEntry_called : lateEntry.Called := ⟨rfl, rfl, by decide, rfl⟩

/-- What the call reaches. -/
def LateReached (s : Tx) : Prop := ∃ h, ReachedFrom 3 lateEntry s h

theorem LateReached.act {s s' : Tx} (hs : LateReached s) (a : Tx.Action)
    (hadmits : s.admits a = true) (hnext : s.next 3 a = some s') : LateReached s' :=
  ReachedFrom.act (by decide) lateEntry_called hs a hadmits hnext

theorem LateReached.same {s t : Tx} (hs : LateReached s)
    (hrest : { s with run := t.run, stream := t.stream } = t) (hrun : s.run = t.run)
    (hstream : ∀ i, s.stream i = t.stream i) : LateReached t := by
  rwa [← hrest, ← hrun, ← funext hstream]

theorem late_start : LateReached (lateTop 0) := by
  have hentry : LateReached lateEntry := ⟨.empty, .init rfl⟩
  have hreset := hentry.act (.work .go) rfl rfl
  have hencoders := hreset.act (.work (.returned 0)) rfl rfl
  have hencoded := hencoders.act (.work (.returned 0)) rfl rfl
  have hchecked := hencoded.act (.work .go) rfl rfl
  have haccounted := hchecked.act (.work .go) rfl rfl
  have hsent := haccounted.act (.work (.returned 0)) rfl rfl
  have hpoll := hsent.act (.work .go) rfl rfl
  have hcalled := hpoll.act (.sent 0) rfl rfl
  have hdue := hcalled.act (.work .go) rfl rfl
  have hreadback := hdue.act (.work .go) rfl rfl
  have hanchored := hreadback.act (.work (.stamp lateAnchor)) rfl rfl
  have htop := hanchored.act (.work (.returned 0)) rfl rfl
  refine htop.same rfl rfl fun i => ?_
  match i with
  | 0 => rfl
  | 1 => rfl

/-! ### A batch -/

section Config

variable {s : Tx} (hconfig : s.run.config = lateStart.config)

include hconfig

theorem late_preamble : s.preamble = 144 := by
  have hfixed : preambleFrames lateStart.config.profile = 144 := by decide +kernel
  unfold Tx.preamble
  rw [hconfig, hfixed]

theorem late_scored : s.scored = 20000 := by
  have hfixed : lateStart.config.scoredSduCount.toNat = 20000 := by decide +kernel
  unfold Tx.scored
  rw [hconfig, hfixed]

theorem late_total : s.perStreamTotal = 20644 := by
  have hfixed : tailFrames lateStart.config.profile = 500 := by decide +kernel
  unfold Tx.perStreamTotal
  rw [late_preamble hconfig, late_scored hconfig, hconfig, hfixed]

theorem late_stageOf (i : Fin 2) :
    s.stageOf i = frameStage (s.stream i).submitted 144 20000 := by
  unfold Tx.stageOf
  rw [late_preamble hconfig, late_scored hconfig]

end Config

theorem lateRun_state {k m n : ℕ} (h : m < 20144 ↔ n < 20144) : lateRun k m = lateRun k n := by
  unfold lateRun
  simp only [h]

theorem lateTx_stage {k m n : ℕ} {pc : Pc} (h : m < 20144 ↔ n < 20144)
    (hstage : frameStage m 144 20000 = frameStage n 144 20000) : lateTx k m pc = lateTx k n pc := by
  have hemitted : (20144 ≤ m) = (20144 ≤ n) := propext (by omega)
  unfold lateTx
  simp only [lateRun_state h, hstage, hemitted]

theorem late_turn {k : ℕ} (hk : k < 20644) :
    (lateTop k).turn 3 .queued true = lateTx k k (.encode 0 (latePin (51 * k + 1))) := by
  have hfinished : (lateTop k).finished = false := by
    have hleft (i : Fin 2) : ¬(lateTop k).perStreamTotal ≤ ((lateTop k).stream i).submitted := by
      rw [late_total rfl]
      exact Nat.not_le.2 hk
    unfold Tx.finished
    simp only [hleft, decide_false]
    rfl
  have hstages : ((lateTop k).run.config.mode.allStreams fun i =>
      (lateTop k).stageOf i = (lateTop k).stageOf 0) = true := by
    have hstage (i : Fin 2) : (lateTop k).stageOf i = frameStage k 144 20000 :=
      late_stageOf rfl i
    simp only [hstage, decide_true]
    rfl
  have hstop : ¬(lateTop k).stopPending = true := nofun
  have hspace : ¬(!(lateTop k).canSend 3) = true := nofun
  unfold Tx.turn
  rw [if_neg hstop, if_neg (by rw [hfinished]; nofun), if_neg hspace, if_pos hstages]
  -- the encoders change at two SDUs only
  by_cases hscored : k = 144
  · subst hscored
    rfl
  by_cases htail : k = 20144
  · subst htail
    rfl
  have hstage : frameStage (k - 1) 144 20000 = frameStage k 144 20000 := by
    unfold frameStage
    split_ifs <;> first | rfl | omega
  have hsame : (lateTop k).stageOf 0 = (lateTop k).encStage :=
    (late_stageOf rfl 0).trans hstage.symm
  unfold Tx.ensureStage
  rw [if_pos hsame]
  exact lateTx_stage (by omega) hstage

theorem pinAhead_inTime (pin : UInt32) : pinAhead pin (pin - 2500) = 2500 := by
  have hpin := stamps_toNat pin
  have hnow : Stamps (pin - 2500) (pin.toNat - (2500 : ℕ)) := hpin.sub (stamps_ofNat 2500)
  have hclose : HalfWrap pin.toNat (pin.toNat - (2500 : ℕ)) := by
    unfold HalfWrap
    omega
  rw [hpin.pinAhead hnow hclose]
  omega

theorem catchUpPin_inTime (pin : UInt32) : catchUpPin pin (pin - 2500) 10000 = (pin, 0) := by
  have hzero : (catchUpPin pin (pin - 2500) 10000).2 = 0 := by
    unfold catchUpPin
    rw [pinAhead_inTime]
    rfl
  exact Prod.ext (catchUpPin_fst hzero) hzero

theorem catchUpPin_late (pin : UInt32) :
    catchUpPin pin (movePin pin 50 10000 - 2500) 10000 = (movePin pin 50 10000, 50) := by
  have hpin := stamps_toNat pin
  have hnow : Stamps (movePin pin 50 10000 - 2500)
      (pin.toNat + (50 : ℕ) * (10000 : ℕ) - (2500 : ℕ)) :=
    (hpin.movePin 50 10000).sub (stamps_ofNat 2500)
  have hclose : HalfWrap pin.toNat (pin.toNat + (50 : ℕ) * (10000 : ℕ) - (2500 : ℕ)) := by
    unfold HalfWrap
    omega
  have hahead : pinAhead pin (movePin pin 50 10000 - 2500) = -497500 := by
    rw [hpin.pinAhead hnow hclose]
    omega
  unfold catchUpPin
  rw [hahead]
  rfl

theorem latePin_add (event n : ℕ) : movePin (latePin event) n 10000 = latePin (event + n) :=
  movePin_movePin lateAnchor event n 10000

/-! ### The counters -/

theorem ofNat_ne_max {k : ℕ} (hk : k < 20644) : UInt32.ofNat k ≠ uint32Max := by
  intro hmax
  have hnat := congrArg UInt32.toNat hmax
  rw [UInt32.toNat_ofNat', Nat.mod_eq_of_lt (by omega)] at hnat
  have htop : uint32Max.toNat = 4294967295 := rfl
  omega

theorem late_lt (i : Fin 2) : i.val < lateStart.config.mode.streamCount := i.isLt

theorem late_submit {s : Tx} {i : Fin 2} {k called : ℕ} (hk : k < 20644)
    (hactive : s.run.active = true) (hconfig : s.run.config = lateStart.config)
    (hcounter : s.run.counters i = lateCounter k called)
    (hsubmitted : (s.stream i).submitted = k) :
    s.run.call (s.submitOp i) = (s.run.counted i (lateCounter (k + 1) called), none) := by
  have hi : i.val < s.run.config.mode.streamCount := hconfig ▸ late_lt i
  have hfull : (s.run.counters i).submittedSdus ≠ uint32Max := by
    rw [hcounter]
    exact ofNat_ne_max hk
  have hnext : UInt32.ofNat (k + 1) = UInt32.ofNat k + 1 := UInt32.ofNat_add k 1
  unfold Tx.submitOp
  rw [late_stageOf hconfig, hsubmitted]
  split_ifs with hscored
  · have hrange : 144 ≤ k ∧ k < 20144 := by
      unfold frameStage at hscored
      split_ifs at hscored
      omega
    have hmin : min (k + 1 - 144) 20000 = min (k - 144) 20000 + 1 := by omega
    have hcount : UInt32.ofNat (min (k + 1 - 144) 20000) =
        UInt32.ofNat (min (k - 144) 20000) + 1 := by
      rw [hmin]
      exact UInt32.ofNat_add _ 1
    have hscoredFull : (s.run.counters i).submittedScoredSdus ≠ uint32Max := by
      rw [hcounter]
      exact ofNat_ne_max (by omega)
    change s.run.counterSubmitScored i = _
    unfold State.counterSubmitScored
    rw [State.counterOp_eq hactive hi (by simp [hfull, hscoredFull]), hcounter]
    unfold lateCounter
    rw [hnext, hcount]
  · have hmin : min (k + 1 - 144) 20000 = min (k - 144) 20000 := by
      unfold frameStage at hscored
      split_ifs at hscored <;> first | omega | exact absurd rfl hscored
    change s.run.counterSubmit i = _
    unfold State.counterSubmit
    rw [State.counterOp_eq hactive hi (decide_eq_false hfull), hcounter]
    unfold lateCounter
    rw [hnext, hmin]

theorem late_callback {run : State} {i : Fin 2} {k called : ℕ} (hk : called < 20644)
    (hactive : run.active = true) (hconfig : run.config = lateStart.config)
    (hcounter : run.counters i = lateCounter k called) :
    run.call (.counterSentCallback i) = (run.counted i (lateCounter k (called + 1)), none) := by
  have hi : i.val < run.config.mode.streamCount := hconfig ▸ late_lt i
  have hfull : (run.counters i).sentCallbacks ≠ uint32Max := by
    rw [hcounter]
    exact ofNat_ne_max hk
  have hcalled : UInt32.ofNat (called + 1) = UInt32.ofNat called + 1 := UInt32.ofNat_add called 1
  change run.counterSentCallback i = _
  unfold State.counterSentCallback
  rw [State.counterOp_eq hactive hi (decide_eq_false hfull), hcounter]
  unfold lateCounter
  rw [hcalled]

theorem lateRun_succ (k : ℕ) :
    ((((lateRun k k).counted 0 (lateCounter (k + 1) k)).counted 1 (lateCounter (k + 1) k)).counted 0
      (lateCounter (k + 1) (k + 1))).counted 1 (lateCounter (k + 1) (k + 1)) =
      lateRun (k + 1) k := by
  have hcounters : (fun j => if j = 1 then lateCounter (k + 1) (k + 1) else
      if j = 0 then lateCounter (k + 1) (k + 1) else if j = 1 then lateCounter (k + 1) k else
        if j = 0 then lateCounter (k + 1) k else lateCounter k k) =
      fun _ : Fin 2 => lateCounter (k + 1) (k + 1) := by
    funext j
    match j with
    | 0 => rfl
    | 1 => rfl
  exact congrArg (fun counters => { lateRun (k + 1) k with counters := counters }) hcounters

theorem lateStream_succ {k : ℕ} (hk : k < 20644) (i : Fin 2) :
    { ({ ((lateStream k i).advancePin (latePin (51 * (k + 1))) 50).accepted (lateUptime (k + 1))
          (latePin (51 * (k + 1))) 2500 with
        next := movePin (latePin (51 * (k + 1))) 1 10000 } : Stream).drop with
      lastActivity := lateUptime (k + 1) } = lateStream (k + 1) i := by
  have hcnt : UInt32.ofNat k = 0 ↔ k = 0 := by
    rw [← UInt32.toNat_inj, UInt32.toNat_ofNat', Nat.mod_eq_of_lt (by omega)]
    rfl
  have hseq (n : ℕ) : UInt16.ofNat (k + n) + 1 = UInt16.ofNat (k + 1 + n) := by
    rw [Nat.add_right_comm, UInt16.ofNat_add (k + n)]
    rfl
  ext : 1
  · rfl
  · exact hseq (if i = 0 then 1 else 0)
  · rfl
  · rfl
  · exact latePin_add (51 * (k + 1)) 1
  · exact (UInt32.ofNat_add (50 * k) 50).symm
  · rfl
  · rfl
  · change (if UInt32.ofNat k = 0 then 2500 else min (if k = 0 then int32Max else 2500) 2500) = _
    simp only [hcnt]
    split_ifs <;> rfl
  · change (if UInt32.ofNat k = 0 then 2500 else max (if k = 0 then int32Min else 2500) 2500) = _
    simp only [hcnt]
    split_ifs <;> rfl
  · exact (UInt32.ofNat_add k 1).symm
  · rfl
  · rfl
  · rfl

/-! ### The steps of a batch -/

/-- The stage once the events of a batch have passed. -/
def lateOpen (k : ℕ) (pc : Pc) : Tx := { lateTx k k pc with uptime := lateUptime (k + 1) }

/-- The stage once the pin of a batch has caught up. -/
def lateSend (k : ℕ) (pc : Pc) : Tx :=
  { lateOpen k pc with stream := fun i => (lateStream k i).advancePin (latePin (51 * (k + 1))) 50 }

theorem late_advance (k : ℕ) (pc : Pc) (deadline : ℕ) :
    (lateOpen k pc).advancePin (latePin (51 * (k + 1))) 50 deadline =
      lateSend k (.pinCheck (latePin (51 * (k + 1))) deadline) := by
  have hstream : (fun j : Fin 2 => if j.val < 2 then
      (lateStream k j).advancePin (latePin (51 * (k + 1))) 50 else lateStream k j) =
      fun j => (lateStream k j).advancePin (latePin (51 * (k + 1))) 50 := by
    funext j
    exact if_pos j.isLt
  exact congrArg (fun stream =>
    { lateSend k (.pinCheck (latePin (51 * (k + 1))) deadline) with stream := stream }) hstream

/-- A batch whose events pass while it is encoded catches up. -/
theorem late_open {k : ℕ} (hk : k < 20644) (hs : LateReached (lateTop k)) :
    LateReached
      (lateSend k (.send 0 (latePin (51 * (k + 1))) (latePin (51 * (k + 1)) - 2500))) := by
  have hdeadline : ¬lateUptime (k + 1) + progressTimeoutMs ≤ lateUptime (k + 1) := by
    unfold progressTimeoutMs
    omega
  have hlt : lateUptime (k + 1) < lateUptime (k + 1) + progressTimeoutMs := Nat.not_le.1 hdeadline
  have hpin : movePin (latePin (51 * k + 1)) 50 10000 = latePin (51 * (k + 1)) := by
    rw [latePin_add]
    exact congrArg latePin (by omega)
  -- the fifty events that passed meanwhile are skipped
  have hlate : catchUpPin (latePin (51 * k + 1)) (latePin (51 * (k + 1)) - 2500) 10000 =
      (latePin (51 * (k + 1)), 50) := by
    rw [← hpin]
    exact catchUpPin_late _
  have htime : lateUptime k + 510 = lateUptime (k + 1) := by
    unfold lateUptime
    omega
  have hturn := hs.act (.work (.emitted .queued true)) rfl
    (congrArg some (late_turn hk))
  -- the time passes before the batch is encoded
  have hpassed : LateReached (lateOpen k (.encode 0 (latePin (51 * k + 1)))) := by
    refine hturn.act (.tick 510) rfl ?_
    unfold lateOpen
    rw [← htime]
    rfl
  have hfirst : LateReached (lateOpen k (.encode 1 (latePin (51 * k + 1)))) :=
    hpassed.act (.work (.returned 0)) rfl rfl
  have hsecond : LateReached (lateOpen k (.batch (latePin (51 * k + 1)))) :=
    hfirst.act (.work (.returned 0)) rfl rfl
  have hbatch : LateReached (lateOpen k (.pinCheck (latePin (51 * k + 1))
      (lateUptime (k + 1) + progressTimeoutMs))) :=
    hsecond.act (.work .go) rfl rfl
  have hread : LateReached (lateOpen k (.pinRead (latePin (51 * k + 1))
      (lateUptime (k + 1) + progressTimeoutMs))) :=
    hbatch.act (.work .go) rfl
      (congrArg some ((if_neg hdeadline).trans (Tx.checkStop_eq rfl)))
  have hcaught : LateReached (lateOpen k (.pinAdvance (latePin (51 * (k + 1))) 50
      (lateUptime (k + 1) + progressTimeoutMs))) :=
    hread.act (.work (.clock (latePin (51 * (k + 1)) - 2500))) rfl
      (congrArg some (Tx.timePin_caught hlt hlate (by decide)))
  have hadvanced := hcaught.act (.work .go) rfl
    (congrArg some (late_advance k _ (lateUptime (k + 1) + progressTimeoutMs)))
  -- a second reading finds the pin in time
  have hreread : LateReached (lateSend k (.pinRead (latePin (51 * (k + 1)))
      (lateUptime (k + 1) + progressTimeoutMs))) :=
    hadvanced.act (.work .go) rfl
      (congrArg some ((if_neg hdeadline).trans (Tx.checkStop_eq rfl)))
  have hgate : LateReached (lateSend k (.gate (latePin (51 * (k + 1))))) :=
    hreread.act (.work (.clock (latePin (51 * (k + 1)) - 2500))) rfl
      (congrArg some (Tx.timePin_inTime hlt (catchUpPin_inTime _)
        (by rw [pinAhead_inTime]; decide)))
  exact hgate.act (.work (.clock (latePin (51 * (k + 1)) - 2500))) rfl
    (congrArg some (Tx.passGate_inTime (catchUpPin_inTime _)))

theorem late_batch {k : ℕ} (hk : k < 20644) (hs : LateReached (lateTop k)) :
    LateReached (lateTop (k + 1)) := by
  set pin := latePin (51 * (k + 1)) with hpin
  set counted := lateCounter (k + 1) k
  set called := lateCounter (k + 1) (k + 1)
  have hahead : minAheadUs ≤ pinAhead pin (pin - 2500) := by
    rw [pinAhead_inTime]
    decide
  -- the first stream sends
  let first : Tx :=
    { (lateSend k .top).modify 0 (·.accepted (lateUptime (k + 1)) pin 2500) with
      run := (lateRun k k).counted 0 counted }
  have hfirst : LateReached (first.goto (.peer pin)) := by
    refine LateReached.act (late_open hk hs) (.work (.returned 0)) rfl
      (Tx.send_accepted rfl hahead (Tx.accepted_first ?_ rfl (pinAhead_inTime pin)))
    exact late_submit hk rfl rfl rfl rfl
  have hpeer : LateReached (first.goto (.send 1 pin (pin - 2500))) :=
    hfirst.act (.work (.clock (pin - 2500))) rfl rfl
  -- the second stream sends
  let second : Tx :=
    { first.modify 1 (·.accepted (lateUptime (k + 1)) pin 2500) with
      run := first.run.counted 1 counted }
  have hsecond : LateReached
      ((second.modifyAll fun t => { t with next := movePin pin 1 10000 }).goto .top) := by
    refine hpeer.act (.work (.returned 0)) rfl
      (Tx.send_accepted rfl hahead (Tx.accepted_last ?_ rfl (pinAhead_inTime pin)))
    exact late_submit hk rfl rfl rfl rfl
  -- both are called back
  have hstate : (lateRun k k).currentState ≠ .teardown := by
    unfold lateRun
    split_ifs <;> nofun
  have hcalled := hsecond.act (.sent 0) rfl
    (congrArg some (Tx.sent_batch rfl hstate rfl rfl nofun
      (late_callback (i := 0) (k := k + 1) hk rfl rfl rfl)))
  have hdone := hcalled.act (.sent 1) rfl
    (congrArg some (Tx.sent_batch rfl hstate rfl rfl nofun
      (late_callback (i := 1) (k := k + 1) hk rfl rfl rfl)))
  refine hdone.same rfl (lateRun_succ k) fun i => ?_
  match i with
  | 0 => exact lateStream_succ hk 0
  | 1 => exact lateStream_succ hk 1

/-! ### The end of the stage -/

theorem late_batches {k : ℕ} (hk : k ≤ 20644) : LateReached (lateTop k) := by
  induction k with
  | zero => exact late_start
  | succ k ih => exact late_batch hk (ih (Nat.le_of_succ_le hk))

/-- The stage behind its last batch. -/
def lateEnd : Tx :=
  { lateTx 20644 20643 (.returned 0) with
    stream := fun i =>
      { lateStream 20644 i with syncLast := latePin (51 * 20644), syncCnt := 1 } }

theorem lateEnd_reached : LateReached lateEnd := by
  have hdrain := LateReached.act (late_batches (Nat.le_refl 20644))
    (.work (.emitted .queued true)) rfl rfl
  have hsync : LateReached ((lateTop 20644).goto (.sync 0)) :=
    hdrain.act (.work .go) rfl rfl
  have hfirst := hsync.act (.work (.stamp (latePin (51 * 20644)))) rfl rfl
  have hsecond := hfirst.act (.work (.stamp (latePin (51 * 20644)))) rfl rfl
  refine hsecond.same rfl rfl fun i => ?_
  match i with
  | 0 => rfl
  | 1 => rfl

/-- **The end of the stage.** -/
theorem late_end : ∃ h, Reached 3 lateEnd h := by
  obtain ⟨h, hs⟩ := lateEnd_reached
  exact ⟨h, hs.reached lateEntry_called⟩

end Transmit

/-! ### A status that does not fit -/

theorem Transmit.lateEnd_inRange (i : Fin 2) : (Transmit.lateEnd.stream i).InRange := by
  match i with
  | 0 => exact ⟨by decide, by decide, by decide⟩
  | 1 => exact ⟨by decide, by decide, by decide⟩

/-- STATUS with the longest identifiers, while the peer has gone. -/
def lateQuery : Query where
  header :=
    { monotonicMs := UInt32.ofNat Transmit.lateEnd.uptime, commandId := List.replicate 63 'c'
      runId := List.replicate 64 'r', segment := Transmit.lateEnd.run.segment }
  shown :=
    { run := Transmit.lateEnd.run, stream := Transmit.lateEnd.stream
      backend :=
        { connPresent := false, securityLevel := 2, securityError := 0, discoveredSinkCount := 2
          groupPresent := true, disconnectReason := 100, firstAscsCode := 0
          firstAscsReason := 100, bondCount := 1 }
      inRange := Transmit.lateEnd_inRange }
  ok := by decide +kernel

/-- A run of the stage reaches a status that has no line, and aborts the run. -/
theorem late_status :
    (∃ h, Reached 3 Transmit.lateEnd h) ∧ lateQuery.Of Transmit.lateEnd ∧
      Transmit.lateEnd.run.active = true ∧ Transmit.lateEnd.run.currentState = .scoredComplete ∧
      lateQuery.line = .error .eoverflow ∧
      (Transmit.lateEnd.emitStatus lateQuery.emission).runtimeError = true := by
  have hwidth : lineWidth lateQuery.header lateQuery.shown = 1025 := by decide +kernel
  have hline : lateQuery.line = .error .eoverflow := by
    unfold Query.line
    rw [statusLine_eq lateQuery.ok, hwidth]
    rfl
  have hemission : lateQuery.emission = .refused := by
    unfold Query.emission
    rw [hline]
    rfl
  refine ⟨Transmit.late_end, ⟨rfl, rfl⟩, rfl, rfl, hline, ?_⟩
  rw [hemission]
  rfl

/-- The same status under an identifier that is one character shorter. -/
def shortQuery : Query :=
  { lateQuery with
    header := { lateQuery.header with commandId := List.replicate 62 'c' }
    ok := by decide +kernel }

/-- One character less, and the status has its line and leaves the run alone. -/
theorem status_fits_short :
    (∃ line, shortQuery.line = .ok line) ∧
      (Transmit.lateEnd.emitStatus shortQuery.emission).runtimeError = false := by
  have hfits : shortQuery.fits = true := by decide +kernel
  obtain ⟨-, -, hline, haborts, -⟩ := status_fits_iff shortQuery 3 Transmit.lateEnd
  refine ⟨hline.2 hfits, Bool.eq_false_iff.2 fun hraised => ?_⟩
  rcases (haborts ⟨rfl, rfl⟩ rfl).1 hraised with herror | hunfit
  · cases herror
  · exact absurd hfits (Bool.eq_false_iff.1 hunfit)

end Hil

end LeAudioReceiver
