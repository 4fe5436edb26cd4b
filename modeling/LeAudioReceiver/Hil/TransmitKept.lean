import LeAudioReceiver.Hil.TransmitAccount
import LeAudioReceiver.Hil.TransmitTrace

/-!
# What the transmit stage knows

The bookkeeping of the transmit stage beside the log of what it sent.

* `Learns`, `Kept` : what holds up to the anchor, and behind it;
* `Known` : the invariant of a call;
* `Known.step` : every step keeps it;
* `known` : **it holds throughout a call**.
-/

namespace LeAudioReceiver

namespace Hil

namespace Transmit

open Signal (Stage)

/-! ### Places -/

/-- The places on the way to the timestamp of the bootstrap SDU. -/
def Pc.learning : Pc → Bool
  | .encoders _ | .anchorEncode | .anchorCheck | .anchorAccount | .anchorSend | .anchorSent
  | .anchorPoll _ | .anchorDue _ | .anchorWait _ | .readback => true
  | _ => false

/-- The bootstrap SDU has taken its sequence number. -/
def Pc.sequenced : Pc → Bool
  | .encoders true | .anchorPoll _ | .anchorDue _ | .anchorWait _ | .readback => true
  | _ => false

/-- The places between two batches. -/
def Pc.between : Pc → Bool
  | .top | .spaceWait _ => true
  | _ => false

/-- The pin of a batch. -/
def Pc.pinned : Pc → Option UInt32
  | .encode _ pin | .batch pin | .pinCheck pin _ | .pinRead pin _ | .pinAdvance pin _ _
  | .pinWait pin _ | .gate pin | .gateAdvance pin _ | .send _ pin _ | .peer pin => some pin
  | _ => none

/-- Everything has been sent. -/
def Pc.done : Pc → Bool
  | .drain _ | .drainWait _ | .sync _ => true
  | .returned ret => ret = 0
  | _ => false

/-- Everything has been called back. -/
def Pc.drained : Pc → Bool
  | .sync _ => true
  | .returned ret => ret = 0
  | _ => false

/-- The places behind the anchor, without an error. -/
def Pc.live (pc : Pc) : Bool := pc.between || pc.pinned.isSome || pc.done

/-- The stream that sends next. -/
def Pc.turn (pc : Pc) : Fin 2 := if pc.second then 1 else 0

/-! ### What the stage keeps -/

/-- The record of the boundary is in a log once, behind `count` SDUs of each of the streams. -/
def Bounded (log : List Event) (streams count : ℕ) : Prop :=
  ∃ pre post, log = pre ++ .scoredComplete :: post ∧ .scoredComplete ∉ pre ∧
    .scoredComplete ∉ post ∧ ∀ i : Fin 2, i.val < streams → (sdus i pre).length = count

theorem Bounded.append {log : List Event} {streams count : ℕ} {e : Event}
    (hlog : Bounded log streams count) (he : e ≠ .scoredComplete) :
    Bounded (log ++ [e]) streams count := by
  obtain ⟨pre, post, rfl, hpre, hpost, hcount⟩ := hlog
  refine ⟨pre, post ++ [e], by simp, hpre, fun hmem => ?_, hcount⟩
  rcases List.mem_append.1 hmem with hmem | hmem
  · exact hpost hmem
  · exact he (List.mem_singleton.1 hmem).symm

/-- Nothing has been sent but the bootstrap SDU. -/
structure Learns (s : Tx) (h : History) : Prop where
  log : h.log = []
  submitted : ∀ i, (s.stream i).submitted = 0
  seq : ∀ i, (s.stream i).seq = if s.worker.sequenced then UInt16.ofNat (seqBase i) else 0
  emitted : s.scoredCompleteEmitted = false
  next : s.worker = .encoders true → h.event = 1 ∧
    ∀ i : Fin 2, i.val < s.streams → (s.stream i).next = movePin h.anchor h.event s.interval

/-- The stage behind the anchor knows what it has sent. -/
structure Kept (s : Tx) (h : History) : Prop where
  second : s.worker.second = true → s.streams = 2
  length : ∀ i : Fin 2, i.val < s.streams → (h.sent i).length = (s.stream i).submitted
  seq : ∀ i : Fin 2, i.val < s.streams →
    (s.stream i).seq = UInt16.ofNat ((s.stream i).submitted + seqBase i)
  events : s.streams = 2 →
    h.events 0 = h.events 1 ++ if s.worker.second then [h.event] else []
  single : s.streams = 1 → h.sent 1 = []
  earlier : ∀ i, ∀ d ∈ h.sent i,
    d.event < h.event + if s.worker.second ∧ i = 0 then 1 else 0
  le : ∀ i : Fin 2, i.val < s.streams → (s.stream i).submitted ≤ s.perStreamTotal
  pin : ∀ pin, s.worker.pinned = some pin → pin = movePin h.anchor h.event s.interval
  next : s.worker.between = true → ∀ i : Fin 2, i.val < s.streams →
    (s.stream i).next = movePin h.anchor h.event s.interval
  stage : s.worker.pinned.isSome = true → s.encStage = s.stageOf s.worker.turn ∧
    (s.stream s.worker.turn).submitted < s.perStreamTotal
  before : s.scoredCompleteEmitted = false →
    .scoredComplete ∉ h.log ∧ s.encStage ≠ .tail ∧ (s.stream 0).submitted ≤ s.preamble + s.scored
  after : s.scoredCompleteEmitted = true → Bounded h.log s.streams (s.preamble + s.scored)
  done : s.worker.done = true → ∀ i : Fin 2, i.val < s.streams →
    (s.stream i).submitted = s.perStreamTotal
  drained : s.worker.drained = true → ∀ i : Fin 2, i.val < s.streams →
    (s.stream i).outstanding = 0

/-- The steps between places behind the anchor that need no new facts. -/
structure Pc.Stays (pc pc' : Pc) : Prop where
  live : pc.live = true
  second : pc'.second = pc.second
  pinned : ∀ pin, pc'.pinned = some pin → pc.pinned = some pin
  between : pc'.between = true → pc.between = true
  done : pc'.done = true → pc.done = true
  drained : pc'.drained = true → pc.drained = true

section Kept

variable {s s' : Tx} {h h' : History}

/-- The configuration stays. -/
structure Tx.SameConfig (s s' : Tx) : Prop where
  interval : s'.interval = s.interval
  preamble : s'.preamble = s.preamble
  scored : s'.scored = s.scored
  total : s'.perStreamTotal = s.perStreamTotal
  streams : s'.streams = s.streams

theorem Tx.sameConfig (hconfig : s'.run.config = s.run.config) : s.SameConfig s' where
  interval := congrArg (fun c : Config => frameDurationUs c.profile) hconfig
  preamble := congrArg (fun c : Config => preambleFrames c.profile) hconfig
  scored := congrArg (fun c : Config => c.scoredSduCount.toNat) hconfig
  total := congrArg (fun c : Config =>
    preambleFrames c.profile + c.scoredSduCount.toNat + tailFrames c.profile) hconfig
  streams := congrArg (fun c : Config => c.mode.streamCount) hconfig

theorem Kept.stay (hs : Kept s h) (hpc : s.worker.Stays s'.worker)
    (hconfig : s'.run.config = s.run.config)
    (hsubmitted : ∀ i, (s'.stream i).submitted = (s.stream i).submitted)
    (hseq : ∀ i, (s'.stream i).seq = (s.stream i).seq)
    (hout : ∀ i, (s'.stream i).outstanding ≤ (s.stream i).outstanding)
    (hnext : s'.worker.between = true → ∀ i, (s'.stream i).next = (s.stream i).next)
    (hstage : s'.encStage = s.encStage)
    (hemitted : s'.scoredCompleteEmitted = s.scoredCompleteEmitted)
    (hlog : h'.log = h.log) (hevent : h'.event = h.event) (hanchor : h'.anchor = h.anchor) :
    Kept s' h' := by
  obtain ⟨hinterval, hpreamble, hscored, htotal, hstreams⟩ := Tx.sameConfig hconfig
  -- nothing is sent, so every field is about what it was about before
  have hsent (i : Fin 2) : h'.sent i = h.sent i := congrArg (sdus i) hlog
  have hevents (i : Fin 2) : h'.events i = h.events i := congrArg _ (hsent i)
  have hturn : s'.worker.turn = s.worker.turn := by
    unfold Pc.turn
    rw [hpc.second]
  refine ⟨fun h2 => ?_, fun i hi => ?_, fun i hi => ?_, fun h2 => ?_, fun h1 => ?_,
    fun i d hd => ?_,
    fun i hi => ?_, fun pin hpin => ?_, fun hb i hi => ?_, fun hsome => ?_, fun he => ?_,
    fun he => ?_, fun hdone i hi => ?_, fun hdrained i hi => ?_⟩
  · rw [hstreams]
    exact hs.second (hpc.second ▸ h2)
  · rw [hsent, hsubmitted]
    exact hs.length i (hstreams ▸ hi)
  · rw [hseq, hsubmitted]
    exact hs.seq i (hstreams ▸ hi)
  · rw [hevents, hevents, hpc.second, hevent]
    exact hs.events (hstreams ▸ h2)
  · rw [hsent]
    exact hs.single (hstreams ▸ h1)
  · rw [hsent] at hd
    rw [hevent, hpc.second]
    exact hs.earlier i d hd
  · rw [hsubmitted, htotal]
    exact hs.le i (hstreams ▸ hi)
  · rw [hanchor, hevent, hinterval]
    exact hs.pin pin (hpc.pinned pin hpin)
  · rw [hnext hb, hanchor, hevent, hinterval]
    exact hs.next (hpc.between hb) i (hstreams ▸ hi)
  · obtain ⟨pin, hpin⟩ := Option.isSome_iff_exists.1 hsome
    have hbefore := hs.stage (by rw [hpc.pinned pin hpin]; rfl)
    unfold Tx.stageOf at hbefore ⊢
    rw [hturn, hstage, hsubmitted, hpreamble, hscored, htotal]
    exact hbefore
  · rw [hlog, hstage, hsubmitted, hpreamble, hscored]
    exact hs.before (hemitted ▸ he)
  · rw [hlog, hstreams, hpreamble, hscored]
    exact hs.after (hemitted ▸ he)
  · rw [hsubmitted, htotal]
    exact hs.done (hpc.done hdone) i (hstreams ▸ hi)
  · exact Nat.eq_zero_of_le_zero
      ((hout i).trans_eq (hs.drained (hpc.drained hdrained) i (hstreams ▸ hi)))

theorem Pc.Moves.stays {pc pc' : Pc} (hpc : pc.Moves pc') (hlive : pc.live = true) :
    pc.Stays pc' := by
  cases hpc with
  | anchorEncoded => cases hlive
  | peer => exact ⟨hlive, rfl, fun _ => id, nofun, nofun, nofun⟩
  | syncedFirst => exact ⟨hlive, rfl, nofun, nofun, id, id⟩
  | syncedLast => exact ⟨hlive, rfl, nofun, nofun, fun _ => rfl, fun _ => rfl⟩
  | _ => exact ⟨hlive, rfl, fun _ => id, nofun, nofun, nofun⟩

theorem Pc.Checks.stays {pc pc' : Pc} (hpc : pc.Checks pc') (hlive : pc.live = true) :
    pc.Stays pc' := by
  cases hpc with
  | pin => exact ⟨hlive, rfl, fun _ => id, nofun, nofun, nofun⟩
  | _ => cases hlive

theorem Pc.Waits.stays {pc pc' : Pc} (hpc : pc.Waits pc') (hlive : pc.live = true) :
    pc.Stays pc' := by
  cases hpc with
  | anchor => cases hlive
  | space => exact ⟨hlive, rfl, nofun, id, nofun, nofun⟩
  | pin => exact ⟨hlive, rfl, fun _ => id, nofun, nofun, nofun⟩
  | drain => exact ⟨hlive, rfl, nofun, nofun, id, nofun⟩

/-- Between two batches the streams have sent as much as each other. -/
theorem Kept.submitted_eq (hs : Kept s h) (hsecond : s.worker.second = false) {i : Fin 2}
    (hi : i.val < s.streams) : (s.stream i).submitted = (s.stream 0).submitted := by
  by_cases hzero : i = 0
  · rw [hzero]
  · have hone : i = 1 := by omega
    subst hone
    have htwo : s.streams = 2 := by
      have hle := s.streams_le
      have hlt : 1 < s.streams := hi
      omega
    have hevents := congrArg List.length (hs.events htwo)
    rw [hsecond] at hevents
    unfold History.events at hevents
    simp only [Bool.false_eq_true, if_false, List.append_nil, List.length_map] at hevents
    rw [hs.length 0 s.streams_pos, hs.length 1 hi] at hevents
    exact hevents.symm

theorem not_finished {i : Fin 2} (hfinished : s.finished = false)
    (hequal : ∀ i : Fin 2, i.val < s.streams → (s.stream i).submitted = (s.stream 0).submitted)
    (hi : i.val < s.streams) : (s.stream i).submitted < s.perStreamTotal := by
  by_contra hle
  rw [hequal i hi] at hle
  have hall : s.finished = true := by
    unfold Tx.finished
    refine Mode.allStreams_iff.2 fun j hj => decide_eq_true ?_
    rw [hequal j hj]
    exact Nat.not_lt.1 hle
  rw [hall] at hfinished
  cases hfinished

theorem Kept.encode (hs : Kept s h) (hw : s.worker = .top) (hfinished : s.finished = false)
    (hw' : s'.worker = .encode 0 (s.stream 0).next) (hconfig : s'.run.config = s.run.config)
    (hstream : s'.stream = s.stream) (hstage : s'.encStage = s.stageOf 0)
    (hsent : ∀ i, h'.sent i = h.sent i) (hevent : h'.event = h.event)
    (hanchor : h'.anchor = h.anchor)
    (hbefore : s'.scoredCompleteEmitted = false →
      .scoredComplete ∉ h'.log ∧ s.stageOf 0 ≠ .tail ∧
        (s.stream 0).submitted ≤ s.preamble + s.scored)
    (hafter : s'.scoredCompleteEmitted = true →
      Bounded h'.log s.streams (s.preamble + s.scored)) : Kept s' h' := by
  obtain ⟨hinterval, hpreamble, hscored, htotal, hstreams⟩ := Tx.sameConfig hconfig
  have hsecond : s.worker.second = false := by rw [hw]; rfl
  have hevents (i : Fin 2) : h'.events i = h.events i := congrArg _ (hsent i)
  -- the place is the first one of the batch, so the facts about other places say nothing
  have hplace : s'.worker.second = false ∧ s'.worker.between = false ∧ s'.worker.done = false ∧
      s'.worker.drained = false ∧ s'.worker.turn = 0 := by
    rw [hw']
    exact ⟨rfl, rfl, rfl, rfl, rfl⟩
  obtain ⟨hsecond', hbetween', hdone', hdrained', hturn'⟩ := hplace
  refine ⟨fun h2 => ?_, fun i hi => ?_, fun i hi => ?_, fun h2 => ?_, fun h1 => ?_,
    fun i d hd => ?_,
    fun i hi => ?_, fun pin hpin => ?_, fun hb => ?_, fun _ => ?_, fun he => ?_, fun he => ?_,
    fun hdone => ?_, fun hdrained => ?_⟩
  · rw [hsecond'] at h2
    cases h2
  · rw [hsent, hstream]
    exact hs.length i (hstreams ▸ hi)
  · rw [hstream]
    exact hs.seq i (hstreams ▸ hi)
  · rw [hevents, hevents, hsecond', hevent, ← hsecond]
    exact hs.events (hstreams ▸ h2)
  · rw [hsent]
    exact hs.single (hstreams ▸ h1)
  · rw [hsent] at hd
    rw [hevent, hsecond', ← hsecond]
    exact hs.earlier i d hd
  · rw [hstream, htotal]
    exact hs.le i (hstreams ▸ hi)
  · -- the pin is where the first stream expects its next SDU
    rw [hw'] at hpin
    rw [hanchor, hevent, hinterval, ← Option.some.inj hpin]
    exact hs.next (by rw [hw]; rfl) 0 s.streams_pos
  · rw [hbetween'] at hb
    cases hb
  · -- something is left to send
    rw [hturn', hstage, hstream, htotal]
    refine ⟨?_, not_finished hfinished (fun i hi => hs.submitted_eq hsecond hi) s.streams_pos⟩
    unfold Tx.stageOf
    rw [hstream, hpreamble, hscored]
  · rw [hstage, hstream, hpreamble, hscored]
    exact hbefore he
  · rw [hstreams, hpreamble, hscored]
    exact hafter he
  · rw [hdone'] at hdone
    cases hdone
  · rw [hdrained'] at hdrained
    cases hdrained

/-- The clock is read, and the pin is moved by the skipped events. -/
theorem Kept.read {pin now : UInt32} (hs : Kept s h) (hpin : s.worker.pinned = some pin)
    (hsecond : s.worker.second = false) (hstream : s'.stream = s.stream)
    (hpin' : s'.worker.pinned = some (catchUpPin pin now s.interval).1)
    (hsecond' : s'.worker.second = false) (hconfig : s'.run.config = s.run.config)
    (hstage : s'.encStage = s.encStage)
    (hemitted : s'.scoredCompleteEmitted = s.scoredCompleteEmitted)
    (hplace : s'.worker.between = false ∧ s'.worker.done = false ∧ s'.worker.drained = false) :
    Kept s' (h.read now (catchUpPin pin now s.interval).2) := by
  obtain ⟨hinterval, hpreamble, hscored, htotal, hstreams⟩ := Tx.sameConfig hconfig
  obtain ⟨hbetween', hdone', hdrained'⟩ := hplace
  set skipped := (catchUpPin pin now s.interval).2 with hskipped
  have hsent (i : Fin 2) : (h.read now skipped).sent i = h.sent i :=
    History.sent_read h now skipped i
  have hevents (i : Fin 2) : (h.read now skipped).events i = h.events i := congrArg _ (hsent i)
  have hturn (t : Tx) (ht : t.worker.second = false) : t.worker.turn = 0 := by
    unfold Pc.turn
    rw [ht]
    rfl
  -- skipping events moves the pin along the grid
  have hmoved : (catchUpPin pin now s.interval).1 =
      movePin h.anchor (h.event + skipped) s.interval := by
    rw [← movePin_movePin, ← hs.pin pin hpin]
    rfl
  refine ⟨fun h2 => ?_, fun i hi => ?_, fun i hi => ?_, fun h2 => ?_, fun h1 => ?_,
    fun i d hd => ?_,
    fun i hi => ?_, fun p hp => ?_, fun hb => ?_, fun _ => ?_, fun he => ?_, fun he => ?_,
    fun hdone => ?_, fun hdrained => ?_⟩
  · rw [hsecond'] at h2
    cases h2
  · rw [hsent, hstream]
    exact hs.length i (hstreams ▸ hi)
  · rw [hstream]
    exact hs.seq i (hstreams ▸ hi)
  · have hbefore := hs.events (hstreams ▸ h2)
    rw [hsecond] at hbefore
    rw [hevents, hevents, hsecond']
    exact hbefore
  · rw [hsent]
    exact hs.single (hstreams ▸ h1)
  · -- what was sent lies before the event that the pin has reached
    rw [hsent] at hd
    have hbefore := hs.earlier i d hd
    rw [hsecond] at hbefore
    rw [hsecond']
    change d.event < h.event + skipped + _
    omega
  · rw [hstream, htotal]
    exact hs.le i (hstreams ▸ hi)
  · rw [hp] at hpin'
    rw [hinterval, Option.some.inj hpin']
    exact hmoved
  · rw [hbetween'] at hb
    cases hb
  · have hbefore := hs.stage (by rw [hpin]; rfl)
    rw [hturn s hsecond] at hbefore
    rw [hturn s' hsecond', hstage, hstream, htotal]
    refine ⟨hbefore.1.trans ?_, hbefore.2⟩
    unfold Tx.stageOf
    rw [hstream, hpreamble, hscored]
  · -- a reading is no record of the boundary
    rw [hstage, hstream, hpreamble, hscored]
    obtain ⟨hlog, hrest⟩ := hs.before (hemitted ▸ he)
    refine ⟨fun hmem => ?_, hrest⟩
    rcases List.mem_append.1 hmem with hmem | hmem
    · exact hlog hmem
    · cases List.mem_singleton.1 hmem
  · rw [hstreams, hpreamble, hscored]
    exact (hs.after (hemitted ▸ he)).append nofun
  · rw [hdone'] at hdone
    cases hdone
  · rw [hdrained'] at hdrained
    cases hdrained

theorem frameStage_ne_tail {n preamble scored : ℕ} (hstage : frameStage n preamble scored ≠ .tail) :
    n < preamble + scored := by
  unfold frameStage at hstage
  split_ifs at hstage with hpreamble hscored
  · omega
  · exact hscored
  · exact absurd rfl hstage

theorem Kept.right {i : Fin 2} {pin now : UInt32} (hs : Kept s h) (hw : s.worker = .send i pin now)
    (hi : i.val < s.streams) (hahead : minAheadUs ≤ pinAhead pin now) :
    (s.sdu i pin now h).Right s h.anchor i (h.sent i).length ∧
      (s.stream i).submitted < s.perStreamTotal := by
  have hturn : s.worker.turn = i := by
    unfold Pc.turn
    rw [hw]
    by_cases hone : i = 1
    · rw [hone]
      rfl
    · have hzero : i = 0 := by omega
      rw [hzero]
      rfl
  have hstage := hs.stage (by rw [hw]; rfl)
  rw [hturn] at hstage
  refine ⟨⟨?_, ?_, hs.pin pin (by rw [hw]; rfl), hahead⟩, hstage.2⟩
  · rw [hs.length i hi]
    exact hs.seq i hi
  · rw [hs.length i hi]
    exact hstage.1

theorem Kept.seq_succ {i : Fin 2} (hs : Kept s h) (hi : i.val < s.streams) :
    (s.stream i).seq + 1 = UInt16.ofNat ((s.stream i).submitted + 1 + seqBase i) := by
  rw [hs.seq i hi, Nat.add_right_comm]
  exact (UInt16.ofNat_add _ 1).symm

theorem Kept.earlier_sent {i j : Fin 2} {pin now : UInt32} {d : Sdu} (hs : Kept s h)
    (hd : d ∈ (s.noteSent i pin now h).sent j) :
    d.event < h.event + (if s.worker.second ∧ j = 0 then 1 else 0) ∨ j = i ∧ d.event = h.event := by
  by_cases hj : j = i
  · subst hj
    rw [noteSent_self] at hd
    rcases List.mem_append.1 hd with hd | hd
    · exact .inl (hs.earlier j d hd)
    · rw [List.mem_singleton.1 hd]
      exact .inr ⟨rfl, rfl⟩
  · rw [noteSent_of_ne s i pin now h hj] at hd
    exact .inl (hs.earlier j d hd)

theorem Kept.before_sent {i : Fin 2} {pin now : UInt32} (hs : Kept s h)
    (he : s.scoredCompleteEmitted = false) :
    .scoredComplete ∉ (s.noteSent i pin now h).log := by
  rw [noteSent_log]
  intro hmem
  rcases List.mem_append.1 hmem with hmem | hmem
  · exact (hs.before he).1 hmem
  · cases List.mem_singleton.1 hmem

theorem Kept.after_sent {i : Fin 2} {pin now : UInt32} (hs : Kept s h)
    (he : s.scoredCompleteEmitted = true) :
    Bounded (s.noteSent i pin now h).log s.streams (s.preamble + s.scored) := by
  rw [noteSent_log]
  exact (hs.after he).append nofun

/-- The bookkeeping of a stream that sends. -/
structure Tx.Sends (s s' : Tx) (i : Fin 2) : Prop where
  config : s'.run.config = s.run.config
  submitted : ∀ j, (s'.stream j).submitted = (s.stream j).submitted + if j = i then 1 else 0
  seq : ∀ j, (s'.stream j).seq = if j = i then (s.stream j).seq + 1 else (s.stream j).seq
  stage : s'.encStage = s.encStage
  emitted : s'.scoredCompleteEmitted = s.scoredCompleteEmitted

theorem Kept.sends {i : Fin 2} {pin now : UInt32} (hs : Kept s h) (hw : s.worker = .send i pin now)
    (hi : i.val < s.streams) (hahead : minAheadUs ≤ pinAhead pin now) (hsends : s.Sends s' i) :
    ∀ j : Fin 2, j.val < s'.streams →
      ((s.noteSent i pin now h).sent j).length = (s'.stream j).submitted ∧
      (s'.stream j).seq = UInt16.ofNat ((s'.stream j).submitted + seqBase j) ∧
      (s'.stream j).submitted ≤ s'.perStreamTotal := by
  obtain ⟨-, -, -, htotal, hstreams⟩ := Tx.sameConfig hsends.config
  intro j hj
  rw [hstreams] at hj
  rw [hsends.submitted, hsends.seq, htotal]
  by_cases hji : j = i
  · subst hji
    have hlt := (hs.right hw hi hahead).2
    rw [if_pos rfl, if_pos rfl, noteSent_self, List.length_append, hs.length j hj]
    exact ⟨rfl, hs.seq_succ hj, hlt⟩
  · rw [if_neg hji, if_neg hji, noteSent_of_ne s i pin now h hji]
    exact ⟨hs.length j hj, hs.seq j hj, hs.le j hj⟩

theorem Kept.sendFirst {i : Fin 2} {pin now : UInt32} (hs : Kept s h)
    (hw : s.worker = .send i pin now) (hlast : s.isLast i = false)
    (hahead : minAheadUs ≤ pinAhead pin now) (hsends : s.Sends s' i)
    (hw' : s'.worker = .peer pin) : Kept s' (s.noteSent i pin now h) := by
  obtain ⟨hinterval, hpreamble, hscored, htotal, hstreams⟩ := Tx.sameConfig hsends.config
  obtain rfl : i = 0 := s.eq_zero_of_not_last (by rw [hlast]; exact Bool.false_ne_true)
  have htwo : s.streams = 2 := by
    have hle := s.streams_le
    have hnot : ¬s.streams ≤ 0 + 1 := of_decide_eq_false hlast
    omega
  have hsecond : s.worker.second = false := by rw [hw]; rfl
  have hsecond' : s'.worker.second = true := by rw [hw']; rfl
  have hevent : (s.noteSent 0 pin now h).event = h.event := by
    rw [noteSent_event, hlast]
    rfl
  have hall := hs.sends hw s.streams_pos hahead hsends
  have hone : (s.noteSent 0 pin now h).sent 1 = h.sent 1 :=
    noteSent_of_ne s 0 pin now h (by decide)
  -- the second stream has still to send the SDU of this event
  have hequal : (s.stream 1).submitted = (s.stream 0).submitted :=
    hs.submitted_eq hsecond (by rw [htwo]; decide)
  have hstage := hs.stage (by rw [hw]; rfl)
  have hturn : s.worker.turn = 0 := by
    unfold Pc.turn
    rw [hsecond]
    rfl
  rw [hturn] at hstage
  refine ⟨fun _ => hstreams.trans htwo, fun j hj => (hall j hj).1, fun j hj => (hall j hj).2.1,
    fun _ => ?_, fun h1 => ?_, fun j d hd => ?_, fun j hj => (hall j hj).2.2, fun p hp => ?_,
    fun hb => ?_, fun _ => ?_, fun he => ?_, fun he => ?_, fun hdone => ?_, fun hdrained => ?_⟩
  · -- the first stream is one event ahead
    have hbefore := hs.events htwo
    rw [hsecond] at hbefore
    rw [hsecond', hevent]
    unfold History.events at hbefore ⊢
    rw [noteSent_self, hone, List.map_append, hbefore, if_neg Bool.false_ne_true, List.append_nil]
    rfl
  · rw [hstreams, htwo] at h1
    cases h1
  · rw [hevent, hsecond']
    rcases hs.earlier_sent hd with hlt | ⟨rfl, heq⟩
    · rw [hsecond] at hlt
      simp only [Bool.false_eq_true, false_and, if_false] at hlt
      omega
    · rw [if_pos ⟨rfl, rfl⟩, heq]
      exact Nat.lt_succ_self _
  · rw [hw'] at hp
    rw [noteSent_anchor, hevent, hinterval, ← Option.some.inj hp]
    exact hs.pin pin (by rw [hw]; rfl)
  · rw [hw'] at hb
    cases hb
  · have hturn' : s'.worker.turn = 1 := by
      unfold Pc.turn
      rw [hsecond']
      rfl
    -- the second stream encodes the same frame
    have hsame : (s'.stream 1).submitted = (s.stream 0).submitted :=
      (hsends.submitted 1).trans hequal
    unfold Tx.stageOf at hstage ⊢
    rw [hturn', hsame, hsends.stage, hpreamble, hscored, htotal]
    exact hstage
  · have hbefore := hs.before (hsends.emitted ▸ he)
    refine ⟨hs.before_sent (hsends.emitted ▸ he), ?_, ?_⟩
    · rw [hsends.stage]
      exact hbefore.2.1
    · rw [hsends.submitted, hpreamble, hscored]
      exact frameStage_ne_tail fun htail => hbefore.2.1 (hstage.1.trans htail)
  · rw [hstreams, hpreamble, hscored]
    exact hs.after_sent (hsends.emitted ▸ he)
  · rw [hw'] at hdone
    cases hdone
  · rw [hw'] at hdrained
    cases hdrained

theorem Kept.sendLast {i : Fin 2} {pin now : UInt32} (hs : Kept s h)
    (hw : s.worker = .send i pin now) (hlast : s.isLast i = true) (hi : i.val < s.streams)
    (hahead : minAheadUs ≤ pinAhead pin now) (hsends : s.Sends s' i) (hw' : s'.worker = .top)
    (hnext : ∀ j : Fin 2, j.val < s.streams → (s'.stream j).next = movePin pin 1 s.interval) :
    Kept s' (s.noteSent i pin now h) := by
  obtain ⟨hinterval, hpreamble, hscored, htotal, hstreams⟩ := Tx.sameConfig hsends.config
  have hsecond' : s'.worker.second = false := by rw [hw']; rfl
  have hevent : (s.noteSent i pin now h).event = h.event + 1 := by
    rw [noteSent_event, hlast]
    rfl
  have hall := hs.sends hw hi hahead hsends
  have hle : s.streams ≤ i.val + 1 := of_decide_eq_true hlast
  have hstage := hs.stage (by rw [hw]; rfl)
  refine ⟨fun h2 => ?_, fun j hj => (hall j hj).1, fun j hj => (hall j hj).2.1,
    fun htwo => ?_, fun h1 => ?_, fun j d hd => ?_, fun j hj => (hall j hj).2.2, fun p hp => ?_,
    fun _ j hj => ?_, fun hsome => ?_, fun he => ?_, fun he => ?_, fun hdone => ?_,
    fun hdrained => ?_⟩
  · rw [hsecond'] at h2
    cases h2
  · have hone : i = 1 := by omega
    subst hone
    -- the second stream has caught up with the first
    have hbefore := hs.events (hstreams ▸ htwo)
    have hsecond : s.worker.second = true := by rw [hw]; rfl
    rw [hsecond] at hbefore
    rw [hsecond']
    unfold History.events at hbefore ⊢
    rw [noteSent_self, noteSent_of_ne s 1 pin now h (by decide), List.map_append, hbefore]
    exact (List.append_nil _).symm
  · -- the only stream sends first and last
    have hzero : i = 0 := by omega
    subst hzero
    rw [noteSent_of_ne s 0 pin now h (by decide)]
    exact hs.single (hstreams ▸ h1)
  · -- the event of the batch is over
    rw [hevent, hsecond']
    simp only [Bool.false_eq_true, false_and, if_false, Nat.add_zero]
    rcases hs.earlier_sent hd with hlt | ⟨-, heq⟩
    · split_ifs at hlt <;> omega
    · omega
  · rw [hw'] at hp
    cases hp
  · rw [hnext j (hstreams ▸ hj), noteSent_anchor, hevent, hinterval, ← movePin_movePin,
      ← hs.pin pin (by rw [hw]; rfl)]
  · rw [hw'] at hsome
    cases hsome
  · have hbefore := hs.before (hsends.emitted ▸ he)
    refine ⟨hs.before_sent (hsends.emitted ▸ he), ?_, ?_⟩
    · rw [hsends.stage]
      exact hbefore.2.1
    · rw [hsends.submitted, hpreamble, hscored]
      split_ifs with hzero
      · subst hzero
        have hturn : s.worker.turn = 0 := by
          unfold Pc.turn
          rw [hw]
          rfl
        rw [hturn] at hstage
        exact frameStage_ne_tail fun htail => hbefore.2.1 (hstage.1.trans htail)
      · exact hbefore.2.2
  · rw [hstreams, hpreamble, hscored]
    exact hs.after_sent (hsends.emitted ▸ he)
  · rw [hw'] at hdone
    cases hdone
  · rw [hw'] at hdrained
    cases hdrained

theorem Kept.finish (hs : Kept s h) {deadline : ℕ} (hw : s.worker = .top)
    (hfinished : s.finished = true) : Kept (s.goto (.drain deadline)) h := by
  refine ⟨nofun, hs.length, hs.seq, fun htwo => ?_, hs.single, fun i d hd => ?_, hs.le, nofun,
    nofun, nofun, hs.before, hs.after, fun _ i hi => ?_, nofun⟩
  · have hevents := hs.events htwo
    rwa [hw] at hevents
  · have hearlier := hs.earlier i d hd
    rwa [hw] at hearlier
  · unfold Tx.finished at hfinished
    exact Nat.le_antisymm (hs.le i hi)
      (of_decide_eq_true (Mode.allStreams_iff.1 hfinished i hi))

theorem Kept.drain (hs : Kept s h) {deadline : ℕ} (hw : s.worker = .drain deadline)
    (hdrained : (s.run.config.mode.allStreams fun i => (s.stream i).outstanding = 0) = true) :
    Kept (s.goto (.sync 0)) h := by
  refine ⟨nofun, hs.length, hs.seq, fun htwo => ?_, hs.single, fun i d hd => ?_, hs.le, nofun,
    nofun, nofun, hs.before, hs.after, fun _ => hs.done (by rw [hw]; rfl), fun _ i hi => ?_⟩
  · have hevents := hs.events htwo
    rwa [hw] at hevents
  · have hearlier := hs.earlier i d hd
    rwa [hw] at hearlier
  · exact of_decide_eq_true (Mode.allStreams_iff.1 hdrained i hi)

theorem Learns.kept (hs : Learns s h) (hw : s.worker = .encoders true) :
    Kept ({ s with encStage := .preamble }.goto .top) h := by
  have hsent (i : Fin 2) : h.sent i = [] := by
    unfold History.sent
    rw [hs.log]
    rfl
  have hevents (i : Fin 2) : h.events i = [] := by
    unfold History.events
    rw [hsent]
    rfl
  refine ⟨nofun, fun i _ => ?_, fun i _ => ?_, fun _ => ?_, fun _ => hsent 1, fun i d hd => ?_,
    fun i _ => ?_, nofun, fun _ i hi => (hs.next hw).2 i hi, nofun, fun _ => ⟨?_, nofun, ?_⟩,
    fun he => ?_, nofun, nofun⟩
  · rw [hsent]
    exact (hs.submitted i).symm
  · have hseq := hs.seq i
    rw [hw] at hseq
    change (s.stream i).seq = UInt16.ofNat ((s.stream i).submitted + seqBase i)
    rw [hseq, hs.submitted, Nat.zero_add]
    rfl
  · rw [hevents, hevents]
    rfl
  · rw [hsent] at hd
    cases hd
  · exact (hs.submitted i).trans_le (Nat.zero_le _)
  · rw [hs.log]
    nofun
  · exact (hs.submitted 0).trans_le (Nat.zero_le _)
  · have hemitted := hs.emitted
    rw [show s.scoredCompleteEmitted = true from he] at hemitted
    cases hemitted

end Kept

/-! ### The invariant of a call -/

/-- The log, and what the stage knows about it. -/
structure Known (s : Tx) (h : History) : Prop where
  traced : Traced s h
  entry : s.worker = .entry → h.log = []
  learns : s.worker.learning = true → Learns s h
  kept : s.worker.live = true → Kept s h

/-- The steps between places that need no new facts. -/
structure Pc.Goes (pc pc' : Pc) : Prop where
  entry : pc' = .entry → pc = .entry
  learning : pc'.learning = true →
    pc.learning = true ∧ pc'.sequenced = pc.sequenced ∧ (pc' = .encoders true → pc = .encoders true)
  live : pc'.live = true → pc.Stays pc'

theorem Pc.Goes.refl (pc : Pc) : pc.Goes pc :=
  ⟨id, fun h => ⟨h, rfl, id⟩, fun h => ⟨h, rfl, fun _ => id, id, id, id⟩⟩

theorem Pc.Moves.goes {pc pc' : Pc} (hpc : pc.Moves pc') : pc.Goes pc' := by
  refine ⟨fun he => ?_, fun hl => ?_, fun hl => hpc.stays ?_⟩
  · cases hpc <;> cases he
  · cases hpc <;> first | exact ⟨rfl, rfl, nofun⟩ | cases hl
  · cases hpc <;> first | rfl | cases hl

theorem Pc.Checks.goes {pc pc' : Pc} (hpc : pc.Checks pc') : pc.Goes pc' := by
  refine ⟨fun he => ?_, fun hl => ?_, fun hl => hpc.stays ?_⟩
  · cases hpc <;> cases he
  · cases hpc <;> first | exact ⟨rfl, rfl, nofun⟩ | cases hl
  · cases hpc <;> first | rfl | cases hl

theorem Pc.Waits.goes {pc pc' : Pc} (hpc : pc.Waits pc') : pc.Goes pc' := by
  refine ⟨fun he => ?_, fun hl => ?_, fun hl => hpc.stays ?_⟩
  · cases hpc <;> cases he
  · cases hpc <;> first | exact ⟨rfl, rfl, nofun⟩ | cases hl
  · cases hpc <;> first | rfl | cases hl

section Known

variable {target : ℕ} {s s' : Tx} {h h' : History}

theorem Known.ended (ht : Traced s' h') {ret : ℤ} (hret : ret ≠ 0)
    (hw' : s'.worker = .returned ret) : Known s' h' := by
  refine ⟨ht, fun he => ?_, fun hl => ?_, fun hl => ?_⟩
  · rw [hw'] at he
    cases he
  · rw [hw'] at hl
    cases hl
  · rw [hw'] at hl
    exact absurd (of_decide_eq_true hl) hret

theorem Known.go (hs : Known s h) (hpc : s.worker.Goes s'.worker)
    (hconfig : s'.run.config = s.run.config)
    (hsubmitted : ∀ i, (s'.stream i).submitted = (s.stream i).submitted)
    (hseq : ∀ i, (s'.stream i).seq = (s.stream i).seq)
    (hout : ∀ i, (s'.stream i).outstanding ≤ (s.stream i).outstanding)
    (hnext : s'.worker.between = true ∨ s'.worker = .encoders true →
      ∀ i, (s'.stream i).next = (s.stream i).next)
    (hstage : s'.encStage = s.encStage)
    (hemitted : s'.scoredCompleteEmitted = s.scoredCompleteEmitted)
    (hlog : h'.log = h.log) (hevent : h'.event = h.event) (hanchor : h'.anchor = h.anchor) :
    Known s' h' := by
  refine ⟨?_, fun he => ?_, fun hl => ?_, fun hl => ?_⟩
  · refine hs.traced.same hconfig hanchor (fun i => congrArg (sdus i) hlog) fun _ _ _ hmem => ?_
    rwa [hlog] at hmem
  · rw [hlog]
    exact hs.entry (hpc.entry he)
  · obtain ⟨hl', hsequenced, hencoders⟩ := hpc.learning hl
    obtain ⟨hnil, hzero, hseqs, hnone, hgrid⟩ := hs.learns hl'
    obtain ⟨hinterval, -, -, -, hstreams⟩ := Tx.sameConfig hconfig
    refine ⟨hlog.trans hnil, fun i => (hsubmitted i).trans (hzero i), fun i => ?_,
      hemitted.trans hnone, fun hw => ?_⟩
    · rw [hseq, hsequenced]
      exact hseqs i
    · rw [hevent, hanchor, hinterval, hstreams]
      obtain ⟨hfirst, hpins⟩ := hgrid (hencoders hw)
      exact ⟨hfirst, fun i hi => (hnext (.inr hw) i).trans (hpins i hi)⟩
  · exact (hs.kept (hpc.live hl).live).stay (hpc.live hl) hconfig hsubmitted hseq hout
      (fun hb => hnext (.inl hb)) hstage hemitted hlog hevent hanchor

theorem Traced.nil (hlog : h.log = []) : Traced s h := by
  have hsent (i : Fin 2) : h.sent i = [] := by
    unfold History.sent
    rw [hlog]
    rfl
  have hevents (i : Fin 2) : h.events i = [] := by
    unfold History.events
    rw [hsent]
    rfl
  refine ⟨fun i k d hd => ?_, fun i => ?_, ?_, fun _ => ?_, fun now event skipped hmem => ?_⟩
  · rw [hsent] at hd
    cases hd
  · rw [hevents]
    exact List.Pairwise.nil
  · rw [hevents]
    exact List.nil_prefix
  · rw [hevents]
    exact Nat.zero_le _
  · rw [hlog] at hmem
    cases hmem

theorem Kept.traced {i : Fin 2} {pin now : UInt32} (hs : Kept s h) (ht : Traced s h)
    (hw : s.worker = .send i pin now) (hi : i.val < s.streams)
    (hahead : minAheadUs ≤ pinAhead pin now) (hconfig : s'.run.config = s.run.config) :
    Traced s' (s.noteSent i pin now h) := by
  have hself : (s.noteSent i pin now h).events i = h.events i ++ [h.event] := by
    unfold History.events
    rw [noteSent_self, List.map_append]
    rfl
  have hother {j : Fin 2} (hj : j ≠ i) : (s.noteSent i pin now h).events j = h.events j :=
    congrArg _ (noteSent_of_ne s i pin now h hj)
  have hturn : s.worker.second = decide (i = 1) := by rw [hw]; rfl
  have htraced : Traced s (s.noteSent i pin now h) := by
    refine ⟨fun j k d hd => ?_, fun j => ?_, ?_, fun htwo => ?_, fun now' event skipped hmem => ?_⟩
    · rw [noteSent_anchor]
      by_cases hj : j = i
      · subst hj
        rw [noteSent_self, List.getElem?_append] at hd
        split_ifs at hd with hk
        · exact ht.right j k d hd
        · obtain ⟨hlt, rfl⟩ := List.getElem?_eq_some_iff.1 hd
          -- the new SDU is the last one
          have hlast : k = (h.sent j).length := by
            rw [List.length_singleton] at hlt
            omega
          subst hlast
          have hright := (hs.right hw hi hahead).1
          simpa using hright
      · rw [noteSent_of_ne s i pin now h hj] at hd
        exact ht.right j k d hd
    · by_cases hj : j = i
      · subst hj
        rw [hself]
        refine List.pairwise_append.2
          ⟨ht.grows j, List.pairwise_singleton _ _, fun e he e' he' => ?_⟩
        obtain ⟨d, hd, rfl⟩ := List.mem_map.1 he
        rw [List.mem_singleton.1 he']
        -- its event comes behind those of the stream
        have hearlier := hs.earlier j d hd
        rw [hturn] at hearlier
        split_ifs at hearlier with hboth
        · obtain ⟨hone, hzero⟩ := hboth
          rw [hzero] at hone
          exact absurd hone (by decide)
        · exact hearlier
      · rw [hother hj]
        exact ht.grows j
    · by_cases hzero : i = 0
      · subst hzero
        rw [hself, hother (by decide)]
        exact ht.pair.trans (List.prefix_append _ _)
      · have hone : i = 1 := by omega
        subst hone
        have htwo : s.streams = 2 := hs.second hturn
        rw [hself, hother (by decide), hs.events htwo, hturn]
        exact List.prefix_refl _
    · have hevents := congrArg List.length (hs.events htwo)
      rw [hturn, List.length_append] at hevents
      -- the second stream follows the first, event by event
      by_cases hzero : i = 0
      · subst hzero
        rw [hself, hother (by decide), List.length_append]
        exact Nat.add_le_add_right hevents.le 1
      · have hone : i = 1 := by omega
        subst hone
        rw [hself, hother (by decide), List.length_append]
        exact hevents.le.trans (Nat.le_succ _)
    · rw [noteSent_anchor]
      rw [noteSent_log] at hmem
      rcases List.mem_append.1 hmem with hmem | hmem
      · exact ht.skips now' event skipped hmem
      · cases List.mem_singleton.1 hmem
  exact htraced.same hconfig rfl (fun _ => rfl) fun _ _ _ => id

theorem Kept.lt_streams {i : Fin 2} {pin now : UInt32} (hs : Kept s h)
    (hw : s.worker = .send i pin now) : i.val < s.streams := by
  by_cases hzero : i = 0
  · rw [hzero]
    exact s.streams_pos
  · have hone : i = 1 := by omega
    subst hone
    rw [hs.second (by rw [hw]; rfl)]
    decide

theorem Tx.modify_eq {α : Type*} (s : Tx) (i : Fin 2) {g : Stream → Stream} (field : Stream → α)
    (hg : ∀ t, field (g t) = field t) (j : Fin 2) :
    field ((s.modify i g).stream j) = field (s.stream j) := by
  change field (if j = i then g (s.stream j) else s.stream j) = _
  split_ifs
  · exact hg _
  · rfl

theorem Tx.modifyAll_eq {α : Type*} (s : Tx) {g : Stream → Stream} (field : Stream → α)
    (hg : ∀ t, field (g t) = field t) (j : Fin 2) :
    field ((s.modifyAll g).stream j) = field (s.stream j) := by
  change field (if j.val < s.streams then g (s.stream j) else s.stream j) = _
  split_ifs
  · exact hg _
  · rfl

theorem Tx.accepted_sends (s : Tx) (i : Fin 2) (pin : UInt32) (lead : ℤ) :
    s.Sends (s.modify i (·.accepted s.uptime pin lead)) i := by
  refine ⟨rfl, fun j => ?_, fun j => ?_, rfl, rfl⟩
  · change (if j = i then (s.stream j).accepted s.uptime pin lead else s.stream j).submitted = _
    split_ifs <;> rfl
  · change (if j = i then (s.stream j).accepted s.uptime pin lead else s.stream j).seq = _
    split_ifs <;> rfl

/-- The boundary is reached behind the last scored SDU. -/
theorem Kept.boundary (hs : Kept s h) (hw : s.worker = .top)
    (hemitted : s.scoredCompleteEmitted = false) (htail : s.stageOf 0 = .tail) :
    Bounded (h.enter .scoredComplete).log s.streams (s.preamble + s.scored) := by
  obtain ⟨hlog, -, hle⟩ := hs.before hemitted
  have hge : s.preamble + s.scored ≤ (s.stream 0).submitted := by
    unfold Tx.stageOf frameStage at htail
    split_ifs at htail
    omega
  refine ⟨h.log, [], rfl, hlog, nofun, fun i hi => ?_⟩
  change (h.sent i).length = _
  rw [hs.length i hi, hs.submitted_eq (by rw [hw]; rfl) hi]
  exact Nat.le_antisymm hle hge

/-- The timestamp of the bootstrap SDU starts the grid. -/
theorem Learns.anchored {ts : UInt32} (hs : Learns s h) (hw : s.worker = .readback) :
    Learns (s.anchored ts) { h with anchor := ts, event := 1 } := by
  have hkeep {α : Type} (field : Stream → α) (hnext : ∀ t n, field { t with next := n } = field t)
      (hread : ∀ t r, field { t with readback := r } = field t) (i : Fin 2) :
      field ((s.anchored ts).stream i) = field (s.stream i) :=
    ((s.modify 0 fun t => { t with readback := ts }).modifyAll_eq field
      (fun t => hnext t _) i).trans (s.modify_eq 0 field (fun t => hread t _) i)
  refine ⟨hs.log, fun i => ?_, fun i => ?_, hs.emitted, fun _ => ⟨rfl, fun i hi => ?_⟩⟩
  · exact (hkeep Stream.submitted (fun _ _ => rfl) (fun _ _ => rfl) i).trans (hs.submitted i)
  · rw [hkeep Stream.seq (fun _ _ => rfl) (fun _ _ => rfl) i, hs.seq i, hw]
    rfl
  · exact congrArg Stream.next (if_pos hi)

theorem Known.goto {pc : Pc} (hs : Known s h) (hpc : s.worker.Goes pc) : Known (s.goto pc) h :=
  hs.go hpc rfl (fun _ => rfl) (fun _ => rfl) (fun _ => Nat.le_refl _) (fun _ _ => rfl) rfl rfl rfl
    rfl rfl

theorem Known.batch {pin : UInt32} (hs : Known s h) (hpin : s.worker.pinned = some pin) :
    Kept s h := by
  refine hs.kept ?_
  unfold Pc.live
  rw [hpin]
  simp

theorem Known.read {pin now : UInt32} (hs : Known s h) (hpin : s.worker.pinned = some pin)
    (hsecond : s.worker.second = false) {pc : Pc}
    (hpc : pc.pinned = some (catchUpPin pin now s.interval).1) (hpc' : pc.second = false)
    (hplace : pc.between = false ∧ pc.done = false ∧ pc.drained = false)
    (hlearning : pc.learning = false) (hentry : pc ≠ .entry) :
    Known (s.goto pc) (h.read now (catchUpPin pin now s.interval).2) := by
  have hkept := hs.batch hpin
  refine ⟨hs.traced.read rfl (hkept.pin pin hpin), fun he => absurd he hentry, fun hl => ?_,
    fun _ => hkept.read hpin hsecond rfl hpc hpc' rfl rfl rfl hplace⟩
  rw [show pc.learning = true from hl] at hlearning
  cases hlearning

/-- A step of the worker. -/
theorem Works.known {f : History → History} (hworks : Works target s s' f) (hs : Known s h) :
    Known s' (f h) := by
  have hkeeps := hworks.keeps.config
  cases hworks with
  | enter hw =>
    have hlog := hs.entry hw
    refine ⟨.nil hlog, nofun, fun _ => ⟨hlog, fun _ => rfl, fun _ => rfl, rfl, nofun⟩, nofun⟩
  | @encoders again hw =>
    cases again with
    | false =>
      have hlearns := hs.learns (by rw [hw]; rfl)
      have hseq (i : Fin 2) : (s.stream i).seq = 0 := by
        have hseqs := hlearns.seq i
        rwa [hw] at hseqs
      exact ⟨.nil hlearns.log, nofun,
        fun _ => ⟨hlearns.log, hlearns.submitted, hseq, hlearns.emitted, nofun⟩, nofun⟩
    | true =>
      have hlearns := hs.learns (by rw [hw]; rfl)
      exact ⟨.nil hlearns.log, nofun, nofun, fun _ => hlearns.kept hw⟩
  | ends hends =>
    obtain ⟨ret, hret, hw'⟩ := hends.worker
    exact .ended (hs.traced.same hkeeps rfl (fun _ => rfl) fun _ _ _ => id) hret hw'
  | endsBehind hends =>
    obtain ⟨ret, hret, hw'⟩ := hends.worker
    exact .ended (hs.traced.scoredComplete hkeeps) hret hw'
  | moves hpc => exact hs.goto hpc.goes
  | checked hpc => exact hs.goto hpc.goes
  | woken hpc =>
    exact hs.go hpc.goes rfl (fun _ => rfl) (fun _ => rfl) (fun _ => Nat.le_refl _) (fun _ _ => rfl)
      rfl rfl rfl rfl rfl
  | expired hpc => exact hs.goto hpc.goes
  | account hw =>
    have hlearns := hs.learns (by rw [hw]; rfl)
    have hkeep {α : Type} (field : Stream → α)
        (hg : ∀ (t : Stream) n m, field { t with outstanding := n, lastActivity := m } = field t)
        (i : Fin 2) : field ((s.accountAnchor.goto .anchorSend).stream i) = field (s.stream i) :=
      s.modify_eq 0 field (fun t => hg t _ _) i
    refine ⟨.nil hlearns.log, nofun, fun _ => ⟨hlearns.log, fun i => ?_, fun i => ?_,
      hlearns.emitted, nofun⟩, nofun⟩
    · exact (hkeep Stream.submitted (fun _ _ _ => rfl) i).trans (hlearns.submitted i)
    · rw [hkeep Stream.seq (fun _ _ _ => rfl) i, hlearns.seq i, hw]
      rfl
  | anchorAccepted hw =>
    have hlearns := hs.learns (by rw [hw]; rfl)
    refine ⟨.nil hlearns.log, nofun, fun _ => ⟨hlearns.log, hlearns.submitted, fun i => ?_,
      hlearns.emitted, nofun⟩, nofun⟩
    rw [show (s.goto .anchorSent).stream i = s.stream i from rfl, hlearns.seq i, hw]
    rfl
  | anchorRefused hw hret =>
    have hlearns := hs.learns (by rw [hw]; rfl)
    exact .ended (.nil hlearns.log) hret rfl
  | @anchorSequence deadline hw =>
    have hlearns := hs.learns (by rw [hw]; rfl)
    refine ⟨.nil hlearns.log, nofun, fun _ => ⟨hlearns.log, fun i => ?_, fun i => ?_,
      hlearns.emitted, nofun⟩, nofun⟩
    · have hsame := s.modify_eq 0 (g := fun t => { t with seq := 1 }) Stream.submitted
        (fun _ => rfl) i
      exact hsame.trans (hlearns.submitted i)
    · have hseq := hlearns.seq i
      rw [hw] at hseq
      change (if i = 0 then { s.stream i with seq := 1 } else s.stream i : Stream).seq =
        UInt16.ofNat (seqBase i)
      unfold seqBase
      split_ifs
      · rfl
      · exact hseq
  | due hw =>
    have hlearns := hs.learns (by rw [hw]; rfl)
    refine ⟨.nil hlearns.log, nofun, fun _ => ⟨hlearns.log, hlearns.submitted, fun i => ?_,
      hlearns.emitted, nofun⟩, nofun⟩
    have hseq := hlearns.seq i
    rw [hw] at hseq
    exact hseq
  | notDue hw =>
    exact hs.goto (by rw [hw]; exact ⟨nofun, fun _ => ⟨rfl, rfl, nofun⟩, nofun⟩)
  | anchored hw =>
    have hlearns := hs.learns (by rw [hw]; rfl)
    exact ⟨.nil hlearns.log, nofun, fun _ => hlearns.anchored hw, nofun⟩
  | finished hw hfinished =>
    refine ⟨hs.traced.same rfl rfl (fun _ => rfl) fun _ _ _ => id, nofun, nofun, fun _ => ?_⟩
    exact (hs.kept (by rw [hw]; rfl)).finish hw hfinished
  | noSpace hw =>
    refine hs.goto ?_
    rw [hw]
    exact ⟨nofun, nofun, fun _ => ⟨rfl, rfl, nofun, fun _ => rfl, nofun, nofun⟩⟩
  | staged hw hfinished hspace hstages hstage =>
    have hkept := hs.kept (by rw [hw]; rfl)
    refine ⟨hs.traced.same rfl rfl (fun _ => rfl) fun _ _ _ => id, nofun, nofun, fun _ => ?_⟩
    refine hkept.encode hw hfinished rfl rfl rfl rfl (fun _ => rfl) rfl rfl (fun he => ?_)
      hkept.after
    -- the stage stays, or it is not that of the tail
    obtain ⟨hlog, hcurrent, hle⟩ := hkept.before he
    refine ⟨hlog, fun htail => ?_, hle⟩
    rcases hstage with hsame | hother | hemitted
    · exact hcurrent (hsame ▸ htail)
    · exact hother htail
    · rw [show s.scoredCompleteEmitted = false from he] at hemitted
      cases hemitted
  | boundary hw hfinished hspace hstages hne htail hemitted =>
    have hkept := hs.kept (by rw [hw]; rfl)
    refine ⟨hs.traced.scoredComplete rfl, nofun, nofun, fun _ => ?_⟩
    exact hkept.encode hw hfinished rfl rfl rfl rfl
      (fun i => History.sent_scoredComplete h i) rfl rfl nofun
      fun _ => hkept.boundary hw hemitted htail
  | @caught pin now deadline hw =>
    exact hs.read (by rw [hw]; rfl) (by rw [hw]; rfl) rfl rfl ⟨rfl, rfl, rfl⟩ rfl nofun
  | @inTime pin now deadline pc hw hzero hpc =>
    have hfst := catchUpPin_fst hzero
    have hread : Known (s.goto pc) (h.read now (catchUpPin pin now s.interval).2) := by
      refine hs.read (by rw [hw]; rfl) (by rw [hw]; rfl) ?_ ?_ ?_ ?_ ?_ <;>
        rcases hpc with rfl | rfl
      · rw [hfst]
        rfl
      · rw [hfst]
        rfl
      · rfl
      · rfl
      · exact ⟨rfl, rfl, rfl⟩
      · exact ⟨rfl, rfl, rfl⟩
      · rfl
      · rfl
      · nofun
      · nofun
    rwa [hzero] at hread
  | @caughtAtGate pin now hw =>
    exact hs.read (by rw [hw]; rfl) (by rw [hw]; rfl) rfl rfl ⟨rfl, rfl, rfl⟩ rfl nofun
  | @passed pin now hw hzero =>
    have hread :
        Known (s.goto (.send 0 pin now)) (h.read now (catchUpPin pin now s.interval).2) := by
      refine hs.read (by rw [hw]; rfl) (by rw [hw]; rfl) ?_ rfl ⟨rfl, rfl, rfl⟩ rfl nofun
      rw [catchUpPin_fst hzero]
      rfl
    rwa [hzero] at hread
  | @advanced pin skipped deadline hw =>
    have hkeep {α : Type} (field : Stream → α)
        (hg : ∀ (t : Stream) n m, field { t with next := n, pinAdvances := m } = field t)
        (i : Fin 2) : field ((s.advancePin pin skipped deadline).stream i) = field (s.stream i) :=
      s.modifyAll_eq field (fun t => hg t _ _) i
    refine hs.go ?_ rfl (fun i => hkeep Stream.submitted (fun _ _ _ => rfl) i)
      (fun i => hkeep Stream.seq (fun _ _ _ => rfl) i)
      (fun i => (hkeep Stream.outstanding (fun _ _ _ => rfl) i).le) ?_ rfl rfl rfl rfl rfl
    · rcases hw with ⟨d, hw⟩ | hw
      · rw [hw]
        exact ⟨nofun, nofun, fun _ => ⟨rfl, rfl, fun _ => id, nofun, nofun, nofun⟩⟩
      · rw [hw]
        exact ⟨nofun, nofun, fun _ => ⟨rfl, rfl, fun _ => id, nofun, nofun, nofun⟩⟩
    · rintro (hb | hb) <;> cases hb
  | @sent i pin now counters hw hahead hlast _ =>
    have hkept := hs.batch (by rw [hw]; rfl)
    have hsends := s.accepted_sends i pin (pinAhead pin now)
    refine ⟨hkept.traced hs.traced hw (hkept.lt_streams hw) hahead rfl, nofun, nofun, fun _ => ?_⟩
    exact hkept.sendFirst hw hlast hahead ⟨rfl, hsends.submitted, hsends.seq, rfl, rfl⟩ rfl
  | @sentLast i pin now counters hw hahead hlast _ =>
    have hkept := hs.batch (by rw [hw]; rfl)
    have hsends := s.accepted_sends i pin (pinAhead pin now)
    have hkeep {α : Type} (field : Stream → α)
        (hg : ∀ (t : Stream) n, field { t with next := n } = field t) (j : Fin 2) :
        field ((({ s.modify i (·.accepted s.uptime pin (pinAhead pin now)) with
          run := { s.run with counters := counters } } : Tx).modifyAll
            fun t => { t with next := movePin pin 1 s.interval }).stream j) =
          field ((s.modify i (·.accepted s.uptime pin (pinAhead pin now))).stream j) :=
      Tx.modifyAll_eq _ field (fun t => hg t _) j
    refine ⟨hkept.traced hs.traced hw (hkept.lt_streams hw) hahead rfl, nofun, nofun, fun _ => ?_⟩
    refine hkept.sendLast hw hlast (hkept.lt_streams hw) hahead ⟨rfl, fun j => ?_, fun j => ?_, rfl,
      rfl⟩ rfl fun j hj => ?_
    · exact (hkeep Stream.submitted (fun _ _ => rfl) j).trans (hsends.submitted j)
    · exact (hkeep Stream.seq (fun _ _ => rfl) j).trans (hsends.seq j)
    · exact congrArg Stream.next (if_pos hj)
  | @overflow i pin now ret hw hahead hret =>
    have hkept := hs.batch (by rw [hw]; rfl)
    exact .ended (hkept.traced hs.traced hw (hkept.lt_streams hw) hahead rfl) hret rfl
  | drained hw hdrained =>
    refine ⟨hs.traced.same rfl rfl (fun _ => rfl) fun _ _ _ => id, nofun, nofun, fun _ => ?_⟩
    exact (hs.kept (by rw [hw]; rfl)).drain hw hdrained
  | undrained hw =>
    refine hs.goto ?_
    rw [hw]
    exact ⟨nofun, nofun, fun _ => ⟨rfl, rfl, nofun, nofun, fun _ => rfl, nofun⟩⟩
  | @synced i ts pc hw hpc =>
    have hkeep {α : Type} (field : Stream → α)
        (hg : ∀ (t : Stream) n m, field { t with syncLast := n, syncCnt := m } = field t)
        (j : Fin 2) : field (((s.modify i fun t =>
          { t with syncLast := ts, syncCnt := t.syncCnt + 1 }).goto pc).stream j) =
          field (s.stream j) :=
      s.modify_eq i field (fun t => hg t _ _) j
    exact hs.go hpc.goes rfl (fun j => hkeep Stream.submitted (fun _ _ _ => rfl) j)
      (fun j => hkeep Stream.seq (fun _ _ _ => rfl) j)
      (fun j => (hkeep Stream.outstanding (fun _ _ _ => rfl) j).le)
      (fun _ j => hkeep Stream.next (fun _ _ _ => rfl) j) rfl rfl rfl rfl rfl

theorem Known.aside (hs : Known s h) (hworker : s'.worker = s.worker)
    (hconfig : s'.run.config = s.run.config) (hstream : s'.stream = s.stream)
    (hstage : s'.encStage = s.encStage)
    (hemitted : s'.scoredCompleteEmitted = s.scoredCompleteEmitted) : Known s' h := by
  have hkeep {α : Type} (field : Stream → α) (i : Fin 2) :
      field (s'.stream i) = field (s.stream i) := by
    rw [hstream]
  exact hs.go (hworker ▸ Pc.Goes.refl _) hconfig (hkeep _) (hkeep _) (fun i => (hkeep _ i).le)
    (fun _ => hkeep _) hstage hemitted rfl rfl rfl

theorem Known.call (hs : Known s h) (i : Fin 2) : Known s (h.call i) :=
  hs.go (Pc.Goes.refl _) rfl (fun _ => rfl) (fun _ => rfl) (fun _ => Nat.le_refl _)
    (fun _ _ => rfl) rfl rfl rfl rfl rfl

/-- A callback. -/
theorem Known.sent (hs : Known s h) (i : Fin 2) : Known (s.sent i) (h.call i) := by
  obtain ⟨counters, hsent | hsent | ⟨pending, due, hsent⟩⟩ := s.sent_cases i
  · rw [hsent]
    exact (hs.call i).aside rfl rfl rfl rfl rfl
  · rw [hsent]
    exact (hs.call i).aside rfl rfl rfl rfl rfl
  · rw [hsent]
    have hkeep {α : Type} (field : Stream → α)
        (hg : ∀ (t : Stream) n m, field { t with outstanding := n, lastActivity := m } = field t)
        (j : Fin 2) : field ((s.modify i fun t =>
          { t.drop with lastActivity := s.uptime }).stream j) = field (s.stream j) :=
      s.modify_eq i field (fun t => hg t _ _) j
    refine (hs.call i).go (Pc.Goes.refl _) rfl (hkeep Stream.submitted fun _ _ _ => rfl)
      (hkeep Stream.seq fun _ _ _ => rfl) (fun j => ?_)
      (fun _ => hkeep Stream.next fun _ _ _ => rfl) rfl rfl rfl rfl rfl
    change (if j = i then { (s.stream j).drop with lastActivity := s.uptime }
      else s.stream j : Stream).outstanding ≤ _
    split_ifs
    · exact Nat.sub_le _ _
    · exact Nat.le_refl _

theorem Known.emitStatus (hs : Known s h) (e : Emission) : Known (s.emitStatus e) h := by
  rcases s.emitStatus_cases e with heq | heq
  · rw [heq]
    exact hs
  · rw [heq]
    exact hs.aside rfl rfl rfl rfl rfl

theorem Known.stop (hs : Known s h) (e : Emission) : Known (s.stop e) h := by
  by_cases hactive : s.run.active = true
  · have hstopped : Known
        ({ s with run := { s.run with stopRequested := true }, wake := true } : Tx) h :=
      hs.aside rfl rfl rfl rfl rfl
    rw [Tx.stop_eq hactive]
    exact hstopped.emitStatus e
  · unfold Tx.stop
    rw [if_neg hactive]
    exact hs.emitStatus e

/-- **Every step keeps the invariant.** -/
theorem Known.step {a : Tx.Action} (hs : Known s h) (hnext : (machine target).next s a = some s') :
    Known s' (s.note a s' h) := by
  cases a with
  | work a =>
    obtain ⟨f, hworks, hnote⟩ := works (show s.work target a = some s' from hnext)
    change Known s' (s.noteWork a s' h)
    rw [hnote]
    exact hworks.known hs
  | sent i =>
    change (if _ then none else some (s.sent i)) = some s' at hnext
    split_ifs at hnext
    exact Option.some.inj hnext ▸ hs.sent i
  | status e =>
    change (if _ then none else some (s.emitStatus e)) = some s' at hnext
    split_ifs at hnext
    exact Option.some.inj hnext ▸ hs.emitStatus e
  | stop e =>
    change (if _ then none else some (s.stop e)) = some s' at hnext
    split_ifs at hnext
    exact Option.some.inj hnext ▸ hs.stop e
  | tick ms =>
    obtain rfl := Option.some.inj hnext
    exact hs.aside rfl rfl rfl rfl rfl

end Known

/-- **What the stage knows holds throughout a call**, with any callbacks and any clock. -/
theorem known {target : ℕ} {s : Tx} {h : History} (hs : (observed target).Reachable (s, h)) :
    Known s h := by
  refine Machine.Reachable.invariant (I := fun p => Known p.1 p.2) hs ?_ ?_
  · rintro ⟨s, h⟩ ⟨hcalled, hempty⟩
    obtain rfl : h = .empty := hempty
    refine ⟨.nil rfl, fun _ => rfl, fun hl => ?_, fun hl => ?_⟩
    · rw [hcalled.worker] at hl
      cases hl
    · rw [hcalled.worker] at hl
      cases hl
  · rintro ⟨s, h⟩ a ⟨s', h'⟩ hinv hnext
    obtain ⟨hstep, hnote⟩ := Machine.watch_next hnext
    obtain rfl : h' = s.note a s' h := hnote
    exact hinv.step hstep

end Transmit

end Hil

end LeAudioReceiver
