import LeAudioReceiver.Hil.TransmitSteps

/-!
# What the transmit stage sends

The log of a call of the stage, in every order of steps, with any callbacks and any clock.

* `Sdu.Right` : an SDU has its number and its stage, its pin is that of an event, and it is early
  enough;
* `Skips` : a reading skips the fewest events;
* `Traced` : the SDUs of a stream are right, at events that grow, the streams of a batch share its
  event, and the readings skip the fewest events.
-/

namespace LeAudioReceiver

namespace Hil

namespace Transmit

/-! ### The log -/

section Log

variable (h : History)

@[simp] theorem History.sent_empty (i : Fin 2) : History.empty.sent i = [] := rfl

@[simp] theorem History.sent_accept (i j : Fin 2) : (h.accept j).sent i = h.sent i := rfl

@[simp] theorem History.sent_call (i j : Fin 2) : (h.call j).sent i = h.sent i := rfl

theorem History.sent_enter (e : Event) (i : Fin 2) :
    (h.enter e).sent i = h.sent i ++ sdus i [e] :=
  List.filterMap_append

@[simp] theorem History.sent_scoredComplete (i : Fin 2) :
    (h.enter .scoredComplete).sent i = h.sent i := by
  rw [History.sent_enter]
  exact List.append_nil _

@[simp] theorem History.sent_read (now : UInt32) (skipped : ℕ) (i : Fin 2) :
    (h.read now skipped).sent i = h.sent i := by
  change (h.enter (.clock now h.event skipped)).sent i = _
  rw [History.sent_enter]
  exact List.append_nil _

theorem History.sent_sdu_self (i : Fin 2) (d : Sdu) :
    (h.enter (.sdu i d)).sent i = h.sent i ++ [d] := by
  rw [History.sent_enter]
  simp [sdus]

theorem History.sent_sdu_of_ne {i j : Fin 2} (hij : j ≠ i) (d : Sdu) :
    (h.enter (.sdu j d)).sent i = h.sent i := by
  rw [History.sent_enter]
  simp [sdus, hij]

end Log

section Sent

variable (s : Tx) (i : Fin 2) (pin now : UInt32) (h : History)

/-- The SDU that a stream sends. -/
def Tx.sdu : Sdu := ⟨(s.stream i).seq, s.encStage, pin, now, h.event⟩

theorem noteSent_log : (s.noteSent i pin now h).log = h.log ++ [.sdu i (s.sdu i pin now h)] := by
  unfold Tx.noteSent
  dsimp only
  split_ifs <;> rfl

theorem noteSent_event :
    (s.noteSent i pin now h).event = h.event + if s.isLast i then 1 else 0 := by
  unfold Tx.noteSent
  dsimp only
  split_ifs <;> rfl

theorem noteSent_anchor : (s.noteSent i pin now h).anchor = h.anchor := by
  unfold Tx.noteSent
  dsimp only
  split_ifs <;> rfl

theorem noteSent_self :
    (s.noteSent i pin now h).sent i = h.sent i ++ [s.sdu i pin now h] := by
  unfold History.sent
  rw [noteSent_log]
  exact History.sent_sdu_self h i (s.sdu i pin now h)

theorem noteSent_of_ne {j : Fin 2} (hj : j ≠ i) :
    (s.noteSent i pin now h).sent j = h.sent j := by
  unfold History.sent
  rw [noteSent_log]
  exact History.sent_sdu_of_ne h (Ne.symm hj) (s.sdu i pin now h)

end Sent

/-! ### What has been sent -/

/-- The sequence number that a stream starts with: the bootstrap SDU took the first one of stream
`0`. -/
def seqBase (i : Fin 2) : ℕ := if i = 0 then 1 else 0

/-- SDU `k` of a stream is the right one. -/
structure Sdu.Right (s : Tx) (anchor : UInt32) (i : Fin 2) (k : ℕ) (d : Sdu) : Prop where
  seq : d.seq = UInt16.ofNat (k + seqBase i)
  stage : d.stage = frameStage k s.preamble s.scored
  pin : d.pin = movePin anchor d.event s.interval
  ahead : minAheadUs ≤ pinAhead d.pin d.now

/-- A reading skips the fewest events that bring the pin far enough ahead. -/
def Skips (s : Tx) (anchor now : UInt32) (event skipped : ℕ) : Prop :=
  ∀ ahead, ahead = pinAhead (movePin anchor event s.interval) now →
    minAheadUs ≤ ahead + skipped * s.interval ∧
      (∀ m < skipped, ahead + m * s.interval < minAheadUs) ∧
      pinAhead (movePin anchor (event + skipped) s.interval) now = ahead + skipped * s.interval

/-- The events of the SDUs of a stream. -/
def History.events (h : History) (i : Fin 2) : List ℕ := (h.sent i).map Sdu.event

/-- The log of a call. -/
structure Traced (s : Tx) (h : History) : Prop where
  right : ∀ i k (d : Sdu), (h.sent i)[k]? = some d → d.Right s h.anchor i k
  grows : ∀ i, (h.events i).Pairwise (· < ·)
  pair : h.events 1 <+: h.events 0
  lag : s.streams = 2 → (h.events 0).length ≤ (h.events 1).length + 1
  skips : ∀ now event skipped, Event.clock now event skipped ∈ h.log →
    Skips s h.anchor now event skipped

section Traced

variable {s s' : Tx} {h h' : History}

theorem interval_pos (s : Tx) : 0 < s.interval := by
  unfold Tx.interval
  cases s.run.config.profile <;> decide

theorem interval_le (s : Tx) : s.interval ≤ 10000 := by
  unfold Tx.interval
  cases s.run.config.profile <;> decide

theorem skips_catchUp (anchor now : UInt32) (event : ℕ) :
    Skips s anchor now event (catchUpPin (movePin anchor event s.interval) now s.interval).2 := by
  rintro ahead rfl
  obtain ⟨hle, hleast⟩ :=
    shortfall_spec (pinAhead (movePin anchor event s.interval) now) (interval_pos s)
  refine ⟨hle, hleast, ?_⟩
  rw [← movePin_movePin]
  exact pinAhead_catchUp _ now (interval_pos s) (interval_le s)

theorem Traced.same (ht : Traced s h) (hconfig : s'.run.config = s.run.config)
    (hanchor : h'.anchor = h.anchor) (hsent : ∀ i, h'.sent i = h.sent i)
    (hclock : ∀ now event skipped, Event.clock now event skipped ∈ h'.log →
      Event.clock now event skipped ∈ h.log) : Traced s' h' := by
  have hinterval : s'.interval = s.interval := by
    unfold Tx.interval
    rw [hconfig]
  have hpreamble : s'.preamble = s.preamble := by
    unfold Tx.preamble
    rw [hconfig]
  have hscored : s'.scored = s.scored := by
    unfold Tx.scored
    rw [hconfig]
  have hstreams : s'.streams = s.streams := by
    unfold Tx.streams
    rw [hconfig]
  have hevents (i : Fin 2) : h'.events i = h.events i := by
    unfold History.events
    rw [hsent]
  refine ⟨fun i k d hd => ?_, fun i => ?_, ?_, fun htwo => ?_, fun now event skipped hmem => ?_⟩
  · rw [hsent] at hd
    obtain ⟨hseq, hstage, hpin, hahead⟩ := ht.right i k d hd
    refine ⟨hseq, ?_, ?_, hahead⟩
    · rw [hpreamble, hscored]
      exact hstage
    · rw [hanchor, hinterval]
      exact hpin
  · rw [hevents]
    exact ht.grows i
  · rw [hevents, hevents]
    exact ht.pair
  · rw [hevents, hevents]
    exact ht.lag (hstreams ▸ htwo)
  · unfold Skips
    rw [hanchor, hinterval]
    exact ht.skips now event skipped (hclock now event skipped hmem)

theorem Traced.scoredComplete (ht : Traced s h) (hconfig : s'.run.config = s.run.config) :
    Traced s' (h.enter .scoredComplete) := by
  refine ht.same hconfig rfl (fun i => History.sent_scoredComplete h i)
    fun now event skipped hmem => ?_
  rcases List.mem_append.1 hmem with hmem | hmem
  · exact hmem
  · cases List.mem_singleton.1 hmem

theorem Traced.read {now pin : UInt32} (ht : Traced s h) (hconfig : s'.run.config = s.run.config)
    (hpin : pin = movePin h.anchor h.event s.interval) :
    Traced s' (h.read now (catchUpPin pin now s.interval).2) := by
  have hskips : Skips s h.anchor now h.event (catchUpPin pin now s.interval).2 := by
    rw [hpin]
    exact skips_catchUp h.anchor now h.event
  have hevents (i : Fin 2) : (h.read now (catchUpPin pin now s.interval).2).events i = h.events i :=
    congrArg _ (History.sent_read h now _ i)
  have hread : Traced s (h.read now (catchUpPin pin now s.interval).2) := by
    refine ⟨fun i k d hd => ?_, fun i => ?_, ?_, fun htwo => ?_, fun now' event skipped hmem => ?_⟩
    · rw [History.sent_read] at hd
      exact ht.right i k d hd
    · rw [hevents]
      exact ht.grows i
    · rw [hevents, hevents]
      exact ht.pair
    · rw [hevents, hevents]
      exact ht.lag htwo
    · rcases List.mem_append.1 hmem with hmem | hmem
      · exact ht.skips now' event skipped hmem
      · obtain ⟨rfl, rfl, rfl⟩ := Event.clock.inj (List.mem_singleton.1 hmem)
        exact hskips
  exact hread.same hconfig rfl (fun _ => rfl) fun _ _ _ => id

end Traced

end Transmit

end Hil

end LeAudioReceiver
