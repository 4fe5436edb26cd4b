import LeAudioReceiver.Hil.Envelope

/-!
# What an encoder of the HIL signal has rendered

An encoder renders its channels in calls of any size, alone or two at once.  A call is refused, or
renders all its samples, and what the calls render of a channel in a stage is a prefix of one
sequence.

* `Session.render_cases`, `Session.encodeNext_cases` : the calls by what they do;
* `Session.Renders` : what a channel has rendered, stage by stage;
* `Session.inv_run` : every channel has, after any calls.
-/

namespace LeAudioReceiver

namespace Hil

namespace Signal

/-! ### What was rendered -/

theorem samplesOf_append (log out : List Rendered) (i : ℕ) (stage : Stage) :
    samplesOf (log ++ out) i stage = samplesOf log i stage ++ samplesOf out i stage := by
  simp [samplesOf]

theorem streamOf_append (log out : List Rendered) (i : ℕ) :
    streamOf (log ++ out) i = streamOf log i ++ streamOf out i := by
  simp [streamOf]

theorem samplesOf_single (r : Rendered) (i : ℕ) (stage : Stage) :
    samplesOf [r] i stage = if r.channel = i ∧ r.stage = stage then r.samples else [] := by
  unfold samplesOf
  split <;> rename_i h <;> simp [h]

theorem streamOf_single (r : Rendered) (i : ℕ) :
    streamOf [r] i = if r.channel = i then r.samples else [] := by
  unfold streamOf
  split <;> rename_i h <;> simp [h]

theorem stageSamples_add (seed : UInt32) (c : Channel) (stage : Stage) (m n : ℕ) :
    stageSamples seed c stage m ++ (List.range' m n).map (sampleAt seed c stage) =
      stageSamples seed c stage (m + n) := by
  have hrange : List.range m ++ List.range' m n = List.range (m + n) := by
    rw [List.range_eq_range', List.range_eq_range']
    have happend := @List.range'_append 0 m n 1
    rwa [Nat.one_mul, Nat.zero_add] at happend
  unfold stageSamples
  rw [← List.map_append, hrange]

theorem stageSamples_zero (seed : UInt32) (c : Channel) (stage : Stage) :
    stageSamples seed c stage 0 = [] := rfl

theorem length_stageSamples (seed : UInt32) (c : Channel) (stage : Stage) (n : ℕ) :
    (stageSamples seed c stage n).length = n := by
  simp [stageSamples]

open ChannelState (Counts)

/-- The samples of all stages. -/
def allSamples (seed : UInt32) (c : Channel) (k : Counts) : List Sample :=
  stageSamples seed c .preamble k.preamble ++ stageSamples seed c .scored k.scored ++
    stageSamples seed c .tail k.tail

/-- The stages come one after the other, so more samples of a stage come last. -/
theorem allSamples_add {k : Counts} {stage : Stage} (hfit : k.Fit stage) (seed : UInt32)
    (c : Channel) (m : ℕ) :
    allSamples seed c k ++ (List.range' (k.of stage) m).map (sampleAt seed c stage) =
      allSamples seed c (k.add stage m) := by
  cases stage with
  | preamble =>
    have hscored := hfit.scored rfl
    have htail := hfit.tail (by decide)
    simp only [allSamples, Counts.add, Counts.of, hscored, htail, stageSamples_zero,
      List.append_nil, stageSamples_add]
  | scored =>
    have htail := hfit.tail (by decide)
    simp only [allSamples, Counts.add, Counts.of, htail, stageSamples_zero, List.append_nil,
      List.append_assoc, stageSamples_add]
  | tail =>
    simp only [allSamples, Counts.add, Counts.of, List.append_assoc, stageSamples_add]

namespace Session

variable {seed : UInt32} {cs : List Channel} {s : Session} {e : Encoder} {log : List Rendered}
  {i j : ℕ} {c : Channel} {k : Counts} {m : ℕ}

/-- What channel `i` has rendered: the first samples of each stage, stage after stage. -/
structure Renders (seed : UInt32) (c : Channel) (s : Session) (i : ℕ) (k : Counts) : Prop where
  channel : ∃ ch, s.encoder.channels[i]? = some ch ∧ ch.Holds seed c k
  fit : k.Fit s.encoder.stage
  samples : ∀ stage, samplesOf s.log i stage = stageSamples seed c stage (k.of stage)
  stream : streamOf s.log i = allSamples seed c k

/-- The invariant of a session on an encoder with the channels `cs`. -/
structure Inv (seed : UInt32) (cs : List Channel) (s : Session) : Prop where
  signalSeed : s.encoder.signalSeed = seed
  length : s.encoder.channels.length = cs.length
  renders : ∀ i c, cs[i]? = some c → ∃ k, Renders seed c s i k

/-- The encoder behind a call that rendered `m` samples of channel `j`, whose state was `ch`. -/
def rendered (e : Encoder) (j : ℕ) (ch : ChannelState) (m : ℕ) : Encoder :=
  { e with channels := e.channels.set j (ch.renderLoop e.signalSeed e.stage m).2 }

/-- The samples of that call. -/
def output (e : Encoder) (j : ℕ) (ch : ChannelState) (m : ℕ) : Rendered :=
  ⟨j, e.stage, (ch.renderLoop e.signalSeed e.stage m).1⟩

/-- The channel that renders takes the next samples of the stage. -/
theorem Renders.render_self (h : Renders seed c ⟨e, log⟩ i k) (hseed : e.signalSeed = seed)
    {ch : ChannelState} (hch : e.channels[i]? = some ch)
    (hroom : e.stage = .preamble → m ≤ preambleTotalSamples - ch.preambleRendered) :
    Renders seed c ⟨rendered e i ch m, log ++ [output e i ch m]⟩ i (k.add e.stage m) := by
  obtain ⟨⟨ch', hch', hholds⟩, hfit, hsamples, hstream⟩ := h
  obtain rfl : ch' = ch := Option.some.inj (hch'.symm.trans hch)
  have hroom' : e.stage = .preamble → k.preamble + m ≤ preambleTotalSamples := by
    intro hstage
    have := hroom hstage
    have := hfit.preamble
    have := hholds.rendered
    omega
  obtain ⟨hout, hnext⟩ := ChannelState.renderLoop_spec m hholds hfit hroom'
  refine ⟨⟨_, List.getElem?_set_self (List.getElem?_eq_some_iff.1 hch).1, ?_⟩,
    hfit.add hroom', ?_, ?_⟩
  · rw [hseed]
    exact hnext
  · intro stage
    simp only [samplesOf_append, samplesOf_single, output, true_and, hseed, hsamples]
    by_cases hstage : e.stage = stage
    · rw [if_pos hstage, ← hstage, hout, stageSamples_add]
      congr 1
      cases e.stage <;> rfl
    · rw [if_neg hstage, List.append_nil]
      congr 1
      revert hstage
      cases e.stage <;> cases stage <;> simp [Counts.add, Counts.of]
  · simp only [streamOf_append, streamOf_single, output, if_true, hseed, hstream]
    rw [hout, allSamples_add hfit]

theorem Renders.render_other (h : Renders seed c ⟨e, log⟩ i k) (hne : j ≠ i) (ch : ChannelState) :
    Renders seed c ⟨rendered e j ch m, log ++ [output e j ch m]⟩ i k := by
  obtain ⟨⟨ch', hch', hholds⟩, hfit, hsamples, hstream⟩ := h
  refine ⟨⟨ch', ?_, hholds⟩, hfit, ?_, ?_⟩
  · rw [← hch']
    exact List.getElem?_set_ne hne
  · intro stage
    rw [samplesOf_append, samplesOf_single, if_neg fun heq => hne heq.1, List.append_nil]
    exact hsamples stage
  · rw [streamOf_append, streamOf_single, output, if_neg hne, List.append_nil]
    exact hstream

end Session

/-! ### Calls -/

/-- The room that `render` and `encodeNext` check. -/
def Encoder.HasRoom (e : Encoder) (n : ℕ) (ch : ChannelState) : Prop :=
  e.stage = .preamble → n ≤ preambleTotalSamples - ch.preambleRendered

/-- A call with room, in its buffer and in the preamble, is accepted. -/
theorem Encoder.render_ok {e : Encoder} {i n cap : ℕ} {ch : ChannelState} (husable : ¬e.unusable)
    (hch : e.channels[i]? = some ch) (hpos : n ≠ 0) (hle : n ≤ sizeMax / 2) (hcap : n * 2 ≤ cap)
    (hroom : e.HasRoom n ch) :
    e.render i n cap = ⟨Session.rendered e i ch n, .ok n, [Session.output e i ch n]⟩ := by
  unfold render
  rw [if_neg husable, hch]
  dsimp only
  rw [if_neg hpos, if_neg (by omega), if_neg (by omega),
    if_neg fun hfull => absurd (hroom hfull.1) (not_le.2 hfull.2)]
  rfl

theorem Encoder.renderAll_ok {e : Encoder} {n : ℕ} (hpos : n ≠ 0) (hle : n ≤ 480) (is : List ℕ)
    (hnodup : is.Nodup) (husable : ¬e.unusable)
    (hroom : ∀ i ∈ is, ∃ ch, e.channels[i]? = some ch ∧ e.HasRoom n ch) :
    (e.renderAll n is).ret = .ok 0 ∧ ∀ i stage,
      (samplesOf (e.renderAll n is).out i stage).length =
        if i ∈ is ∧ e.stage = stage then n else 0 := by
  induction is generalizing e with
  | nil => exact ⟨rfl, fun i stage => by simp [renderAll, samplesOf]⟩
  | cons i is ih =>
    obtain ⟨hnotin, hnodup'⟩ := List.nodup_cons.1 hnodup
    obtain ⟨ch, hch, hroom'⟩ := hroom i List.mem_cons_self
    obtain ⟨hret, hout⟩ := ih (e := Session.rendered e i ch n) hnodup' husable fun j hj => by
      have hne : i ≠ j := fun heq => hnotin (heq ▸ hj)
      obtain ⟨ch', hch', hroom''⟩ := hroom j (List.mem_cons_of_mem i hj)
      exact ⟨ch', (List.getElem?_set_ne hne).trans hch', hroom''⟩
    rw [renderAll, render_ok husable hch hpos (by unfold sizeMax; omega) (by omega) hroom']
    dsimp only
    rw [if_neg (not_not.2 rfl)]
    refine ⟨hret, fun j stage => ?_⟩
    rw [samplesOf_append, List.length_append, hout, samplesOf_single]
    by_cases hij : i = j
    · subst hij
      by_cases hstage : e.stage = stage
      · simp [Session.rendered, Session.output, hstage, hnotin, ChannelState.length_renderLoop]
      · simp [Session.rendered, Session.output, hstage]
    · have hmem : j ∈ i :: is ↔ j ∈ is := by simp [Ne.symm hij]
      rw [Session.output, if_neg fun heq => hij heq.1, List.length_nil, Nat.zero_add]
      exact if_congr (and_congr_left' hmem.symm) rfl rfl

theorem profileFrameSamples_bounds (profile : Profile) :
    profileFrameSamples profile ≠ 0 ∧ profileFrameSamples profile ≤ 480 := by
  cases profile <;> decide

namespace Session

variable {seed : UInt32} {cs : List Channel} {s : Session} {e : Encoder} {log : List Rendered}
  {i j : ℕ} {c : Channel} {k : Counts} {m : ℕ}

/-- A call of `render` is refused, or renders all its samples. -/
theorem render_cases (e : Encoder) (i m cap : ℕ) :
    (∃ err, e.render i m cap = e.reject err) ∨
    (m = 0 ∧ e.render i m cap = ⟨e, .ok 0, []⟩) ∨
    (∃ ch, e.channels[i]? = some ch ∧ e.HasRoom m ch ∧
      e.render i m cap = ⟨rendered e i ch m, .ok m, [output e i ch m]⟩) := by
  unfold Encoder.render
  split
  · exact .inl ⟨_, rfl⟩
  · split
    · exact .inl ⟨_, rfl⟩
    · rename_i ch hch
      split_ifs with hzero hsize hcap hroom
      · exact .inr (.inl ⟨hzero, rfl⟩)
      · exact .inl ⟨_, rfl⟩
      · exact .inl ⟨_, rfl⟩
      · exact .inl ⟨_, rfl⟩
      · exact .inr (.inr ⟨ch, hch, fun hstage => not_lt.1 fun hlt => hroom ⟨hstage, hlt⟩, rfl⟩)

theorem render_same (e : Encoder) (i m cap : ℕ) :
    (e.render i m cap).encoder.stage = e.stage ∧
    (e.render i m cap).encoder.unusable = e.unusable ∧
    (e.render i m cap).encoder.channels.length = e.channels.length := by
  rcases render_cases e i m cap with ⟨err, heq⟩ | ⟨-, heq⟩ | ⟨ch, -, -, heq⟩
  · rw [heq]
    exact ⟨rfl, rfl, rfl⟩
  · rw [heq]
    exact ⟨rfl, rfl, rfl⟩
  · rw [heq]
    exact ⟨rfl, rfl, List.length_set ..⟩

theorem Inv.of_renders {e' : Encoder} {out : List Rendered} (h : Inv seed cs ⟨e, log⟩)
    (hseed : e'.signalSeed = e.signalSeed) (hlength : e'.channels.length = e.channels.length)
    (hrenders : ∀ i c k, cs[i]? = some c → Renders seed c ⟨e, log⟩ i k →
      ∃ k', Renders seed c ⟨e', log ++ out⟩ i k') :
    Inv seed cs ⟨e', log ++ out⟩ := by
  refine ⟨hseed.trans h.signalSeed, hlength.trans h.length, fun i c hc => ?_⟩
  obtain ⟨k, hk⟩ := h.renders i c hc
  exact hrenders i c k hc hk

theorem inv_render (h : Inv seed cs ⟨e, log⟩) (i m cap : ℕ) :
    Inv seed cs ⟨(e.render i m cap).encoder, log ++ (e.render i m cap).out⟩ := by
  rcases render_cases e i m cap with ⟨err, heq⟩ | ⟨-, heq⟩ | ⟨ch, hch, hroom, heq⟩
  · rw [heq, Encoder.reject, List.append_nil]
    exact h
  · rw [heq, List.append_nil]
    exact h
  · rw [heq]
    refine h.of_renders rfl (List.length_set ..) fun j c k hc hk => ?_
    by_cases hij : i = j
    · subst hij
      exact ⟨_, hk.render_self h.signalSeed hch hroom⟩
    · exact ⟨k, hk.render_other hij ch⟩

theorem inv_renderAll (n : ℕ) (is : List ℕ) (h : Inv seed cs ⟨e, log⟩) :
    Inv seed cs ⟨(e.renderAll n is).encoder, log ++ (e.renderAll n is).out⟩ := by
  induction is generalizing e log with
  | nil =>
    rw [Encoder.renderAll, List.append_nil]
    exact h
  | cons i is ih =>
    have hone := inv_render h i n (480 * 2)
    rw [Encoder.renderAll]
    dsimp only
    split
    · exact hone
    · split
      · exact hone
      · have hrest := ih hone
        rw [List.append_assoc] at hrest
        exact hrest

theorem Inv.of_fit {e' : Encoder} (h : Inv seed cs ⟨e, log⟩) (hseed : e'.signalSeed = e.signalSeed)
    (hchannels : e'.channels = e.channels)
    (hfit : ∀ i c k, cs[i]? = some c → Renders seed c ⟨e, log⟩ i k → k.Fit e'.stage) :
    Inv seed cs ⟨e', log⟩ := by
  rw [← List.append_nil log]
  refine h.of_renders hseed (congrArg _ hchannels) fun i c k hc hk =>
    ⟨k, ?_, hfit i c k hc hk, ?_, ?_⟩
  · rw [hchannels]
    exact hk.channel
  · rw [List.append_nil]
    exact hk.samples
  · rw [List.append_nil]
    exact hk.stream

theorem Renders.full (h : Renders seed c ⟨e, log⟩ i k)
    (hfull : ¬(e.channels.any fun ch => ch.preambleRendered ≠ preambleTotalSamples) = true) :
    k.preamble = preambleTotalSamples := by
  obtain ⟨⟨ch, hch, hholds⟩, -, -, -⟩ := h
  by_contra hne
  refine hfull (List.any_eq_true.2 ⟨ch, List.mem_of_getElem? hch, ?_⟩)
  rw [← hholds.rendered] at hne
  exact decide_eq_true hne

theorem inv_setStage (h : Inv seed cs ⟨e, log⟩) (stage : Stage) :
    Inv seed cs ⟨(e.setStage stage).encoder, log ++ (e.setStage stage).out⟩ := by
  have hreject : Inv seed cs ⟨e, log ++ []⟩ := by rwa [List.append_nil]
  unfold Encoder.setStage
  split_ifs with husable hscored hfull htail
  · exact hreject
  · exact hreject
  · rw [List.append_nil]
    refine h.of_fit rfl rfl fun i c k hc hk => ?_
    have htail := hk.fit.tail (by rw [hscored.1]; decide)
    exact ⟨hk.fit.preamble, fun _ => hk.full hfull, fun heq => (nomatch heq), fun _ => htail⟩
  · rw [List.append_nil]
    refine h.of_fit rfl rfl fun i c k hc hk => ?_
    have hpre := hk.fit.full (by rw [htail.1]; decide)
    exact ⟨hk.fit.preamble, fun _ => hpre, fun heq => (nomatch heq), fun hne => absurd rfl hne⟩
  · exact hreject

/-- A call of `encodeNext` is refused, or renders a frame of every channel; behind that it fails
when liblc3 does. -/
theorem encodeNext_cases (e : Encoder) (cap : ℕ) (lc3 : ℕ → Bool) :
    (∃ err, e.encodeNext cap lc3 = e.reject err) ∨
    (e.unusable = false ∧
      let r := e.renderAll (profileFrameSamples e.profile) (List.range e.channels.length)
      (∀ i stage, (samplesOf r.out i stage).length =
        if i < e.channels.length ∧ e.stage = stage then profileFrameSamples e.profile else 0) ∧
      ((∃ n, e.encodeNext cap lc3 = { r with ret := .ok n }) ∨
        ((List.range e.channels.length).all lc3 = false ∧
          e.encodeNext cap lc3 = ⟨{ r.encoder with unusable := true }, .error .eio, r.out⟩))) := by
  unfold Encoder.encodeNext
  dsimp only
  by_cases husable : e.unusable
  · exact .inl ⟨_, if_pos husable⟩
  rw [if_neg husable]
  by_cases hcap : cap < profileSduSize e.profile e.mode
  · exact .inl ⟨_, if_pos hcap⟩
  rw [if_neg hcap]
  by_cases hfull : e.stage = .preamble ∧ e.channels.any fun ch =>
      profileFrameSamples e.profile > preambleTotalSamples - ch.preambleRendered
  · exact .inl ⟨_, if_pos hfull⟩
  rw [if_neg hfull]
  -- a frame that has room in every channel is rendered
  obtain ⟨hpos, hle⟩ := profileFrameSamples_bounds e.profile
  have hroom : ∀ i ∈ List.range e.channels.length, ∃ ch, e.channels[i]? = some ch ∧
      e.HasRoom (profileFrameSamples e.profile) ch := by
    intro i hi
    have hch := List.getElem?_eq_getElem (List.mem_range.1 hi)
    refine ⟨_, hch, fun hstage => not_lt.1 fun hlt => hfull ⟨hstage, ?_⟩⟩
    exact List.any_eq_true.2 ⟨_, List.mem_of_getElem? hch, decide_eq_true hlt⟩
  obtain ⟨hret, hout⟩ := Encoder.renderAll_ok hpos hle _ List.nodup_range husable hroom
  simp only [List.mem_range] at hout
  refine .inr ⟨eq_false_of_ne_true husable, hout, ?_⟩
  rw [hret]
  dsimp only
  split
  · exact .inl ⟨_, rfl⟩
  · rename_i hlc3
    exact .inr ⟨eq_false_of_ne_true hlc3, rfl⟩

theorem inv_encodeNext (h : Inv seed cs ⟨e, log⟩) (cap : ℕ) (lc3 : ℕ → Bool) :
    Inv seed cs ⟨(e.encodeNext cap lc3).encoder, log ++ (e.encodeNext cap lc3).out⟩ := by
  have hall := inv_renderAll (profileFrameSamples e.profile) (List.range e.channels.length) h
  rcases encodeNext_cases e cap lc3 with ⟨err, heq⟩ | ⟨-, -, ⟨n, heq⟩ | ⟨-, heq⟩⟩
  · rw [heq, Encoder.reject, List.append_nil]
    exact h
  · rw [heq]
    exact hall
  · rw [heq]
    exact hall.of_fit rfl rfl fun i c k hc hk => hk.fit

theorem inv_step (h : Inv seed cs s) (call : Call) : Inv seed cs (s.step call) := by
  cases call with
  | setStage stage => exact inv_setStage h stage
  | render i m cap => exact inv_render h i m cap
  | encodeNext cap lc3 => exact inv_encodeNext h cap lc3

/-- After any calls, each channel has rendered the first samples of each stage. -/
theorem inv_run (h : Inv seed cs s) (calls : List Call) : Inv seed cs (s.run calls) := by
  induction calls generalizing s with
  | nil => exact h
  | cons call calls ih => exact ih (inv_step h call)

end Session

end Signal

end Hil

end LeAudioReceiver
