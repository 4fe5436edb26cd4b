import LeAudioReceiver.Hil.Rendered

/-!
# The HIL signal does not depend on how it is rendered

What an encoder renders for a channel in a stage is a prefix of one sequence of samples, which the
seed and the semantic channel determine.  Its length is the number of samples that the accepted
calls were given (`Encoder.accepted`).

* `Session.samplesOf_run`, `Session.streamOf_run` : the samples of a channel, from what the accepted
  calls were given;
* `partition_invariant` : two channels of the same seed and semantics render the same samples,
  whatever the calls, the profiles and the modes;
* `Encoder.accepted_split` : every split of the scored stage into calls is accepted.
-/

namespace LeAudioReceiver

namespace Hil

namespace Signal

/-! ### Bounds -/

theorem natAbs_tdiv_le {a : ℤ} {b m : ℕ} (h : a.natAbs ≤ b * m) :
    (a.tdiv b).natAbs ≤ m := by
  rw [Int.natAbs_tdiv, Int.natAbs_natCast]
  exact Nat.div_le_of_le_mul h

theorem sineLut_bounded : ∀ x ∈ sineLut, 0 ≤ x ∧ x ≤ 32767 := by decide +kernel

theorem sineLut_getD_bounded (i : ℕ) : 0 ≤ sineLut.getD i 0 ∧ sineLut.getD i 0 ≤ 32767 := by
  rw [List.getD_eq_getElem?_getD]
  cases hget : sineLut[i]? with
  | none => simp
  | some x => exact sineLut_bounded x (List.mem_of_getElem? hget)

theorem sineQ15_bounded (i : ℕ) : (sineQ15 i).natAbs ≤ 32767 := by
  unfold sineQ15
  have h₁ := sineLut_getD_bounded (i % 1024)
  have h₂ := sineLut_getD_bounded (512 - i % 1024)
  have h₃ := sineLut_getD_bounded (i % 1024 - 512)
  have h₄ := sineLut_getD_bounded (1024 - i % 1024)
  grind

theorem Sample.at_bounded {phase : UInt32} {amp : ℤ} (h₀ : 0 ≤ amp) (h : amp ≤ amplitudeFull) :
    |(Sample.at phase amp).pcm| ≤ amplitudeFull := by
  have hamp : amp.natAbs ≤ 8192 := by unfold amplitudeFull at h; omega
  have hpcm : ((Sample.at phase amp).pcm).natAbs ≤ 8192 := by
    unfold Sample.at
    split
    · exact Nat.zero_le _
    · refine natAbs_tdiv_le (b := 32767) ?_
      rw [Int.natAbs_mul]
      exact Nat.mul_le_mul (sineQ15_bounded _) hamp
  unfold amplitudeFull
  rw [Int.abs_eq_natAbs]
  exact_mod_cast hpcm

theorem target_eq (prng : UInt32) :
    ChannelState.target prng = amplitudeFull ∨ ChannelState.target prng = amplitudeLow := by
  unfold ChannelState.target
  split
  · exact .inl rfl
  · exact .inr rfl

theorem rampAt_bounded {old next : ℤ} (hold : old = amplitudeFull ∨ old = amplitudeLow)
    (hnext : next = amplitudeFull ∨ next = amplitudeLow) (pos : ℕ) :
    0 ≤ rampAt old next pos ∧ rampAt old next pos ≤ amplitudeFull := by
  unfold rampAt transitionRampSamples amplitudeFull amplitudeLow at *
  split
  · rename_i hpos
    -- the step has the sign of the difference and is at most as long
    have hup : 0 ≤ ((4096 * (pos + 1) : ℤ)).tdiv (240 : ℕ) ∧
        ((4096 * (pos + 1) : ℤ)).tdiv (240 : ℕ) ≤ 4096 := by
      rw [Int.tdiv_eq_ediv_of_nonneg (by omega)]
      omega
    have hdown : ((-4096 * (pos + 1) : ℤ)).tdiv (240 : ℕ) =
        -((4096 * (pos + 1) : ℤ)).tdiv (240 : ℕ) := by
      rw [← Int.neg_tdiv, Int.neg_mul]
    have hzero : ((0 * (pos + 1) : ℤ)).tdiv (240 : ℕ) = 0 := by rw [Int.zero_mul, Int.zero_tdiv]
    rcases hold with rfl | rfl <;> rcases hnext with rfl | rfl <;>
      simp only [Int.reduceSub, Int.reduceNeg] at hdown ⊢ <;> omega
  · rcases hnext with rfl | rfl <;> decide

theorem oldAt_eq (seed : UInt32) (c : Channel) (b : ℕ) :
    oldAt seed c b = amplitudeFull ∨ oldAt seed c b = amplitudeLow := by
  cases b with
  | zero => exact .inl rfl
  | succ b => exact target_eq _

theorem sampleAt_bounded (seed : UInt32) (c : Channel) (stage : Stage) (k : ℕ) :
    |(sampleAt seed c stage k).pcm| ≤ amplitudeFull := by
  cases stage with
  | preamble =>
    have hamp : preambleAt c k = amplitudeFull ∨ preambleAt c k = 0 := by
      unfold preambleAt preambleAmplitude
      exact ite_eq_or_eq _ _ _
    have hrange : 0 ≤ preambleAt c k ∧ preambleAt c k ≤ amplitudeFull := by
      rcases hamp with hamp | hamp
      · rw [hamp]; decide
      · rw [hamp]; decide
    exact Sample.at_bounded hrange.1 hrange.2
  | scored =>
    have hamp := rampAt_bounded (oldAt_eq seed c (k / envelopeBlockSamples))
      (target_eq (prngAt seed c (k / envelopeBlockSamples))) (k % envelopeBlockSamples)
    exact Sample.at_bounded hamp.1 hamp.2
  | tail =>
    change |(0 : ℤ)| ≤ amplitudeFull
    decide

/-! ### Rejected calls -/

/-- liblc3 does not fail in the call. -/
def Call.Encodes : Call → Prop
  | .encodeNext _ lc3 => ∀ i, lc3 i = true
  | _ => True

/-- A call that is refused renders nothing and changes nothing. -/
theorem Encoder.call_rejected {e : Encoder} {call : Call} {err : Errno} (hcall : call.Encodes)
    (h : (e.call call).ret = .error err) : e.call call = e.reject err := by
  cases call with
  | setStage stage =>
    revert h
    change (e.setStage stage).ret = _ → e.setStage stage = _
    unfold setStage
    split_ifs <;> intro h <;> cases h <;> rfl
  | render i n cap =>
    revert h
    change (e.render i n cap).ret = _ → e.render i n cap = _
    unfold render
    split
    · intro h
      cases h
      rfl
    · split
      · intro h
        cases h
        rfl
      · dsimp only
        split_ifs <;> intro h <;> cases h <;> rfl
  | encodeNext cap lc3 =>
    change (e.encodeNext cap lc3).ret = _ at h
    change e.encodeNext cap lc3 = _
    rcases Session.encodeNext_cases e cap lc3 with ⟨err', heq⟩ | ⟨-, -, ⟨n, heq⟩ | ⟨hlc3, heq⟩⟩
    · rw [heq] at h ⊢
      cases h
      rfl
    · rw [heq] at h
      cases h
    · rw [List.all_eq_true.2 fun i _ => hcall i] at hlc3
      cases hlc3

/-! ### Accepted calls -/

namespace Encoder

/-- The samples of channel `i` that a call asks for. -/
def asks (e : Encoder) (i : ℕ) : Call → ℕ
  | .setStage _ => 0
  | .render j samples _ => if j = i then samples else 0
  | .encodeNext _ _ => if i < e.channels.length then profileFrameSamples e.profile else 0

/-- The call renders what it asks for: it is accepted, or it fails in liblc3, behind the rendering,
and leaves the encoder unusable. -/
def takes (e : Encoder) (call : Call) : Bool :=
  (e.call call).ret.isOk || !e.unusable && (e.call call).encoder.unusable

/-- The samples of channel `i` that calls were given in a stage, as far as they were accepted. -/
def accepted (i : ℕ) (stage : Stage) : Encoder → List Call → ℕ
  | _, [] => 0
  | e, call :: calls =>
    (if e.takes call ∧ e.stage = stage then e.asks i call else 0) +
      accepted i stage (e.call call).encoder calls

variable {e : Encoder} {call : Call} {i : ℕ}

theorem takes_of_reject {err : Errno} (h : e.call call = e.reject err) : e.takes call = false := by
  have hret : (e.reject err).ret.isOk = false := rfl
  have hsame : (e.reject err).encoder = e := rfl
  rw [takes, h, hret, hsame]
  cases e.unusable <;> rfl

theorem takes_of_ok {n : ℕ} (h : (e.call call).ret = .ok n) : e.takes call = true := by
  rw [takes, h]
  rfl

/-- A call renders what it asks for in its stage, or nothing. -/
theorem length_call (hi : i < e.channels.length) (stage : Stage) :
    (samplesOf (e.call call).out i stage).length =
      if e.takes call ∧ e.stage = stage then e.asks i call else 0 := by
  -- a call that is refused renders nothing
  have hreject : ∀ err, e.call call = e.reject err →
      (samplesOf (e.call call).out i stage).length =
        if e.takes call ∧ e.stage = stage then e.asks i call else 0 := by
    intro err h
    rw [takes_of_reject h, h]
    simp [reject, samplesOf]
  cases call with
  | setStage next =>
    have hout : (e.setStage next).out = [] := by
      unfold setStage
      split_ifs <;> rfl
    change (samplesOf (e.setStage next).out i stage).length = _
    rw [hout, asks, ite_self]
    rfl
  | render j n cap =>
    rcases Session.render_cases e j n cap with ⟨err, heq⟩ | ⟨rfl, heq⟩ | ⟨ch, -, -, heq⟩
    · exact hreject err heq
    · change (samplesOf (e.render j 0 cap).out i stage).length = _
      rw [heq, asks, ite_self, ite_self]
      rfl
    · have htakes : e.takes (.render j n cap) = true := takes_of_ok (congrArg Outcome.ret heq)
      rw [htakes]
      change (samplesOf (e.render j n cap).out i stage).length = _
      rw [heq, samplesOf_single, asks]
      by_cases hj : j = i
      · by_cases hstage : e.stage = stage
        · simp [Session.output, hj, hstage, ChannelState.length_renderLoop]
        · simp [Session.output, hstage]
      · simp [Session.output, hj]
  | encodeNext cap lc3 =>
    rcases Session.encodeNext_cases e cap lc3 with
      ⟨err, heq⟩ | ⟨husable, hout, ⟨n, heq⟩ | ⟨-, heq⟩⟩
    · exact hreject err heq
    · have htakes : e.takes (.encodeNext cap lc3) = true :=
        takes_of_ok (congrArg Outcome.ret heq)
      rw [htakes]
      change (samplesOf (e.encodeNext cap lc3).out i stage).length = _
      rw [heq, hout, asks]
      simp [hi]
    · -- liblc3 fails behind the rendering, so the samples count although the call reports an error
      have htakes : e.takes (.encodeNext cap lc3) = true := by
        rw [takes, husable]
        change (Except.isOk (e.encodeNext cap lc3).ret ||
          !false && (e.encodeNext cap lc3).encoder.unusable) = true
        rw [heq]
        rfl
      rw [htakes]
      change (samplesOf (e.encodeNext cap lc3).out i stage).length = _
      rw [heq, hout, asks]
      simp [hi]

theorem accepted_append (i : ℕ) (stage : Stage) (log : List Rendered) (calls calls' : List Call) :
    e.accepted i stage (calls ++ calls') = e.accepted i stage calls +
      (Session.run ⟨e, log⟩ calls).encoder.accepted i stage calls' := by
  induction calls generalizing e log with
  | nil => exact (Nat.zero_add _).symm
  | cons call calls ih =>
    rw [List.cons_append, accepted, accepted, ih, Nat.add_assoc]
    rfl

end Encoder

/-- What was rendered of a channel is what the accepted calls were given. -/
theorem Session.Inv.length_run {seed : UInt32} {cs : List Channel} {s : Session}
    (h : s.Inv seed cs) {i : ℕ} (hi : i < cs.length) (calls : List Call) (stage : Stage) :
    (samplesOf (s.run calls).log i stage).length =
      (samplesOf s.log i stage).length + s.encoder.accepted i stage calls := by
  induction calls generalizing s with
  | nil => rfl
  | cons call calls ih =>
    have hrest := ih (inv_step h call)
    rw [step, samplesOf_append, List.length_append,
      Encoder.length_call (h.length ▸ hi)] at hrest
    rw [Encoder.accepted, ← Nat.add_assoc]
    exact hrest

/-! ### Two runs -/

/-- An encoder of a seed that `init` has set up. -/
def Encoder.Fresh (seed : UInt32) (e : Encoder) : Prop :=
  ∃ mode profile ch0 ch1 setup, Encoder.init mode profile seed ch0 ch1 setup = .ok e

/-- The semantic channel at an index. -/
def Encoder.semantic (e : Encoder) (i : ℕ) : Option Channel :=
  e.channels[i]?.map (·.semantic)

theorem ChannelState.holds_init (seed : UInt32) (c : Channel) :
    (ChannelState.init c).Holds seed c ⟨0, 0, 0⟩ :=
  ⟨rfl, (UInt32.zero_mul).symm, rfl, .inl ⟨rfl, rfl⟩⟩

namespace Session

variable {seed : UInt32} {s : Session} {e : Encoder} {i : ℕ} {c : Channel}

theorem inv_init (h : e.Fresh seed) :
    ∃ cs : List Channel, Inv seed cs ⟨e, []⟩ ∧ ∀ i, e.semantic i = cs[i]? := by
  obtain ⟨mode, profile, ch0, ch1, setup, hinit⟩ := h
  unfold Encoder.init at hinit
  dsimp only at hinit
  split_ifs at hinit
  obtain rfl := Except.ok.inj hinit
  have hget : ∀ i : ℕ, (ChannelState.init ch0 :: ch1.toList.map ChannelState.init)[i]? =
      (ch0 :: ch1.toList)[i]?.map ChannelState.init := by
    intro i
    rw [← List.getElem?_map, List.map_cons]
  refine ⟨ch0 :: ch1.toList, ⟨rfl, by simp, fun i c hc => ⟨⟨0, 0, 0⟩, ?_, ?_, ?_, rfl⟩⟩, ?_⟩
  · exact ⟨.init c, by rw [hget, hc]; rfl, ChannelState.holds_init seed c⟩
  · exact ⟨Nat.zero_le _, fun hne => absurd rfl hne, fun _ => rfl, fun _ => rfl⟩
  · intro stage
    cases stage <;> rfl
  · intro i
    change (ChannelState.init ch0 :: _)[i]?.map _ = _
    rw [hget]
    cases (ch0 :: ch1.toList : List Channel)[i]? <;> rfl

theorem renders_run (h : e.Fresh seed) (hc : e.semantic i = some c) (calls : List Call) :
    ∃ k, Renders seed c (run ⟨e, []⟩ calls) i k := by
  obtain ⟨cs, hinv, hcs⟩ := inv_init h
  exact (inv_run hinv calls).renders i c ((hcs i).symm.trans hc)

theorem Renders.length {k : ChannelState.Counts} (h : Renders seed c s i k) (stage : Stage) :
    (samplesOf s.log i stage).length = k.of stage := by
  rw [h.samples, length_stageSamples]

/-- The samples of a channel of a fresh encoder, in a stage. -/
theorem samplesOf_run (h : e.Fresh seed) (hc : e.semantic i = some c) (calls : List Call)
    (stage : Stage) :
    samplesOf (run ⟨e, []⟩ calls).log i stage =
      stageSamples seed c stage (e.accepted i stage calls) := by
  obtain ⟨cs, hinv, hcs⟩ := inv_init h
  have hget : cs[i]? = some c := (hcs i).symm.trans hc
  obtain ⟨k, hk⟩ := (inv_run hinv calls).renders i c hget
  have hlength := hinv.length_run (List.getElem?_eq_some_iff.1 hget).1 calls stage
  have hnil : samplesOf (Session.mk e []).log i stage = [] := rfl
  rw [hk.length, hnil, List.length_nil, Nat.zero_add] at hlength
  rw [hk.samples, hlength]

/-- The samples of a channel of a fresh encoder, in all stages. -/
theorem streamOf_run (h : e.Fresh seed) (hc : e.semantic i = some c) (calls : List Call) :
    streamOf (run ⟨e, []⟩ calls).log i =
      allSamples seed c ⟨e.accepted i .preamble calls, e.accepted i .scored calls,
        e.accepted i .tail calls⟩ := by
  obtain ⟨k, hk⟩ := renders_run h hc calls
  have hof : ∀ stage, k.of stage = e.accepted i stage calls := by
    intro stage
    rw [← hk.length, samplesOf_run h hc, length_stageSamples]
  rw [hk.stream, ← hof, ← hof, ← hof]
  rfl

theorem renderAll_stage (n : ℕ) (is : List ℕ) (e : Encoder) :
    (e.renderAll n is).encoder.stage = e.stage := by
  induction is generalizing e with
  | nil => rfl
  | cons i is ih =>
    have hone := (render_same e i n (480 * 2)).1
    rw [Encoder.renderAll]
    dsimp only
    split
    · exact hone
    · split
      · exact hone
      · exact (ih _).trans hone

/-- The scored stage is entered by `setStage` alone, behind its check. -/
theorem scored_entry {call : Call} (hstage : e.stage ≠ .scored)
    (hscored : (e.call call).encoder.stage = .scored) :
    ¬(e.channels.any fun ch => ch.preambleRendered ≠ preambleTotalSamples) = true := by
  cases call with
  | setStage stage =>
    revert hscored
    change (e.setStage stage).encoder.stage = _ → _
    unfold Encoder.setStage
    split_ifs with husable hentry hfull htail
    · exact fun heq => absurd heq hstage
    · exact fun heq => absurd heq hstage
    · exact fun _ => hfull
    · exact fun heq => (nomatch heq)
    · exact fun heq => absurd heq hstage
  | render i n cap =>
    exact absurd ((render_same e i n cap).1.symm.trans hscored) hstage
  | encodeNext cap lc3 =>
    refine absurd ?_ hstage
    rw [← hscored]
    change _ = (e.encodeNext cap lc3).encoder.stage
    have hall := renderAll_stage (profileFrameSamples e.profile) (List.range e.channels.length) e
    rcases encodeNext_cases e cap lc3 with ⟨err, heq⟩ | ⟨-, -, ⟨n, heq⟩ | ⟨-, heq⟩⟩
    · rw [heq]
      rfl
    · rw [heq, hall]
    · rw [heq, hall]

end Session

/-! ### Any split of the scored stage -/

theorem Session.run_append (s : Session) (calls calls' : List Call) :
    s.run (calls ++ calls') = (s.run calls).run calls' :=
  List.foldl_append

/-- A call of `render` for each channel and count of `parts`. -/
def renderCalls (parts : List (ℕ × ℕ)) : List Call := parts.map fun p => .render p.1 p.2 (p.2 * 2)

/-- The whole preamble of every channel, and the entry of the scored stage. -/
def Encoder.preambleCalls (e : Encoder) : List Call :=
  renderCalls ((List.range e.channels.length).map (·, preambleTotalSamples)) ++ [.setStage .scored]

theorem renderCalls_cons (p : ℕ × ℕ) (parts : List (ℕ × ℕ)) :
    renderCalls (p :: parts) = .render p.1 p.2 (p.2 * 2) :: renderCalls parts := rfl

theorem ChannelState.renderLoop_preambleRendered (seed : UInt32) (n : ℕ) (ch : ChannelState) :
    (ch.renderLoop seed .preamble n).2.preambleRendered = ch.preambleRendered + n := by
  induction n generalizing ch with
  | zero => rfl
  | succ n ih =>
    have hone : (ch.renderOne seed .preamble).2.preambleRendered = ch.preambleRendered + 1 := rfl
    rw [renderLoop, ih, hone, Nat.add_assoc, Nat.add_comm 1 n]

/-- The channels `is` have their preamble to render, and the others have rendered it. -/
structure Encoder.Filling (e : Encoder) (is : List ℕ) : Prop where
  usable : ¬e.unusable
  stage : e.stage = .preamble
  rendered : ∀ j ch, e.channels[j]? = some ch →
    ch.preambleRendered = if j ∈ is then 0 else preambleTotalSamples

/-- The next channel renders its preamble. -/
theorem Encoder.Filling.render {e : Encoder} {i : ℕ} {is : List ℕ} (h : e.Filling (i :: is))
    (hnotin : i ∉ is) (hi : i < e.channels.length) :
    (e.render i preambleTotalSamples (preambleTotalSamples * 2)).encoder.Filling is := by
  have hch := List.getElem?_eq_getElem hi
  have hzero := h.rendered i _ hch
  rw [if_pos List.mem_cons_self] at hzero
  rw [render_ok h.usable hch (by decide) (by decide) le_rfl fun _ => by rw [hzero]; decide]
  refine ⟨h.usable, h.stage, fun j ch hj => ?_⟩
  by_cases hij : i = j
  · subst hij
    obtain rfl := Option.some.inj ((List.getElem?_set_self hi).symm.trans hj)
    rw [if_neg hnotin, h.stage, ChannelState.renderLoop_preambleRendered, hzero, Nat.zero_add]
  · rw [h.rendered j ch ((List.getElem?_set_ne hij).symm.trans hj)]
    exact if_congr (by simp [Ne.symm hij]) rfl rfl

theorem Session.filled_run (log : List Rendered) {is : List ℕ} {e : Encoder} (h : e.Filling is)
    (hnodup : is.Nodup) (hin : ∀ i ∈ is, i < e.channels.length) :
    (run ⟨e, log⟩ (renderCalls (is.map (·, preambleTotalSamples)))).encoder.Filling [] := by
  induction is generalizing e log with
  | nil => exact h
  | cons i is ih =>
    obtain ⟨hnotin, hnodup'⟩ := List.nodup_cons.1 hnodup
    have hsame := (render_same e i preambleTotalSamples (preambleTotalSamples * 2)).2.2
    exact ih _ (h.render hnotin (hin i List.mem_cons_self)) hnodup' fun j hj =>
      lt_of_lt_of_eq (hin j (List.mem_cons_of_mem i hj)) hsame.symm

theorem Session.filling_fresh {seed : UInt32} {e : Encoder} (h : e.Fresh seed) :
    e.Filling (List.range e.channels.length) := by
  obtain ⟨mode, profile, ch0, ch1, setup, hinit⟩ := h
  unfold Encoder.init at hinit
  dsimp only at hinit
  split_ifs at hinit
  obtain rfl := Except.ok.inj hinit
  refine ⟨Bool.false_ne_true, rfl, fun j ch hj => ?_⟩
  rw [if_pos (List.mem_range.2 (List.getElem?_eq_some_iff.1 hj).1)]
  have hmem := List.mem_of_getElem? hj
  rw [← List.map_cons, List.mem_map] at hmem
  obtain ⟨c, -, rfl⟩ := hmem
  rfl

theorem Session.renderCalls_same (s : Session) (parts : List (ℕ × ℕ)) :
    (s.run (renderCalls parts)).encoder.stage = s.encoder.stage ∧
    (s.run (renderCalls parts)).encoder.channels.length = s.encoder.channels.length := by
  induction parts generalizing s with
  | nil => exact ⟨rfl, rfl⟩
  | cons p parts ih =>
    obtain ⟨hstage, -, hlength⟩ := render_same s.encoder p.1 p.2 (p.2 * 2)
    obtain ⟨ihs, ihl⟩ := ih (s.step (.render p.1 p.2 (p.2 * 2)))
    exact ⟨ihs.trans hstage, ihl.trans hlength⟩

theorem Session.preambleCalls_run {seed : UInt32} {e : Encoder} (h : e.Fresh seed)
    (log : List Rendered) :
    let e' := (run ⟨e, log⟩ e.preambleCalls).encoder
    ¬e'.unusable ∧ e'.stage = .scored ∧ e'.channels.length = e.channels.length := by
  intro e'
  have hfilled := filled_run log (filling_fresh h) List.nodup_range fun i => List.mem_range.1
  obtain ⟨-, hlength⟩ := renderCalls_same ⟨e, log⟩
    ((List.range e.channels.length).map (·, preambleTotalSamples))
  set filled := run ⟨e, log⟩ (renderCalls ((List.range e.channels.length).map
    (·, preambleTotalSamples))) with hdef
  have he' : e' = { filled.encoder with stage := .scored } := by
    have hlast : e' = (filled.encoder.setStage .scored).encoder := by
      rw [hdef]
      exact congrArg Session.encoder (run_append _ _ [.setStage .scored])
    rw [hlast, Encoder.setStage, if_neg hfilled.usable, if_pos ⟨hfilled.stage, rfl⟩, if_neg]
    rw [List.any_eq_true]
    rintro ⟨ch, hmem, hne⟩
    obtain ⟨j, hj⟩ := List.getElem?_of_mem hmem
    exact of_decide_eq_true hne (hfilled.rendered j ch hj)
  rw [he']
  exact ⟨hfilled.usable, rfl, hlength⟩

namespace Encoder

/-- In the scored stage every call of `render` that fits its arguments is accepted. -/
theorem accepted_renderCalls {e : Encoder} {parts : List (ℕ × ℕ)} (husable : ¬e.unusable)
    (hstage : e.stage = .scored)
    (hparts : ∀ p ∈ parts, p.1 < e.channels.length ∧ p.2 ≤ sizeMax / 2) (i : ℕ) :
    e.accepted i .scored (renderCalls parts) =
      ((parts.filter (·.1 = i)).map (·.2)).sum := by
  induction parts generalizing e with
  | nil => rfl
  | cons p parts ih =>
    obtain ⟨hindex, hsize⟩ := hparts p List.mem_cons_self
    have hret : (e.render p.1 p.2 (p.2 * 2)).ret = .ok p.2 := by
      have hch := List.getElem?_eq_getElem hindex
      by_cases hzero : p.2 = 0
      · rw [render, if_neg husable, hch, hzero]
        rfl
      · rw [render_ok husable hch hzero hsize le_rfl fun hpre => by rw [hstage] at hpre; cases hpre]
    have htakes : e.takes (.render p.1 p.2 (p.2 * 2)) = true := takes_of_ok hret
    obtain ⟨hstage', husable', hlength'⟩ := Session.render_same e p.1 p.2 (p.2 * 2)
    have hrest := ih (e := (e.render p.1 p.2 (p.2 * 2)).encoder) (husable'.symm ▸ husable)
      (hstage'.trans hstage) fun q hq => hlength'.symm ▸ hparts q (List.mem_cons_of_mem p hq)
    rw [renderCalls_cons, accepted, htakes, hstage, if_pos ⟨rfl, rfl⟩, asks]
    change _ + (e.render p.1 p.2 (p.2 * 2)).encoder.accepted i .scored _ = _
    rw [hrest]
    by_cases hi : p.1 = i
    · simp [hi]
    · simp [hi]

/-- **Any split of the scored stage into calls is accepted**, behind the whole preamble. -/
theorem accepted_split {seed : UInt32} {e : Encoder} (h : e.Fresh seed) {i : ℕ} {c : Channel}
    (hc : e.semantic i = some c) {parts : List (ℕ × ℕ)}
    (hparts : ∀ p ∈ parts, p.1 < e.channels.length ∧ p.2 ≤ sizeMax / 2) :
    e.accepted i .preamble (e.preambleCalls ++ renderCalls parts) = preambleTotalSamples ∧
    e.accepted i .scored (e.preambleCalls ++ renderCalls parts) =
      ((parts.filter (·.1 = i)).map (·.2)).sum := by
  obtain ⟨husable, hstage, hlength⟩ := Session.preambleCalls_run h []
  have hcount : ∀ calls stage, ∃ k, Session.Renders seed c (Session.run ⟨e, []⟩ calls) i k ∧
      k.of stage = e.accepted i stage calls := by
    intro calls stage
    obtain ⟨k, hk⟩ := Session.renders_run h hc calls
    refine ⟨k, hk, ?_⟩
    rw [← hk.length, Session.samplesOf_run h hc, length_stageSamples]
  refine ⟨?_, ?_⟩
  · -- in the scored stage the preamble is full
    obtain ⟨k, hk, hpre⟩ := hcount (e.preambleCalls ++ renderCalls parts) .preamble
    rw [← hpre]
    refine hk.fit.full ?_
    have hend : (Session.run ⟨e, []⟩ (e.preambleCalls ++ renderCalls parts)).encoder.stage =
        .scored := by
      rw [Session.run_append]
      exact (Session.renderCalls_same _ parts).1.trans hstage
    rw [hend]
    decide
  · have hnone : e.accepted i .scored e.preambleCalls = 0 := by
      -- before the entry of the stage nothing of it is rendered
      obtain ⟨k, hk, hscored⟩ := hcount (renderCalls ((List.range e.channels.length).map
        (·, preambleTotalSamples))) .scored
      have hpre := (Session.renderCalls_same ⟨e, []⟩ ((List.range e.channels.length).map
        (·, preambleTotalSamples))).1.trans (Session.filling_fresh h).stage
      rw [preambleCalls, accepted_append i .scored [], ← hscored]
      simp [accepted, asks, ChannelState.Counts.of, hk.fit.scored hpre]
    rw [accepted_append i .scored [], hnone, Nat.zero_add]
    exact accepted_renderCalls husable hstage (fun p hp => hlength.symm ▸ hparts p hp) i

end Encoder

/-! ### The signal of a channel -/

/-- **The signal of a channel.**  What was rendered of a channel in a stage is as long as the
accepted calls asked for, and two encoders of one seed, of any mode and profile, each after calls of
its own, have rendered the same samples for a semantic channel as soon as these counts agree.  Every
sample lies within the full amplitude, the scored stage is entered only behind the full preamble of
every channel, and a call that is refused changes nothing. -/
theorem partition_invariant {seed : UInt32} {e₁ e₂ : Encoder} (h₁ : e₁.Fresh seed)
    (h₂ : e₂.Fresh seed) {i₁ i₂ : ℕ} {c : Channel} (hc₁ : e₁.semantic i₁ = some c)
    (hc₂ : e₂.semantic i₂ = some c) (calls₁ calls₂ : List Call) :
    let s₁ := Session.run ⟨e₁, []⟩ calls₁
    let s₂ := Session.run ⟨e₂, []⟩ calls₂
    (∀ stage, (samplesOf s₁.log i₁ stage).length = e₁.accepted i₁ stage calls₁) ∧
    (∀ stage, e₁.accepted i₁ stage calls₁ = e₂.accepted i₂ stage calls₂ →
      samplesOf s₁.log i₁ stage = samplesOf s₂.log i₂ stage) ∧
    ((∀ stage, e₁.accepted i₁ stage calls₁ = e₂.accepted i₂ stage calls₂) →
      streamOf s₁.log i₁ = streamOf s₂.log i₂) ∧
    (∀ x ∈ streamOf s₁.log i₁, |x.pcm| ≤ amplitudeFull) ∧
    (∀ call, s₁.encoder.stage ≠ .scored → (s₁.step call).encoder.stage = .scored →
      ∀ i c, e₁.semantic i = some c → e₁.accepted i .preamble calls₁ = preambleTotalSamples) ∧
    (∀ call err, call.Encodes → (s₁.encoder.call call).ret = .error err →
      s₁.step call = s₁) := by
  intro s₁ s₂
  refine ⟨?_, ?_, ?_, ?_, ?_, ?_⟩
  · intro stage
    rw [Session.samplesOf_run h₁ hc₁, length_stageSamples]
  · intro stage hcount
    rw [Session.samplesOf_run h₁ hc₁, Session.samplesOf_run h₂ hc₂, hcount]
  · intro hcount
    rw [Session.streamOf_run h₁ hc₁, Session.streamOf_run h₂ hc₂, hcount, hcount, hcount]
  · intro x hx
    rw [Session.streamOf_run h₁ hc₁] at hx
    simp only [allSamples, stageSamples, List.mem_append, List.mem_map] at hx
    rcases hx with (⟨n, -, rfl⟩ | ⟨n, -, rfl⟩) | ⟨n, -, rfl⟩ <;> exact sampleAt_bounded ..
  · intro call hstage hscored i c hc
    obtain ⟨k, hk⟩ := Session.renders_run h₁ hc calls₁
    have hfull := hk.full (Session.scored_entry hstage hscored)
    rw [← length_stageSamples seed c .preamble (e₁.accepted i .preamble calls₁),
      ← Session.samplesOf_run h₁ hc, hk.length]
    exact hfull
  · intro call err hcall herr
    change Session.mk _ _ = _
    rw [Encoder.call_rejected hcall herr, Encoder.reject, List.append_nil]

/-- Scored samples of the left channel: 300 of a Mode A encoder in one call, against two calls of a
Mode B encoder with one for its right channel between them.  Sample 250 is not silent. -/
theorem partition_invariant_left :
    ∃ e₁ e₂ : Encoder,
      Encoder.init .modeA .p48_3_1 7 .left none (fun _ => true) = .ok e₁ ∧
      Encoder.init .modeB .p48_4_1 7 .left (some .right) (fun _ => true) = .ok e₂ ∧
      let samples₁ := samplesOf (Session.run ⟨e₁, []⟩
        (e₁.preambleCalls ++ renderCalls [(0, 300)])).log 0 .scored
      let samples₂ := samplesOf (Session.run ⟨e₂, []⟩
        (e₂.preambleCalls ++ renderCalls [(0, 100), (1, 7), (0, 200)])).log 0 .scored
      samples₁ = samples₂ ∧ samples₁.length = 300 ∧ ∃ x, samples₁[250]? = some x ∧ x.pcm ≠ 0 := by
  let e₁ : Encoder := ⟨.modeA, .p48_3_1, 7, .preamble, [.init .left], false⟩
  let e₂ : Encoder := ⟨.modeB, .p48_4_1, 7, .preamble, [.init .left, .init .right], false⟩
  have hfresh₁ : e₁.Fresh 7 := ⟨.modeA, .p48_3_1, .left, none, fun _ => true, rfl⟩
  have hfresh₂ : e₂.Fresh 7 := ⟨.modeB, .p48_4_1, .left, some .right, fun _ => true, rfl⟩
  have hcount₁ : e₁.accepted 0 .scored (e₁.preambleCalls ++ renderCalls [(0, 300)]) = 300 :=
    (Encoder.accepted_split hfresh₁ (c := .left) rfl (by decide)).2
  have hcount₂ : e₂.accepted 0 .scored
      (e₂.preambleCalls ++ renderCalls [(0, 100), (1, 7), (0, 200)]) = 300 :=
    (Encoder.accepted_split hfresh₂ (c := .left) rfl (by decide)).2
  obtain ⟨hlength, hsame, -⟩ := @partition_invariant 7 e₁ e₂ hfresh₁ hfresh₂ 0 0 .left rfl rfl
    (e₁.preambleCalls ++ renderCalls [(0, 300)])
    (e₂.preambleCalls ++ renderCalls [(0, 100), (1, 7), (0, 200)])
  refine ⟨e₁, e₂, rfl, rfl, hsame .scored (hcount₁.trans hcount₂.symm),
    (hlength .scored).trans hcount₁, sampleAt 7 .left .scored 250, ?_, by decide +kernel⟩
  have hsamples := Session.samplesOf_run hfresh₁ (i := 0) (c := .left) rfl
    (e₁.preambleCalls ++ renderCalls [(0, 300)]) .scored
  rw [hsamples, hcount₁]
  simp [stageSamples]

end Signal

end Hil

end LeAudioReceiver
