import LeAudioReceiver.ModeA.Order

/-!
# Exchanging the channels

A run in which left and right are exchanged in every call is the mirror image of the run, as far as
the comparison of the two channels is symmetric.  It is not where the oldest halves are one unit
further apart than the tolerance: `ts_same_event` accepts that distance on one side only.  And a
pair is remembered by the timestamp of its left half, so a half that is newer than one of the two
timestamps and not than the other one is ignored in one of the runs.

* `State.mirror`, `Outcome.mirror` : the mirror images;
* `State.store_mirror` : **a call on the mirror image is the mirror image of the call**, where the
  comparisons agree;
* `run_mirror` : so is a run;
* `distance_one_more` : two halves that make an event in one order and not in the other.
-/

namespace LeAudioReceiver

namespace ModeA

open Circular

variable {c : Config}

@[simp]
theorem Channel.other_other (ch : Channel) : ch.other.other = ch := by cases ch <;> rfl

theorem update_other {α : Type*} (f : Channel → α) (ch : Channel) (x : α) :
    (fun ch' => Function.update f ch x ch'.other) =
      Function.update (fun ch' => f ch'.other) ch.other x := by
  funext ch'
  cases ch <;> cases ch' <;> rfl

/-! ### Mirror images -/

/-- The call for the other channel. -/
def Delivery.mirror (d : Delivery) : Delivery := { d with ch := d.ch.other }

/-- The timestamp of the event when the channels are exchanged: that of the right half, where the
event has both. -/
def Emission.twin (e : Emission) : UInt32 :=
  match e.popped .left, e.popped .right with
  | some l, some r => if l.hasTs && r.hasTs then r.ts else e.event.ts
  | _, _ => e.event.ts

/-- The event with its halves exchanged. -/
def Emission.mirror (e : Emission) : Emission where
  event :=
    { ts := e.twin
      seq := fun ch => e.event.seq ch.other
      halfValid := fun ch => e.event.halfValid ch.other
      halfSrc := fun ch => e.event.halfSrc ch.other
      len := fun ch => e.event.len ch.other
      data := fun ch => e.event.data ch.other }
  popped := fun ch => e.popped ch.other

/-- The state with its channels exchanged, which remembers `twin`. -/
def State.mirror (st : State c) (twin : UInt32) : State c :=
  { st with
    queue := fun ch => st.queue ch.other
    lastTs := fun ch => st.lastTs ch.other
    lastHasTs := fun ch => st.lastHasTs ch.other
    resolvedTs := twin }

/-- What the mirror image remembers after the call. -/
def Outcome.twin (o : Outcome c) (twin : UInt32) : UInt32 :=
  match o.emission with
  | some e => if e.timed then e.twin else twin
  | none => twin

/-- The outcome with the channels exchanged. -/
def Outcome.mirror (o : Outcome c) (twin : UInt32) : Outcome c :=
  ⟨o.st.mirror (o.twin twin), o.action, o.emission.map Emission.mirror⟩

attribute [ext] State

theorem Emission.timed_mirror (e : Emission) : e.mirror.timed = e.timed := Bool.or_comm _ _

/-! ### Where the comparison is symmetric -/

/-- The distances at which the two channels are compared the same way from both sides. -/
def SymmetricAt (l r : UInt32) : Prop :=
  (l - r).toNat ≠ tsTolerance + 1 ∧ (r - l).toNat ≠ tsTolerance + 1 ∧ (l - r).toNat ≠ 2 ^ 31

instance (l r : UInt32) : Decidable (SymmetricAt l r) := inferInstanceAs (Decidable (_ ∧ _ ∧ _))

section Compare

variable {l r : UInt32}

theorem tsSameEvent_comm (h : SymmetricAt l r) : tsSameEvent r l = tsSameEvent l r := by
  obtain ⟨h₁, h₂, -⟩ := h
  have hl := l.toNat_lt
  have hr := r.toNat_lt
  simp only [UInt32.toNat_sub, tsTolerance] at h₁ h₂
  simp only [tsSameEvent, UInt32.toNat_sub, tsTolerance]
  rw [Bool.eq_iff_iff]
  simp only [Bool.or_eq_true, decide_eq_true_eq]
  omega

theorem tsNewer_comm (h : SymmetricAt l r) (hsame : tsSameEvent l r = false) :
    tsNewer r l = !tsNewer l r := by
  obtain ⟨h₁, h₂, h₃⟩ := h
  have hl := l.toNat_lt
  have hr := r.toNat_lt
  simp only [UInt32.toNat_sub, tsTolerance] at h₁ h₂ h₃
  simp only [tsSameEvent, UInt32.toNat_sub, tsTolerance, Bool.or_eq_false_iff,
    decide_eq_false_iff_not] at hsame
  simp only [tsNewer, UInt32.toNat_sub, tsTolerance]
  rw [Bool.eq_iff_iff]
  simp only [Bool.and_eq_true, decide_eq_true_eq, Bool.not_eq_true', Bool.and_eq_false_iff,
    decide_eq_false_iff_not]
  omega

theorem near_of_sameEvent (h : SymmetricAt l r) (hsame : tsSameEvent l r = true) :
    (l - r).toNat ≤ tsTolerance ∨ (r - l).toNat ≤ tsTolerance := by
  obtain ⟨h₁, h₂, -⟩ := h
  have hl := l.toNat_lt
  have hr := r.toNat_lt
  simp only [UInt32.toNat_sub, tsTolerance] at h₁ h₂ ⊢
  simp only [tsSameEvent, UInt32.toNat_sub, tsTolerance, Bool.or_eq_true, decide_eq_true_eq]
    at hsame
  omega

end Compare

namespace State

variable {st : State c} {twin : UInt32}

/-! ### One event -/

/-- The arguments of `emit_event` for the other channel. -/
def swap (f : Channel → Bool) : Channel → Bool := fun ch => f ch.other

@[simp] theorem swap_only (ch : Channel) : swap (only ch) = only ch.other := by
  funext ch'
  cases ch <;> cases ch' <;> rfl

@[simp] theorem swap_both : swap both = both := rfl

@[simp] theorem swap_neither : swap neither = neither := rfl

theorem emitEvent_counters (data pop : Channel → Bool) (ts : UInt32) :
    (st.emitEvent data pop ts).1.resolvedEvents = st.resolvedEvents + 1 ∧
      (st.emitEvent data pop ts).1.plcBackedEvents =
        (if !(data .left && (st.oldest .left).srcValid) ||
            !(data .right && (st.oldest .right).srcValid)
          then st.plcBackedEvents + 1 else st.plcBackedEvents) ∧
      (st.emitEvent data pop ts).1.rejects = st.rejects := by
  cases hl : pop .left <;> cases hr : pop .right <;> simp [emitEvent, popHalf, hl, hr]

theorem emitEvent_mirror (data pop : Channel → Bool) {ts ts' : UInt32}
    (hts : (st.emitEvent data pop ts).2.twin = ts') :
    (st.mirror twin).emitEvent (swap data) (swap pop) ts' =
      ((st.emitEvent data pop ts).1.mirror
          (if (st.emitEvent data pop ts).2.timed then ts' else twin),
        (st.emitEvent data pop ts).2.mirror) := by
  have hemission : ((st.mirror twin).emitEvent (swap data) (swap pop) ts').2 =
      (st.emitEvent data pop ts).2.mirror := by
    simp only [Emission.mirror, hts]
    rfl
  have htimed : ((st.mirror twin).emitEvent (swap data) (swap pop) ts').2.timed =
      (st.emitEvent data pop ts).2.timed := by
    rw [hemission, Emission.timed_mirror]
  obtain ⟨hres, hhas⟩ := (st.mirror twin).emitEvent_resolved (swap data) (swap pop) ts'
  obtain ⟨-, hhas₀⟩ := st.emitEvent_resolved data pop ts
  obtain ⟨hlast, hlastHas, hinterval⟩ :=
    (st.mirror twin).emitEvent_lastTs (swap data) (swap pop) ts'
  obtain ⟨hlast₀, hlastHas₀, hinterval₀⟩ := st.emitEvent_lastTs data pop ts
  obtain ⟨hevents, hplc, hrejects⟩ :=
    (st.mirror twin).emitEvent_counters (swap data) (swap pop) ts'
  obtain ⟨hevents₀, hplc₀, hrejects₀⟩ := st.emitEvent_counters data pop ts
  refine Prod.ext (State.ext ?_ ?_ ?_ ?_ ?_ ?_ ?_ ?_ ?_ ?_) hemission
  · funext ch
    show _ = (st.emitEvent data pop ts).1.queue ch.other
    rw [emitEvent_queue, emitEvent_queue]
    rfl
  · funext ch
    exact (congrFun hlast ch).trans (congrFun hlast₀ ch.other).symm
  · funext ch
    exact (congrFun hlastHas ch).trans (congrFun hlastHas₀ ch.other).symm
  · exact hinterval.trans hinterval₀.symm
  · rw [hres, htimed]
    rfl
  · rw [hhas, htimed]
    exact hhas₀.symm
  · exact hevents.trans hevents₀.symm
  · refine (hplc.trans ?_).trans hplc₀.symm
    rw [Bool.or_comm]
    rfl
  · have hdrops : (st.emitEvent data pop ts).1.overflowDrops = st.overflowDrops :=
      emitEvent_overflowDrops data pop ts
    exact (emitEvent_overflowDrops _ _ _).trans hdrops.symm
  · exact hrejects.trans hrejects₀.symm

/-- The timestamp that the mirror image gives an event of one popped half at most, or of halves
without timestamps. -/
theorem twin_eq_ts {data pop : Channel → Bool} {ts : UInt32}
    (h : ∀ l r, (st.emitEvent data pop ts).2.popped .left = some l →
      (st.emitEvent data pop ts).2.popped .right = some r → (l.hasTs && r.hasTs) = false) :
    (st.emitEvent data pop ts).2.twin = ts := by
  unfold Emission.twin
  split
  · rename_i l r hl hr
    rw [h l r hl hr]
    rfl
  · rfl

/-- The heads of the two queues are compared the same way from both sides. -/
def HeadsSymmetric (w : Channel → List Half) : Prop :=
  ∀ l r, (w .left).head? = some l → (w .right).head? = some r → l.hasTs = true →
    r.hasTs = true → SymmetricAt l.ts r.ts

theorem emitted_mirror (twin : UInt32) (data pop : Channel → Bool) {ts ts' : UInt32}
    (hts : (st.emitEvent data pop ts).2.twin = ts') :
    emitted ((st.mirror twin).emitEvent (swap data) (swap pop) ts') =
      (emitted (st.emitEvent data pop ts)).mirror twin := by
  rw [emitEvent_mirror data pop hts]
  simp only [emitted, Outcome.mirror, Outcome.twin, Option.map_some, hts]

theorem resolve_mirror (hle : ∀ ch, st.count ch ≤ c.pendingDepth)
    (hsym : HeadsSymmetric st.pending) (dropped : Bool) :
    (st.mirror twin).resolve dropped = (st.resolve dropped).mirror twin := by
  have hcount : ∀ ch, (st.mirror twin).count ch = st.count ch.other := fun _ => rfl
  have hold : ∀ ch, (st.mirror twin).oldest ch = st.oldest ch.other := fun _ => rfl
  by_cases hempty : st.count .left = 0 ∨ st.count .right = 0
  · have hempty' : (st.mirror twin).count .left = 0 ∨ (st.mirror twin).count .right = 0 := by
      rw [hcount, hcount]
      exact hempty.symm
    rw [resolve, if_pos hempty', resolve, if_pos hempty]
    rfl
  · obtain ⟨hl₀, hr₀⟩ := not_or.1 hempty
    have hempty' : ¬ ((st.mirror twin).count .left = 0 ∨ (st.mirror twin).count .right = 0) := by
      rw [hcount, hcount]
      exact fun h => hempty h.symm
    have hhl := head_pending hl₀ (hle .left)
    have hhr := head_pending hr₀ (hle .right)
    -- an event of one channel alone has the same timestamp from both sides
    have hlone : ∀ (ch : Channel) (ts : UInt32),
        (st.emitEvent (only ch) (only ch) ts).2.twin = ts := by
      intro ch ts
      refine twin_eq_ts fun l r hl hr => ?_
      cases ch
      · rw [popped_none _ _ (by rfl)] at hr
        cases hr
      · rw [popped_none _ _ (by rfl)] at hl
        cases hl
    -- so has an event with a half without a timestamp
    have hpair : ∀ (data : Channel → Bool) (ts : UInt32),
        ((st.oldest .left).hasTs && (st.oldest .right).hasTs) = false →
          (st.emitEvent data both ts).2.twin = ts := by
      intro data ts hnot
      refine twin_eq_ts fun l r hl hr => ?_
      obtain rfl := Option.some.inj ((emitEvent_popped data ts rfl hl₀).symm.trans hl)
      obtain rfl := Option.some.inj ((emitEvent_popped data ts rfl hr₀).symm.trans hr)
      exact hnot
    rw [resolve, if_neg hempty', resolve, if_neg hempty]
    simp only [hold, Channel.other]
    cases hlts : (st.oldest .left).hasTs <;> cases hrts : (st.oldest .right).hasTs
    · -- two sentinels
      have htwin := hpair neither 0 (by simp [hlts])
      simpa using emitted_mirror twin neither both htwin
    · -- a sentinel on the left
      have htwin := hpair (only .right) (st.oldest .right).ts (by simp [hlts])
      simpa [Channel.other] using emitted_mirror twin (only .right) both htwin
    · -- a sentinel on the right
      have htwin := hpair (only .left) (st.oldest .left).ts (by simp [hrts])
      simpa [Channel.other] using emitted_mirror twin (only .left) both htwin
    · -- two timestamps: a pair, or the older half alone
      have hat := hsym _ _ hhl hhr hlts hrts
      have hcomm := tsSameEvent_comm hat
      cases hsame : tsSameEvent (st.oldest .left).ts (st.oldest .right).ts with
      | true =>
        have htwin : (st.emitEvent both both (st.oldest .left).ts).2.twin =
            (st.oldest .right).ts := by
          rw [Emission.twin, emitEvent_popped _ _ rfl hl₀, emitEvent_popped _ _ rfl hr₀]
          simp [hlts, hrts]
        simpa [hcomm, hsame] using emitted_mirror twin both both htwin
      | false =>
        have hnewer := tsNewer_comm hat hsame
        cases hl : tsNewer (st.oldest .left).ts (st.oldest .right).ts with
        | true =>
          have htwin := hlone .right (st.oldest .right).ts
          simpa [hcomm, hsame, hnewer, hl, Channel.other] using
            emitted_mirror twin (only .right) (only .right) htwin
        | false =>
          have htwin := hlone .left (st.oldest .left).ts
          simpa [hcomm, hsame, hnewer, hl, Channel.other] using
            emitted_mirror twin (only .left) (only .left) htwin

theorem enqueueHalf_mirror (ch : Channel) (h : Half) :
    (st.mirror twin).enqueueHalf ch.other h = (st.enqueueHalf ch h).mirror twin := by
  refine State.ext ?_ rfl rfl rfl rfl rfl rfl rfl rfl rfl
  funext ch'
  cases ch <;> cases ch' <;> rfl

theorem position_mirror (d : Delivery) :
    (st.mirror twin).position d.mirror =
      ((st.position d).1.mirror twin, (st.position d).2) := by
  have hts : (st.mirror twin).lastTs d.ch.other = st.lastTs d.ch :=
    congrArg st.lastTs d.ch.other_other
  have hhas : (st.mirror twin).lastHasTs d.ch.other = st.lastHasTs d.ch :=
    congrArg st.lastHasTs d.ch.other_other
  simp only [position, Delivery.mirror, hts, hhas]
  split_ifs
  · refine Prod.ext (State.ext rfl ?_ ?_ rfl rfl rfl rfl rfl rfl rfl) rfl
    · exact (update_other st.lastTs d.ch d.ts).symm
    · exact (update_other st.lastHasTs d.ch true).symm
  · rfl
  · refine Prod.ext (State.ext rfl ?_ rfl rfl rfl rfl rfl rfl rfl rfl) rfl
    exact (update_other st.lastTs d.ch _).symm
  · rfl

theorem place_mirror (ch : Channel) (h : Half)
    (hsum : st.count .left + st.count .right ≤ c.pendingDepth)
    (hsym : HeadsSymmetric fun ch' => st.pending ch' ++ if ch' = ch then [h] else []) :
    (st.mirror twin).place ch.other h = (st.place ch h).mirror twin := by
  have hother := count_other st ch
  have hcount : (st.mirror twin).count ch.other = st.count ch := by
    show st.count ch.other.other = st.count ch
    rw [Channel.other_other]
  have hcount' : (st.mirror twin).count ch.other.other = st.count ch.other := by
    show st.count ch.other.other.other = st.count ch.other
    rw [Channel.other_other]
  by_cases hfull : st.count ch ≥ c.pendingDepth ∧ st.count ch.other = 0
  · have hfull' : (st.mirror twin).count ch.other ≥ c.pendingDepth ∧
        (st.mirror twin).count ch.other.other = 0 := by
      rw [hcount, hcount']
      exact hfull
    have hold : (st.mirror twin).oldest ch.other = st.oldest ch := by
      show st.oldest ch.other.other = st.oldest ch
      rw [Channel.other_other]
    have htwin : (st.emitEvent (only ch) (only ch) (st.oldest ch).ts).2.twin =
        (st.oldest ch).ts := by
      refine twin_eq_ts fun l r hl hr => ?_
      cases ch
      · rw [popped_none _ _ (by rfl)] at hr
        cases hr
      · rw [popped_none _ _ (by rfl)] at hl
        cases hl
    have hemit : (st.mirror twin).emitEvent (swap (only ch)) (swap (only ch)) (st.oldest ch).ts =
        _ := emitEvent_mirror (only ch) (only ch) htwin
    rw [swap_only] at hemit
    rw [place, if_pos hfull', place, if_pos hfull, hold, hemit]
    simp only [enqueueHalf_mirror, Outcome.mirror, Outcome.twin, Option.map_some, htwin]
  · have hfull' : ¬ ((st.mirror twin).count ch.other ≥ c.pendingDepth ∧
        (st.mirror twin).count ch.other.other = 0) := by
      rw [hcount, hcount']
      exact hfull
    obtain ⟨hplace, hle, hw⟩ := place_of_room h hsum hfull
    have hnot : ¬ c.pendingDepth ≤ st.count ch := by omega
    have hplace' : (st.mirror twin).place ch.other h =
        ((st.mirror twin).enqueueHalf ch.other h).resolve false := by
      simp [place, hcount, hnot]
    rw [hplace, hplace', enqueueHalf_mirror]
    exact resolve_mirror hle (hw ▸ hsym) false

/-- The call compares the two channels, and its half with what is remembered, the same way from both
sides. -/
structure Fair (st : State c) (twin : UInt32) (d : Delivery) : Prop where
  heads : HeadsSymmetric (st.waiting d)
  remembered : ∀ x, st.effective d = some x → st.resolvedHasTs = true →
    tsNewer x twin = tsNewer x st.resolvedTs

/-- **A call on the mirror image.** -/
theorem store_mirror (d : Delivery) (hsum : st.count .left + st.count .right ≤ c.pendingDepth)
    (hfair : st.Fair twin d) : (st.mirror twin).store d.mirror = (st.store d).mirror twin := by
  by_cases hlong : d.len > c.maxFrameOctets
  · have hlong' : d.mirror.len > c.maxFrameOctets := hlong
    rw [store, if_pos hlong', store, if_pos hlong]
    rfl
  · have hlong' : ¬ d.mirror.len > c.maxFrameOctets := hlong
    have hposition : (st.mirror twin).position d.mirror = _ := position_mirror d
    have hqueue := position_queue st d
    obtain ⟨hts, hhas⟩ := position_resolved st d
    rcases hp : st.position d with ⟨st₁, effHasTs, effTs⟩
    rw [hp] at hposition hqueue hts hhas
    dsimp only at hposition hqueue hts hhas
    -- both sides remember an event at positions that compare alike with this one
    have hres : (st₁.mirror twin).alreadyResolved effHasTs effTs =
        st₁.alreadyResolved effHasTs effTs := by
      show (effHasTs && st₁.resolvedHasTs && !tsNewer effTs twin) =
        (effHasTs && st₁.resolvedHasTs && !tsNewer effTs st₁.resolvedTs)
      cases heff : effHasTs with
      | false => rfl
      | true =>
        cases hhas₁ : st₁.resolvedHasTs with
        | false => rfl
        | true =>
          have heffective : st.effective d = some effTs := by
            rw [effective_eq hlong hp, heff]
            rfl
          rw [hfair.remembered effTs heffective (hhas ▸ hhas₁), hts]
    by_cases hresolved : st₁.alreadyResolved effHasTs effTs = true
    · have hstore : st.store d = ⟨st₁, .none, none⟩ := by simp [store, hlong, hp, hresolved]
      have hstore' : (st.mirror twin).store d.mirror = ⟨st₁.mirror twin, .none, none⟩ := by
        simp [store, hlong', hposition, hres, hresolved]
      rw [hstore, hstore']
      rfl
    · have hstore : st.store d = st₁.place d.ch (d.half c effHasTs effTs) := by
        simp [store, hlong, hp, hresolved]
      have hstore' : (st.mirror twin).store d.mirror =
          (st₁.mirror twin).place d.ch.other (d.half c effHasTs effTs) := by
        simp only [store, if_neg hlong', hposition, hres, if_neg hresolved]
        rfl
      have haccepts : st.accepts d = some (d.half c effHasTs effTs) := by
        simp [accepts, hlong, hp, hresolved]
      -- the half joins those of its channel
      have hw : st.waiting d = fun ch => st₁.pending ch ++
          if ch = d.ch then [d.half c effHasTs effTs] else [] := by
        funext ch
        rw [waiting, haccepts, pending, pending, hqueue]
        rfl
      have hsum₁ : st₁.count .left + st₁.count .right ≤ c.pendingDepth := by
        rw [count, count, hqueue]
        exact hsum
      rw [hstore, hstore']
      exact place_mirror d.ch _ hsum₁ (hw ▸ hfair.heads)

end State

/-! ### Every sequence of calls -/

/-- The outcomes of a sequence of calls. -/
def outcomes : State c → List Delivery → List (Outcome c)
  | _, [] => []
  | st, d :: ds => st.store d :: outcomes (st.store d).st ds

/-- All calls of a run are compared the same way from both sides; `twin` is what the mirror image
remembers. -/
def Fair : State c → UInt32 → List Delivery → Prop
  | _, _, [] => True
  | st, twin, d :: ds => st.Fair twin d ∧ Fair (st.store d).st ((st.store d).twin twin) ds

/-- The halves of the two events are exchanged, and their timestamps are within the tolerance. -/
structure Exchanged (e e' : Emission) : Prop where
  ts : (e.event.ts - e'.event.ts).toNat ≤ tsTolerance ∨
    (e'.event.ts - e.event.ts).toNat ≤ tsTolerance
  seq : ∀ ch, e'.event.seq ch = e.event.seq ch.other
  halfValid : ∀ ch, e'.event.halfValid ch = e.event.halfValid ch.other
  halfSrc : ∀ ch, e'.event.halfSrc ch = e.event.halfSrc ch.other
  len : ∀ ch, e'.event.len ch = e.event.len ch.other
  data : ∀ ch, e'.event.data ch = e.event.data ch.other

/-- The action is the same, and so is the event but for the exchange. -/
def Mirrored (o o' : Outcome c) : Prop :=
  o'.action = o.action ∧ Option.Rel Exchanged o.emission o'.emission

theorem Picks.near {w : Channel → List Half} {e : Emission}
    (h : Picks w e.popped e.event.ts) (hsym : State.HeadsSymmetric w) :
    (e.event.ts - e.twin).toNat ≤ tsTolerance ∨ (e.twin - e.event.ts).toNat ≤ tsTolerance := by
  have hself : e.twin = e.event.ts → (e.event.ts - e.twin).toNat ≤ tsTolerance ∨
      (e.twin - e.event.ts).toNat ≤ tsTolerance := by
    intro heq
    rw [heq]
    simp
  cases h with
  | same l r hl hr hlts hrts hsame hpl hpr hts =>
    have htwin : e.twin = r.ts := by simp [Emission.twin, hpl, hpr, hlts, hrts]
    rw [hts, htwin]
    exact near_of_sameEvent (hsym l r hl hr hlts hrts) hsame
  | rightOlder l r _ _ _ _ _ _ hpl hpr _ => exact hself (by simp [Emission.twin, hpl])
  | leftOlder l r _ _ _ _ _ _ hpl hpr _ => exact hself (by simp [Emission.twin, hpl, hpr])
  | sentinels l r _ _ hlts _ hpl hpr => exact hself (by simp [Emission.twin, hpl, hpr, hlts])
  | mixed ch h s _ _ _ hsts hp hps _ =>
    refine hself ?_
    cases ch
    · have hpr : e.popped .right = some s := hps
      simp [Emission.twin, hp, hpr, hsts]
    · have hpl : e.popped .left = some s := hps
      simp [Emission.twin, hp, hpl, hsts]
  | deadline ch h _ _ hp hpo _ =>
    refine hself ?_
    cases ch
    · have hpr : e.popped .right = none := hpo
      simp [Emission.twin, hp, hpr]
    · have hpl : e.popped .left = none := hpo
      simp [Emission.twin, hpl]

theorem mirrored_store {st : State c} {twin : UInt32} {d : Delivery}
    (hsum : st.count .left + st.count .right ≤ c.pendingDepth) (hfair : st.Fair twin d) :
    Mirrored (st.store d) ((st.store d).mirror twin) := by
  refine ⟨rfl, ?_⟩
  rcases State.store_picks hsum d with ⟨hnone, -⟩ | ⟨e, ⟨he, -, -⟩, hpicks⟩
  · simp only [Outcome.mirror, hnone, Option.map_none]
    exact .none
  · simp only [Outcome.mirror, he, Option.map_some]
    exact .some ⟨hpicks.near hfair.heads, fun _ => rfl, fun _ => rfl, fun _ => rfl, fun _ => rfl,
      fun _ => rfl⟩

theorem outcomes_mirror {st : State c} {twin : UInt32} {ds : List Delivery}
    (hsum : st.count .left + st.count .right ≤ c.pendingDepth) (hfair : Fair st twin ds) :
    List.Forall₂ Mirrored (outcomes st ds)
      (outcomes (st.mirror twin) (ds.map Delivery.mirror)) := by
  induction ds generalizing st twin with
  | nil => exact .nil
  | cons d ds ih =>
    have hstore := State.store_mirror d hsum hfair.1
    have hbound := (State.store_fits d hsum).1.bound
    rw [List.map_cons, outcomes, outcomes, hstore]
    exact .cons (mirrored_store hsum hfair.1) (ih hbound hfair.2)

/-- **Exchanging the channels.**  Where no two oldest halves are compared differently from the two
sides, and no half is newer than one timestamp of the last pair and not than the other, exchanging
left and right in every call exchanges the halves of every event and changes nothing else. -/
theorem run_mirror (c : Config) (intervalUs : UInt32) (ds : List Delivery)
    (hfair : Fair (State.reset.config intervalUs : State c) 0 ds) :
    List.Forall₂ Mirrored (outcomes (State.reset.config intervalUs : State c) ds)
      (outcomes (State.reset.config intervalUs) (ds.map Delivery.mirror)) :=
  outcomes_mirror (Nat.zero_le _) hfair

/-! ### Two runs -/

instance (w : Channel → List Half) : Decidable (State.HeadsSymmetric w) :=
  decidable_of_iff
    (∀ l ∈ (w .left).head?, ∀ r ∈ (w .right).head?, l.hasTs = true → r.hasTs = true →
      SymmetricAt l.ts r.ts)
    ⟨fun h l r hl hr => h l hl r hr, fun h l hl r hr => h l r hl hr⟩

instance (st : State c) (twin : UInt32) (d : Delivery) : Decidable (st.Fair twin d) :=
  decidable_of_iff
    (State.HeadsSymmetric (st.waiting d) ∧ (st.effective d).all (fun x =>
      st.resolvedHasTs = true → tsNewer x twin = tsNewer x st.resolvedTs) = true)
    ⟨fun h => ⟨h.1, fun x hx => of_decide_eq_true ((Option.all_eq_true _ _).1 h.2 x hx)⟩,
      fun h => ⟨h.1, (Option.all_eq_true _ _).2 fun x hx => decide_eq_true (h.remembered x hx)⟩⟩

instance decidableFair : (st : State c) → (twin : UInt32) → (ds : List Delivery) →
    Decidable (Fair st twin ds)
  | _, _, [] => isTrue trivial
  | st, twin, d :: ds =>
    haveI := decidableFair (st.store d).st ((st.store d).twin twin) ds
    inferInstanceAs (Decidable (st.Fair twin d ∧ Fair (st.store d).st ((st.store d).twin twin) ds))

theorem run_mirror_twoEvents :
    List.Forall₂ Mirrored (outcomes (State.reset.config 10000 : State smallConfig) twoEvents)
      (outcomes (State.reset.config 10000) (twoEvents.map Delivery.mirror)) :=
  run_mirror smallConfig 10000 twoEvents (by decide +kernel)

/-- Whether the half of a channel is valid, if there is an event. -/
def Outcome.halfValid (ch : Channel) (o : Outcome c) : Option Bool :=
  o.emission.map fun e => e.event.halfValid ch

theorem Mirrored.halfValid {o o' : Outcome c} (h : Mirrored o o') :
    o'.halfValid .left = o.halfValid .right := by
  obtain ⟨-, hrel⟩ := h
  unfold Outcome.halfValid
  revert hrel
  cases o.emission <;> cases o'.emission <;> intro hrel
  · rfl
  · cases hrel
  · cases hrel
  · cases hrel with
    | some hexchanged => exact congrArg some (hexchanged.halfValid .left)

theorem map_halfValid {os os' : List (Outcome c)} (h : List.Forall₂ Mirrored os os') :
    os'.map (Outcome.halfValid .left) = os.map (Outcome.halfValid .right) := by
  induction h with
  | nil => rfl
  | cons ho _ ih => rw [List.map_cons, List.map_cons, ho.halfValid, ih]

/-- Two halves at the tolerance and one more. -/
def oneMoreApart : List Delivery := [timedHalf .left 1000, timedHalf .right 1101]

/-- They are one event when the left half is the older one, and two when it is the right one. -/
theorem distance_one_more :
    (oneMoreApart.Pairwise fun d d' => (d'.ts - d.ts).toNat < 2 ^ 31) ∧
      ¬ List.Forall₂ Mirrored
        (outcomes (State.reset.config 10000 : State smallConfig) oneMoreApart)
        (outcomes (State.reset.config 10000) (oneMoreApart.map Delivery.mirror)) := by
  refine ⟨by decide +kernel, fun h => ?_⟩
  have hvalid := map_halfValid h
  revert hvalid
  decide +kernel

end ModeA

end LeAudioReceiver
