import LeAudioReceiver.ModeA.Picks
import Mathlib.Data.List.Chain

/-!
# The order of the events

On each channel the halves come with positions that increase, and all positions of a run lie in a
window in which the 32-bit comparison is an order.  Then the events that consume a half with a
timestamp come in the order of their timestamps, and no such half joins an event when it is not
newer than the last one.

There is one exception.  A sentinel is taken for the event of the oldest half of the other channel.
Where halves with earlier timestamps wait behind it, they are older than the event, and they come
out later.

* `offset` : a timestamp within the window;
* `Sorted` : what waits is sorted, and newer than what was resolved;
* `events_ordered` : the events are **in order as long as no sentinel is resolved before an older
  half behind it**;
* `sentinel_before_older` : an event that comes out after a newer one.
-/

namespace LeAudioReceiver

namespace ModeA

open Circular

variable {c : Config}

/-! ### Timestamps in a window -/

/-- How far a timestamp is behind the start of the window. -/
def offset (b x : UInt32) : ℕ := (x - b).toNat

section Window

variable {b x y : UInt32}

theorem tsNewer_iff (hx : offset b x < 2 ^ 31) (hy : offset b y < 2 ^ 31) :
    tsNewer x y = true ↔ offset b y + tsTolerance < offset b x := by
  have hxb := x.toNat_lt
  have hyb := y.toNat_lt
  have hbb := b.toNat_lt
  simp only [offset, UInt32.toNat_sub] at hx hy ⊢
  simp only [tsNewer, UInt32.toNat_sub, tsTolerance, Bool.and_eq_true, decide_eq_true_eq]
  omega

theorem tsSameEvent_iff (hx : offset b x < 2 ^ 31) (hy : offset b y < 2 ^ 31) :
    tsSameEvent x y = true ↔
      offset b x ≤ offset b y + tsTolerance ∧ offset b y ≤ offset b x + tsTolerance + 1 := by
  have hxb := x.toNat_lt
  have hyb := y.toNat_lt
  have hbb := b.toNat_lt
  simp only [offset, UInt32.toNat_sub] at hx hy ⊢
  simp only [tsSameEvent, UInt32.toNat_sub, tsTolerance, Bool.or_eq_true, decide_eq_true_eq]
  omega

end Window

/-- The positions of a channel: in the window, and increasing by more than twice the tolerance. -/
structure Spaced (b : UInt32) (xs : List UInt32) : Prop where
  increasing : xs.IsChain fun x y => offset b x + 2 * tsTolerance < offset b y
  window : ∀ x ∈ xs, offset b x < 2 ^ 31

theorem Spaced.pairwise {b : UInt32} {xs : List UInt32} (h : Spaced b xs) :
    xs.Pairwise fun x y => offset b x + 2 * tsTolerance < offset b y := by
  have htrans : IsTrans UInt32 fun x y => offset b x + 2 * tsTolerance < offset b y :=
    ⟨fun x y z hxy hyz => by omega⟩
  exact List.isChain_iff_pairwise.1 h.increasing

/-! ### The positions of a run -/

/-- The position that a call gives its half: delivered, or predicted for a lost one. -/
def State.effective (st : State c) (d : Delivery) : Option UInt32 :=
  if d.len > c.maxFrameOctets then none
  else if (st.position d).2.1 then some (st.position d).2.2 else none

/-- The positions of the halves of a channel. -/
def positions (ch : Channel) : History c → List Delivery → List UInt32
  | _, [] => []
  | t, d :: ds =>
    (if ch = d.ch then (t.st.effective d).toList else []) ++ positions ch (t.store d) ds

/-- The oldest half of a channel has a timestamp and that of the other one has none: what waits
behind the sentinel is newer. -/
def newerBehind (w : Channel → List Half) (ch : Channel) : Bool :=
  match w ch, w ch.other with
  | h :: _, s :: rest =>
    !h.hasTs || s.hasTs || rest.all fun h' => !h'.hasTs || tsNewer h'.ts h.ts
  | _, _ => true

/-- The call resolves no sentinel before an older half behind it. -/
def State.NoneOlder (st : State c) (d : Delivery) : Prop :=
  newerBehind (st.waiting d) .left = true ∧ newerBehind (st.waiting d) .right = true

/-- Nor does any call of a run. -/
def History.NoneOlder : History c → List Delivery → Prop
  | _, [] => True
  | t, d :: ds => t.st.NoneOlder d ∧ NoneOlder (t.store d) ds

/-- The event comes later, and each half with a timestamp that it pops is newer. -/
def Later (e e' : Emission) : Prop :=
  tsNewer e'.event.ts e.event.ts = true ∧
    ∀ ch h, e'.popped ch = some h → h.hasTs = true → tsNewer h.ts e.event.ts = true

/-! ### One call -/

variable {b : UInt32}

/-- A half with a timestamp is followed by such halves only, and they are newer. -/
def Before (b : UInt32) (h h' : Half) : Prop :=
  h.hasTs = true → h'.hasTs = true ∧ offset b h.ts + 2 * tsTolerance < offset b h'.ts

/-- The last resolved event with a timestamp. -/
def State.resolved (st : State c) : Option UInt32 :=
  if st.resolvedHasTs then some st.resolvedTs else none

/-- The last positions known are those of `ps`. -/
def State.Knows (st : State c) (ps : Channel → List UInt32) : Prop :=
  ∀ ch, (ps ch).getLast? = if st.lastHasTs ch then some (st.lastTs ch) else none

/-- What waits comes from the positions `ps`, sorted, and newer than what was resolved. -/
structure Sorted (b : UInt32) (resolved : Option UInt32) (w : Channel → List Half)
    (ps : Channel → List UInt32) : Prop where
  sorted : ∀ ch, (w ch).Pairwise (Before b)
  seen : ∀ ch, ∀ h ∈ w ch, h.hasTs = true → h.ts ∈ ps ch
  window : ∀ r, resolved = some r → offset b r < 2 ^ 31
  newer : ∀ r, resolved = some r → ∀ ch, ∀ h ∈ w ch, h.hasTs = true →
    offset b r + tsTolerance < offset b h.ts

theorem State.effective_eq {st st₁ : State c} {d : Delivery} {effHasTs : Bool} {effTs : UInt32}
    (hlen : ¬ d.len > c.maxFrameOctets) (hpos : st.position d = (st₁, effHasTs, effTs)) :
    st.effective d = if effHasTs then some effTs else none := by
  rw [effective, if_neg hlen, hpos]

/-- The position of a half becomes the last one of its channel, where it is newer; a half without
one is the first of its channel. -/
theorem State.position_spec {st : State c} {d : Delivery} (hlen : ¬ d.len > c.maxFrameOctets)
    (hnewer : ∀ e, st.effective d = some e → st.lastHasTs d.ch = true →
      tsNewer e (st.lastTs d.ch) = true) :
    (∃ e, st.effective d = some e ∧ (st.position d).2 = (true, e) ∧
        (st.position d).1.lastTs = Function.update st.lastTs d.ch e ∧
        (st.position d).1.lastHasTs = Function.update st.lastHasTs d.ch true) ∨
      st.effective d = none ∧ (st.position d).2 = (false, 0) ∧ st.lastHasTs d.ch = false ∧
        (st.position d).1 = st := by
  by_cases hts : d.hasTs = true
  · by_cases hmoves : ¬ st.lastHasTs d.ch = true ∨ tsNewer d.ts (st.lastTs d.ch) = true
    · have hpos : st.position d = ({ st with
          lastTs := Function.update st.lastTs d.ch d.ts
          lastHasTs := Function.update st.lastHasTs d.ch true }, true, d.ts) := by
        rw [position, if_pos hts, if_pos hmoves]
      rw [effective_eq hlen hpos, hpos]
      exact .inl ⟨d.ts, rfl, rfl, rfl, rfl⟩
    · have hpos : st.position d = (st, true, d.ts) := by
        rw [position, if_pos hts, if_neg hmoves]
      obtain ⟨hlast, hold⟩ := not_or.1 hmoves
      exact absurd (hnewer d.ts (effective_eq hlen hpos) (not_not.1 hlast)) hold
  · by_cases hlast : st.lastHasTs d.ch = true
    · have hpos : st.position d = ({ st with
          lastTs := Function.update st.lastTs d.ch (st.lastTs d.ch + st.intervalUs) }, true,
            st.lastTs d.ch + st.intervalUs) := by
        rw [position, if_neg hts, if_pos hlast]
      have hsame : Function.update st.lastHasTs d.ch true = st.lastHasTs :=
        Function.update_eq_self_iff.2 hlast.symm
      rw [effective_eq hlen hpos, hpos]
      exact .inl ⟨_, rfl, rfl, rfl, hsame.symm⟩
    · have hpos : st.position d = (st, false, 0) := by rw [position, if_neg hts, if_neg hlast]
      rw [effective_eq hlen hpos, hpos]
      exact .inr ⟨rfl, rfl, by simpa using hlast, rfl⟩

theorem State.accepts_spec {st : State c} {d : Delivery} {h : Half} (h' : st.accepts d = some h) :
    ¬ d.len > c.maxFrameOctets ∧ (h.hasTs, h.ts) = (st.position d).2 ∧
      (h.hasTs = true → st.resolvedHasTs = true → tsNewer h.ts st.resolvedTs = true) := by
  obtain ⟨hts, hhas⟩ := position_resolved st d
  rcases hp : st.position d with ⟨st₁, effHasTs, effTs⟩
  rw [hp] at hts hhas
  simp only [accepts, hp] at h'
  split_ifs at h' with hreject
  obtain ⟨hlen, hres⟩ := not_or.1 hreject
  obtain rfl := Option.some.inj h'
  refine ⟨hlen, rfl, fun heff hresolved => ?_⟩
  have heff : effHasTs = true := heff
  have hresolved : st₁.resolvedHasTs = true := hhas.trans hresolved
  show tsNewer effTs st.resolvedTs = true
  rw [← hts]
  simpa [alreadyResolved, heff, hresolved] using hres

/-- The positions known after a call. -/
def State.extend (st : State c) (d : Delivery) (ps : Channel → List UInt32) (ch : Channel) :
    List UInt32 :=
  ps ch ++ if ch = d.ch then (st.effective d).toList else []

section Call

variable {st : State c} {d : Delivery} {ps : Channel → List UInt32}

theorem State.extend_lt (hspaced : ∀ ch, Spaced b (st.extend d ps ch)) {e : UInt32}
    (he : st.effective d = some e) : offset b e < 2 ^ 31 ∧
      ∀ x ∈ ps d.ch, offset b x + 2 * tsTolerance < offset b e := by
  have hext : st.extend d ps d.ch = ps d.ch ++ [e] := by simp [extend, he]
  have hd := hspaced d.ch
  rw [hext] at hd
  refine ⟨hd.window e (by simp), fun x hx => ?_⟩
  exact (List.pairwise_append.1 hd.pairwise).2.2 x hx e (by simp)

theorem State.Knows.last_mem (h : st.Knows ps) {ch : Channel} (hlast : st.lastHasTs ch = true) :
    st.lastTs ch ∈ ps ch := by
  have hch := h ch
  rw [hlast] at hch
  exact List.mem_of_getLast? hch

theorem State.Knows.position (h : st.Knows ps) (hspaced : ∀ ch, Spaced b (st.extend d ps ch))
    (hlen : ¬ d.len > c.maxFrameOctets) :
    (∃ e, st.effective d = some e ∧ (st.position d).2 = (true, e) ∧
        (st.position d).1.lastTs = Function.update st.lastTs d.ch e ∧
        (st.position d).1.lastHasTs = Function.update st.lastHasTs d.ch true) ∨
      st.effective d = none ∧ (st.position d).2 = (false, 0) ∧ st.lastHasTs d.ch = false ∧
        (st.position d).1 = st := by
  refine position_spec hlen fun e he hlast => ?_
  obtain ⟨hwin, hlt⟩ := extend_lt hspaced he
  have hmem := h.last_mem hlast
  have hlast' : offset b (st.lastTs d.ch) < 2 ^ 31 :=
    (hspaced d.ch).window _ (List.mem_append_left _ hmem)
  rw [tsNewer_iff hwin hlast']
  have := hlt _ hmem
  omega

/-- A call makes its position the last one of its channel. -/
theorem State.Knows.store (h : st.Knows ps) (hspaced : ∀ ch, Spaced b (st.extend d ps ch)) :
    (st.store d).st.Knows (st.extend d ps) := by
  intro ch
  by_cases hlen : d.len > c.maxFrameOctets
  · have hstore : st.store d = ⟨{ st with rejects := st.rejects + 1 }, .drop, none⟩ :=
      if_pos hlen
    have heff : st.effective d = none := if_pos hlen
    have hext : st.extend d ps ch = ps ch := by simp [extend, heff]
    rw [hstore, hext]
    exact h ch
  · obtain ⟨hts, hhas⟩ := st.store_lastTs d hlen
    rw [hts, hhas]
    rcases h.position hspaced hlen with ⟨e, he, -, hlastTs, hlastHasTs⟩ | ⟨he, -, -, hst⟩
    · rw [hlastTs, hlastHasTs]
      by_cases hch : ch = d.ch
      · subst hch
        simp [extend, he]
      · have hext : st.extend d ps ch = ps ch := by simp [extend, hch]
        rw [hext, Function.update_of_ne hch, Function.update_of_ne hch]
        exact h ch
    · have hext : st.extend d ps ch = ps ch := by simp [extend, he]
      rw [hst, hext]
      exact h ch

theorem Sorted.take (h : Sorted b st.resolved st.pending ps) (hknows : st.Knows ps)
    (hspaced : ∀ ch, Spaced b (st.extend d ps ch)) :
    Sorted b st.resolved (st.waiting d) (st.extend d ps) := by
  have hseen : ∀ ch, ∀ x ∈ ps ch, x ∈ st.extend d ps ch := fun ch x hx =>
    List.mem_append_left _ hx
  cases hacc : st.accepts d with
  | none =>
    have hw : st.waiting d = st.pending := by
      funext ch
      simp [State.waiting, hacc]
    rw [hw]
    exact ⟨h.sorted, fun ch g hg hts => hseen ch _ (h.seen ch g hg hts), h.window, h.newer⟩
  | some g =>
    obtain ⟨hlen, hpos, hopen⟩ := State.accepts_spec hacc
    have hw : ∀ ch, st.waiting d ch = st.pending ch ++ if ch = d.ch then [g] else [] := by
      intro ch
      rw [State.waiting, hacc]
      rfl
    have hmem : ∀ ch x, x ∈ st.waiting d ch → x ∈ st.pending ch ∨ ch = d.ch ∧ x = g := by
      intro ch x hx
      rw [hw] at hx
      rcases List.mem_append.1 hx with hx | hx
      · exact .inl hx
      · split_ifs at hx with hch
        · exact .inr ⟨hch, List.mem_singleton.1 hx⟩
        · exact absurd hx List.not_mem_nil
    -- what is known of a new half with a timestamp
    have hnew : g.hasTs = true → st.effective d = some g.ts := by
      intro hts
      rcases hknows.position hspaced hlen with ⟨e, he, hposition, -, -⟩ | ⟨-, hposition, -, -⟩
      · rw [hposition] at hpos
        rw [he, ← (Prod.mk.inj hpos).2]
      · rw [hposition] at hpos
        rw [(Prod.mk.inj hpos).1] at hts
        cases hts
    refine ⟨fun ch => ?_, fun ch x hx hts => ?_, h.window, fun r hr ch x hx hts => ?_⟩
    · rw [hw]
      by_cases hch : ch = d.ch
      · rw [if_pos hch]
        refine List.pairwise_append.2 ⟨h.sorted ch, List.pairwise_singleton _ _, ?_⟩
        intro x hx y hy hts
        obtain rfl := List.mem_singleton.1 hy
        have hxmem := h.seen ch x hx hts
        rcases hknows.position hspaced hlen with ⟨e, he, hposition, -, -⟩ | ⟨-, -, hlast, -⟩
        · rw [hposition] at hpos
          obtain ⟨hyts, rfl⟩ := Prod.mk.inj hpos
          exact ⟨hyts, (State.extend_lt hspaced he).2 _ (hch ▸ hxmem)⟩
        · -- no half with a timestamp waits before the first position
          have hnone := hknows d.ch
          rw [hlast] at hnone
          have hnil : ps d.ch = [] := List.getLast?_eq_none_iff.1 hnone
          rw [hch, hnil] at hxmem
          exact absurd hxmem List.not_mem_nil
      · rw [if_neg hch, List.append_nil]
        exact h.sorted ch
    · rcases hmem ch x hx with hx | ⟨rfl, rfl⟩
      · exact hseen ch _ (h.seen ch x hx hts)
      · simp [State.extend, hnew hts]
    · rcases hmem ch x hx with hx | ⟨rfl, rfl⟩
      · exact h.newer r hr ch x hx hts
      · have hres : st.resolvedHasTs = true ∧ st.resolvedTs = r := by
          unfold State.resolved at hr
          split_ifs at hr with hhas
          exact ⟨hhas, Option.some.inj hr⟩
        have hwin := (State.extend_lt hspaced (hnew hts)).1
        have hopen := hopen hts hres.1
        rw [hres.2] at hopen
        exact (tsNewer_iff hwin (h.window r hr)).1 hopen

end Call

/-! ### One event -/

section Event

variable {w w' : Channel → List Half} {popped : Channel → Option Half} {ts : UInt32}
  {resolved : Option UInt32} {ps : Channel → List UInt32}

theorem eq_cons_of_popped (hw : ∀ ch, w ch = (popped ch).toList ++ w' ch) {ch : Channel} {h : Half}
    (hp : popped ch = some h) : w ch = h :: w' ch := by
  rw [hw, hp]
  rfl

theorem eq_of_popped_none (hw : ∀ ch, w ch = (popped ch).toList ++ w' ch) {ch : Channel}
    (hp : popped ch = none) : w' ch = w ch := by
  rw [hw, hp]
  rfl

/-- What waits behind a popped half is newer. -/
theorem Sorted.behind (h : Sorted b resolved w ps) {ch : Channel} {x : Half} {xs : List Half}
    (hw : w ch = x :: xs) (hx : x.hasTs = true) :
    ∀ y ∈ xs, offset b x.ts + 2 * tsTolerance < offset b y.ts := by
  intro y hy
  have hsorted := h.sorted ch
  rw [hw] at hsorted
  exact ((List.pairwise_cons.1 hsorted).1 y hy hx).2

/-- From the oldest half on, everything is at least as new. -/
theorem Sorted.from_head (h : Sorted b resolved w ps) {ch : Channel} {x : Half}
    (hw : (w ch).head? = some x) (hx : x.hasTs = true) :
    ∀ y ∈ w ch, offset b x.ts ≤ offset b y.ts := by
  intro y hy
  cases hcons : w ch with
  | nil =>
    rw [hcons] at hy
    exact absurd hy List.not_mem_nil
  | cons z zs =>
    rw [hcons] at hw hy
    obtain rfl := Option.some.inj hw
    rcases List.mem_cons.1 hy with rfl | hy
    · exact le_rfl
    · have := h.behind hcons hx y hy
      omega

theorem Sorted.offset_lt (h : Sorted b resolved w ps) (hspaced : ∀ ch, Spaced b (ps ch))
    {ch : Channel} {x : Half} (hx : x ∈ w ch) (hts : x.hasTs = true) : offset b x.ts < 2 ^ 31 :=
  (hspaced ch).window _ (h.seen ch x hx hts)

theorem mem_of_head {ch : Channel} {x : Half} (h : (w ch).head? = some x) : x ∈ w ch :=
  List.mem_of_head? h

/-- What an event pops is all it decides by: its timestamp is that of a popped half, and what still
waits is newer. -/
theorem Picks.newer (hpicks : Picks w popped ts) (h : Sorted b resolved w ps)
    (hspaced : ∀ ch, Spaced b (ps ch)) (hw : ∀ ch, w ch = (popped ch).toList ++ w' ch)
    (hbehind : newerBehind w .left = true ∧ newerBehind w .right = true)
    (htimed : ∃ ch x, popped ch = some x ∧ x.hasTs = true) :
    (∃ ch x, x ∈ w ch ∧ x.hasTs = true ∧ ts = x.ts) ∧
      ∀ ch, ∀ y ∈ w' ch, y.hasTs = true → offset b ts + tsTolerance < offset b y.ts := by
  have htol : tsTolerance = 100 := rfl
  cases hpicks with
  | same l r hl hr hlts hrts hsame hpl hpr hts =>
    -- both halves go, and what is behind either of them is a spacing away
    obtain ⟨hle, hge⟩ := (tsSameEvent_iff (h.offset_lt hspaced (mem_of_head hl) hlts)
      (h.offset_lt hspaced (mem_of_head hr) hrts)).1 hsame
    subst hts
    refine ⟨⟨.left, l, mem_of_head hl, hlts, rfl⟩, fun ch y hy _ => ?_⟩
    cases ch with
    | left =>
      have := h.behind (eq_cons_of_popped hw hpl) hlts y hy
      omega
    | right =>
      have := h.behind (eq_cons_of_popped hw hpr) hrts y hy
      omega
  | rightOlder l r hl hr hlts hrts _ hnewer hpl hpr hts =>
    -- the left half stays, newer by more than the tolerance
    have hlt := (tsNewer_iff (h.offset_lt hspaced (mem_of_head hl) hlts)
      (h.offset_lt hspaced (mem_of_head hr) hrts)).1 hnewer
    subst hts
    refine ⟨⟨.right, r, mem_of_head hr, hrts, rfl⟩, fun ch y hy _ => ?_⟩
    cases ch with
    | left =>
      have := h.from_head hl hlts y (eq_of_popped_none hw hpl ▸ hy)
      omega
    | right =>
      have := h.behind (eq_cons_of_popped hw hpr) hrts y hy
      omega
  | leftOlder l r hl hr hlts hrts hsame hnewer hpl hpr hts =>
    have hlwin := h.offset_lt hspaced (mem_of_head hl) hlts
    have hrwin := h.offset_lt hspaced (mem_of_head hr) hrts
    -- the right half is neither older nor at the same event
    have hnot : ¬ offset b r.ts + tsTolerance < offset b l.ts := by
      rw [← tsNewer_iff hlwin hrwin, hnewer]
      simp
    have hfar : ¬ (offset b l.ts ≤ offset b r.ts + tsTolerance ∧
        offset b r.ts ≤ offset b l.ts + tsTolerance + 1) := by
      rw [← tsSameEvent_iff hlwin hrwin, hsame]
      simp
    subst hts
    refine ⟨⟨.left, l, mem_of_head hl, hlts, rfl⟩, fun ch y hy _ => ?_⟩
    cases ch with
    | left =>
      have := h.behind (eq_cons_of_popped hw hpl) hlts y hy
      omega
    | right =>
      have := h.from_head hr hrts y (eq_of_popped_none hw hpr ▸ hy)
      omega
  | sentinels l r _ _ hlts hrts hpl hpr =>
    obtain ⟨ch, x, hx, hxts⟩ := htimed
    cases ch with
    | left =>
      obtain rfl := Option.some.inj (hpl.symm.trans hx)
      exact absurd hxts (by rw [hlts]; simp)
    | right =>
      obtain rfl := Option.some.inj (hpr.symm.trans hx)
      exact absurd hxts (by rw [hrts]; simp)
  | mixed ch g s hg hs hgts hsts hpg hps hts =>
    have hgwin := h.offset_lt hspaced (mem_of_head hg) hgts
    -- what is behind the sentinel has been found newer
    have hrest : newerBehind w ch = true := by
      cases ch
      · exact hbehind.1
      · exact hbehind.2
    have hwg := eq_cons_of_popped hw hpg
    have hws := eq_cons_of_popped hw hps
    subst hts
    refine ⟨⟨ch, g, mem_of_head hg, hgts, rfl⟩, fun ch' y hy hyts => ?_⟩
    by_cases hch : ch' = ch
    · subst hch
      have := h.behind hwg hgts y hy
      omega
    · obtain rfl := Channel.eq_other hch
      have hywin := h.offset_lt hspaced (hws ▸ List.mem_cons_of_mem s hy) hyts
      simp only [newerBehind, hwg, hws, hgts, hsts, Bool.not_true, Bool.false_or,
        List.all_eq_true] at hrest
      have hnewer := hrest y hy
      rw [hyts] at hnewer
      exact (tsNewer_iff hywin hgwin).1 (by simpa using hnewer)
  | deadline ch g hg hempty hpg hpo hts =>
    -- the other queue is empty
    have hnone : ∀ ch', ch' ≠ ch → popped ch' = none := by
      intro ch' hch
      rw [Channel.eq_other hch, hpo]
    have hgts : g.hasTs = true := by
      obtain ⟨ch', x, hx, hxts⟩ := htimed
      by_cases hch : ch' = ch
      · subst hch
        obtain rfl := Option.some.inj (hpg.symm.trans hx)
        exact hxts
      · rw [hnone ch' hch] at hx
        cases hx
    subst hts
    refine ⟨⟨ch, g, mem_of_head hg, hgts, rfl⟩, fun ch' y hy _ => ?_⟩
    by_cases hch : ch' = ch
    · subst hch
      have := h.behind (eq_cons_of_popped hw hpg) hgts y hy
      omega
    · rw [eq_of_popped_none hw (hnone ch' hch), Channel.eq_other hch, hempty] at hy
      exact absurd hy List.not_mem_nil

theorem Sorted.pick (h : Sorted b resolved w ps) (hpicks : Picks w popped ts)
    (hspaced : ∀ ch, Spaced b (ps ch)) (hw : ∀ ch, w ch = (popped ch).toList ++ w' ch)
    (hbehind : newerBehind w .left = true ∧ newerBehind w .right = true) {e : Emission}
    (he : e.popped = popped) (hets : e.event.ts = ts) :
    Sorted b (if e.timed then some ts else resolved) w' ps ∧
      ∀ r, resolved = some r → e.timed = true →
        offset b r + tsTolerance < offset b ts ∧
          ∀ ch x, popped ch = some x → x.hasTs = true →
            offset b r + tsTolerance < offset b x.ts := by
  have hsub : ∀ ch, ∀ y ∈ w' ch, y ∈ w ch := by
    intro ch y hy
    rw [hw]
    exact List.mem_append_right _ hy
  have hsorted : ∀ ch, (w' ch).Pairwise (Before b) := by
    intro ch
    have hch := h.sorted ch
    rw [hw] at hch
    exact (List.pairwise_append.1 hch).2.1
  have hseen : ∀ ch, ∀ y ∈ w' ch, y.hasTs = true → y.ts ∈ ps ch := fun ch y hy hyts =>
    h.seen ch y (hsub ch y hy) hyts
  by_cases htimed : e.timed = true
  · have hpop : ∃ ch x, popped ch = some x ∧ x.hasTs = true := he ▸ Emission.timed_iff.1 htimed
    obtain ⟨⟨ch, x, hx, hxts, rfl⟩, hnewer⟩ := hpicks.newer h hspaced hw hbehind hpop
    rw [if_pos htimed]
    refine ⟨⟨hsorted, hseen, ?_, ?_⟩, fun r hr _ => ⟨h.newer r hr ch x hx hxts, ?_⟩⟩
    · rintro _ ⟨⟩
      exact h.offset_lt hspaced hx hxts
    · rintro _ ⟨⟩
      exact hnewer
    · intro ch' y hy hyts
      exact h.newer r hr ch' y (eq_cons_of_popped hw hy ▸ List.mem_cons_self) hyts
  · rw [if_neg htimed]
    exact ⟨⟨hsorted, hseen, h.window, fun r hr ch y hy => h.newer r hr ch y (hsub ch y hy)⟩,
      fun _ _ ht => absurd ht htimed⟩

end Event

/-! ### Every sequence of calls -/

/-- The invariant of a history in which the positions `ps` have been delivered. -/
structure Ordered (b : UInt32) (t : History c) (ps : Channel → List UInt32) : Prop where
  inv : t.Inv
  knows : t.st.Knows ps
  sorted : Sorted b t.st.resolved t.st.pending ps
  /-- The events with a timestamp are not newer than the last one. -/
  past : ∀ e ∈ t.emissions, e.timed = true →
    ∃ r, t.st.resolved = some r ∧ offset b e.event.ts ≤ offset b r
  later : (t.emissions.filter Emission.timed).Pairwise Later

theorem ordered_start (b : UInt32) (c : Config) (intervalUs : UInt32) :
    Ordered b (History.start c intervalUs) fun _ => [] where
  inv := History.inv_start c intervalUs
  knows := fun _ => rfl
  sorted := ⟨fun _ => List.Pairwise.nil, fun _ _ h => absurd h List.not_mem_nil,
    fun _ h => (by cases h), fun _ h => (by cases h)⟩
  past := fun _ h => absurd h List.not_mem_nil
  later := List.Pairwise.nil

theorem Ordered.store {t : History c} {ps : Channel → List UInt32} (h : Ordered b t ps)
    {d : Delivery} (hspaced : ∀ ch, Spaced b (t.st.extend d ps ch)) (hok : t.st.NoneOlder d) :
    Ordered b (t.store d) (t.st.extend d ps) := by
  have hknows := h.knows.store hspaced
  have hsorted := h.sorted.take h.knows hspaced
  -- what waits is popped or stays
  have hsplit : ∀ ch, t.st.waiting d ch =
      (t.st.store d).popped ch ++ (t.st.store d).st.pending ch :=
    (State.store_fits d h.inv.bound).1.split
  have hres : ∀ st : State c, st.resolvedTs = t.st.resolvedTs →
      st.resolvedHasTs = t.st.resolvedHasTs → st.resolved = t.st.resolved := by
    intro st h₁ h₂
    rw [State.resolved, State.resolved, h₁, h₂]
  rcases State.store_picks h.inv.bound d with ⟨hnone, hts, hhas⟩ | ⟨e, ⟨he, hts, hhas⟩, hpicks⟩
  · -- nothing is emitted
    have hw : t.st.waiting d = (t.st.store d).st.pending := by
      funext ch
      rw [hsplit, Outcome.popped, hnone]
      rfl
    have hemissions : (t.store d).emissions = t.emissions := by
      simp [History.store, hnone]
    have hresolved : (t.store d).st.resolved = t.st.resolved := hres _ hts hhas
    refine ⟨h.inv.store d, hknows, ?_, ?_, ?_⟩
    · rw [hresolved]
      exact hw ▸ hsorted
    · rw [hemissions, hresolved]
      exact h.past
    · rw [hemissions]
      exact h.later
  · have hw : ∀ ch, t.st.waiting d ch = (e.popped ch).toList ++ (t.st.store d).st.pending ch := by
      intro ch
      rw [hsplit, Outcome.popped, he]
      rfl
    have hemissions : (t.store d).emissions = t.emissions ++ [e] := by
      simp [History.store, he]
    have hresolved : (t.store d).st.resolved =
        if e.timed then some e.event.ts else t.st.resolved := by
      show (t.st.store d).st.resolved = _
      rw [State.resolved, State.resolved, hts, hhas]
      cases e.timed <;> simp
    -- what is left is newer than the event, and the event newer than the last one
    obtain ⟨hleft, hnewer⟩ := hsorted.pick hpicks hspaced hw hok rfl rfl
    refine ⟨h.inv.store d, hknows, hresolved ▸ hleft, fun e' he' htimed => ?_, ?_⟩
    · rw [hemissions] at he'
      rcases List.mem_append.1 he' with he' | he'
      · -- an event before this one
        obtain ⟨r, hr, hle⟩ := h.past e' he' htimed
        rw [hresolved]
        by_cases hnow : e.timed = true
        · have := (hnewer r hr hnow).1
          exact ⟨e.event.ts, by rw [if_pos hnow], by omega⟩
        · exact ⟨r, by rw [if_neg hnow, hr], hle⟩
      · obtain rfl := List.mem_singleton.1 he'
        exact ⟨e'.event.ts, by rw [hresolved, if_pos htimed], le_rfl⟩
    · rw [hemissions, List.filter_append]
      refine List.pairwise_append.2 ⟨h.later, ?_, fun e' he' e'' he'' => ?_⟩
      · exact (List.pairwise_singleton _ _).filter _
      · obtain ⟨hmem, htimed'⟩ := List.mem_filter.1 he'
        obtain ⟨hmem'', htimed⟩ := List.mem_filter.1 he''
        obtain rfl := List.mem_singleton.1 hmem''
        obtain ⟨r, hr, hle⟩ := h.past e' hmem htimed'
        obtain ⟨hev, hpop⟩ := hnewer r hr htimed
        have hrwin := h.sorted.window r hr
        have hewin := hleft.window e''.event.ts (by rw [if_pos htimed])
        refine ⟨(tsNewer_iff hewin (by omega)).2 (by omega), fun ch x hx hxts => ?_⟩
        have hxmem : x ∈ t.st.waiting d ch := eq_cons_of_popped hw hx ▸ List.mem_cons_self
        have hxwin := hsorted.offset_lt hspaced hxmem hxts
        have := hpop ch x hx hxts
        exact (tsNewer_iff hxwin (by omega)).2 (by omega)

theorem Ordered.run {t : History c} {ps : Channel → List UInt32} {ds : List Delivery}
    (h : Ordered b t ps) (hspaced : ∀ ch, Spaced b (ps ch ++ positions ch t ds))
    (hok : t.NoneOlder ds) : ((t.run ds).emissions.filter Emission.timed).Pairwise Later := by
  induction ds generalizing t ps with
  | nil => exact h.later
  | cons d ds ih =>
    have hext : ∀ ch, ps ch ++ positions ch t (d :: ds) =
        t.st.extend d ps ch ++ positions ch (t.store d) ds := fun ch =>
      (List.append_assoc _ _ _).symm
    have hprefix : ∀ ch, Spaced b (t.st.extend d ps ch) := by
      intro ch
      have hch := hspaced ch
      rw [hext] at hch
      exact ⟨(List.isChain_append.1 hch.increasing).1,
        fun x hx => hch.window x (List.mem_append_left _ hx)⟩
    exact ih (h.store hprefix hok.1) (fun ch => hext ch ▸ hspaced ch) hok.2

/-- **The order of the events.**  The positions of each channel increase by more than twice the
tolerance and lie in a window of half the range, and no sentinel is resolved before an older half
behind it.  Then each event that consumes a half with a timestamp is newer than those before it,
and so is every such half that it consumes. -/
theorem events_ordered (c : Config) (intervalUs b : UInt32) (ds : List Delivery)
    (hspaced : ∀ ch, Spaced b (positions ch (History.start c intervalUs) ds))
    (hok : (History.start c intervalUs).NoneOlder ds) :
    (((History.start c intervalUs).run ds).emissions.filter Emission.timed).Pairwise Later :=
  (ordered_start b c intervalUs).run hspaced hok

/-! ### Two runs -/

instance decidableSpaced (b : UInt32) (xs : List UInt32) : Decidable (Spaced b xs) :=
  decidable_of_iff
    ((xs.IsChain fun x y => offset b x + 2 * tsTolerance < offset b y) ∧
      xs.all (fun x => offset b x < 2 ^ 31) = true)
    ⟨fun h => ⟨h.1, by simpa using h.2⟩, fun h => ⟨h.1, by simpa using h.window⟩⟩

instance (st : State c) (d : Delivery) : Decidable (st.NoneOlder d) :=
  inferInstanceAs (Decidable
    (newerBehind (st.waiting d) .left = true ∧ newerBehind (st.waiting d) .right = true))

instance decidableNoneOlder : (t : History c) → (ds : List Delivery) → Decidable (t.NoneOlder ds)
  | _, [] => isTrue trivial
  | t, d :: ds =>
    haveI := decidableNoneOlder (t.store d) ds
    inferInstanceAs (Decidable (t.st.NoneOlder d ∧ (t.store d).NoneOlder ds))

/-- A half of one octet with a timestamp. -/
def timedHalf (ch : Channel) (ts : UInt32) : Delivery := ⟨ch, some [0], 1, true, true, ts, 0⟩

/-- A lost half. -/
def lostHalf (ch : Channel) : Delivery := ⟨ch, none, 0, false, false, 0, 0⟩

/-- Two queue entries a channel, and the largest frame. -/
def smallConfig : Config := ⟨2, Nat.two_pos, 120⟩

/-- Two events with both halves, the second with a small skew. -/
def twoEvents : List Delivery :=
  [timedHalf .left 1000, timedHalf .right 1000, timedHalf .left 11000, timedHalf .right 11050]

theorem events_ordered_twoEvents :
    (((History.start smallConfig 10000).run twoEvents).emissions.filter Emission.timed).Pairwise
      Later := by
  refine events_ordered smallConfig 10000 0 twoEvents (fun ch => ?_) (by decide +kernel)
  cases ch
  · decide +kernel
  · decide +kernel

/-- The right channel starts with a lost half, the left one two events late. -/
def lateLeft : List Delivery :=
  [lostHalf .right, timedHalf .right 10000, timedHalf .left 20000, timedHalf .left 30000]

/-- The sentinel is taken for the event at 20000, and then the half at 10000 comes out. -/
theorem sentinel_before_older :
    (∀ ch, Spaced 0 (positions ch (History.start smallConfig 10000) lateLeft)) ∧
      ¬ (((History.start smallConfig 10000).run lateLeft).emissions.filter
        Emission.timed).Pairwise Later := by
  constructor
  · intro ch
    cases ch
    · decide +kernel
    · decide +kernel
  · intro h
    have hts : (((History.start smallConfig 10000).run lateLeft).emissions.filter
        Emission.timed).map (fun e => e.event.ts) = [20000, 10000] := by
      decide +kernel
    have hpairs : ([20000, 10000] : List UInt32).Pairwise fun x y => tsNewer y x = true := by
      rw [← hts]
      exact List.pairwise_map.2 (h.imp fun hlater => hlater.1)
    revert hpairs
    decide

end ModeA

end LeAudioReceiver
