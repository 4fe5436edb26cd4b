import LeAudioReceiver.Iso.Basic
import Mathlib.Data.List.Infix

/-!
# Concealment of a stream with one isochronous channel

Events lie on the grid of the interval.  An event is delivered, with or without a timestamp, or it
is omitted: dropped behind the numbering of the controller, or never emitted at all.  The receive
path pushes one concealed block for each omission that its trackers report.

* `pushes_eq` : at a timestamped callback the pushes are the omitted events and, once more, those
  that were dropped directly before a callback without a timestamp: the sequence tracker reports
  them there, and the cadence tracker reports them again at the next timestamp;
* `pushes_eq_omitted_iff` : so each omission is concealed exactly once if and only if no such
  event exists.
-/

namespace LeAudioReceiver

namespace Iso

/-- What happens to an event of the stream. -/
inductive Event where
  /-- A callback, with or without a timestamp. -/
  | delivered (hasTs : Bool)
  /-- Dropped after it was numbered. -/
  | dropped
  /-- Never emitted, and not numbered. -/
  | silent
  deriving DecidableEq, Repr

/-- The event has no callback. -/
def Event.omitted : Event → Bool
  | .delivered _ => false
  | .dropped => true
  | .silent => true

/-- The number of omitted events. -/
def omitted (evs : List Event) : ℕ := evs.countP Event.omitted

/-- Where the stream starts. -/
structure Grid where
  base : ℕ
  interval : UInt32
  firstSeq : UInt16

/-- The timestamp of event `n`. -/
def Grid.ts (g : Grid) (n : ℕ) : UInt32 := UInt32.ofNat (g.base + n * g.interval.toNat)

/-- The sequence number behind `k` numbered events. -/
def Grid.seq (g : Grid) (k : ℕ) : UInt16 := g.firstSeq + UInt16.ofNat k

/-- A configured slot before its first callback. -/
def Slot.start (g : Grid) : Slot := ⟨true, g.interval, .reset, .reset⟩

/-- The pushes for omitted events; event `n` comes next, and `k` events were numbered. -/
def pushes (M : MaxConceal) (mode : Mode) (g : Grid) : Slot → ℕ → ℕ → List Event → ℕ
  | _, _, _, [] => 0
  | sl, n, k, .delivered hasTs :: evs =>
    let r := sl.concealOmitted M mode hasTs (g.ts n) (g.seq k)
    r.plcPushes + pushes M mode g r.slot (n + 1) (k + 1) evs
  | sl, n, k, .dropped :: evs => pushes M mode g sl (n + 1) (k + 1) evs
  | sl, n, k, .silent :: evs => pushes M mode g sl (n + 1) k evs

/-! ### What is concealed twice -/

/-- The events dropped directly before callbacks without a timestamp; `d` events were dropped
since the last callback. -/
def doubled : ℕ → List Event → ℕ
  | _, [] => 0
  | _, .delivered true :: evs => doubled 0 evs
  | d, .delivered false :: evs => d + doubled 0 evs
  | d, .dropped :: evs => doubled (d + 1) evs
  | d, .silent :: evs => doubled d evs

/-- The next callback has no timestamp. -/
def NextUnstamped (evs : List Event) : Prop :=
  ∃ run, run ++ [.delivered false] <+: evs ∧ ∀ e ∈ run, Event.omitted e = true

/-- Some event is dropped, and the next callback has no timestamp. -/
def DroppedUnstamped (evs : List Event) : Prop :=
  ∃ run, .dropped :: (run ++ [.delivered false]) <:+: evs ∧ ∀ e ∈ run, Event.omitted e = true

theorem nextUnstamped_nil : ¬ NextUnstamped [] := by
  rintro ⟨run, hrun, -⟩
  simpa using hrun.length_le

theorem nextUnstamped_delivered {b : Bool} {evs : List Event} :
    NextUnstamped (.delivered b :: evs) ↔ b = false := by
  constructor
  · rintro ⟨run, hrun, hom⟩
    cases run with
    | nil =>
      rw [List.nil_append, List.cons_prefix_cons] at hrun
      exact (Event.delivered.inj hrun.1).symm
    | cons e run =>
      rw [List.cons_append, List.cons_prefix_cons] at hrun
      have he := hom e (List.mem_cons_self ..)
      rw [hrun.1] at he
      exact Bool.noConfusion he
  · rintro rfl
    exact ⟨[], by simp, by simp⟩

theorem nextUnstamped_omitted {e : Event} {evs : List Event} (he : e.omitted = true) :
    NextUnstamped (e :: evs) ↔ NextUnstamped evs := by
  constructor
  · rintro ⟨run, hrun, hom⟩
    cases run with
    | nil =>
      rw [List.nil_append, List.cons_prefix_cons] at hrun
      rw [← hrun.1] at he
      exact Bool.noConfusion he
    | cons e' run =>
      rw [List.cons_append, List.cons_prefix_cons] at hrun
      exact ⟨run, hrun.2, fun e'' h => hom e'' (List.mem_cons_of_mem _ h)⟩
  · rintro ⟨run, hrun, hom⟩
    exact ⟨e :: run, by simpa using hrun, List.forall_mem_cons.2 ⟨he, hom⟩⟩

theorem droppedUnstamped_nil : ¬ DroppedUnstamped [] := by
  rintro ⟨run, hrun, -⟩
  simpa using hrun.length_le

theorem droppedUnstamped_cons {e : Event} {evs : List Event} :
    DroppedUnstamped (e :: evs) ↔
      (e = .dropped ∧ NextUnstamped evs) ∨ DroppedUnstamped evs := by
  constructor
  · rintro ⟨run, hrun, hom⟩
    rcases List.infix_cons_iff.1 hrun with h | h
    · rw [List.cons_prefix_cons] at h
      exact .inl ⟨h.1.symm, run, h.2, hom⟩
    · exact .inr ⟨run, h, hom⟩
  · rintro (⟨rfl, run, hrun, hom⟩ | ⟨run, hrun, hom⟩)
    · exact ⟨run, List.infix_cons_iff.2 (.inl (List.cons_prefix_cons.2 ⟨rfl, hrun⟩)), hom⟩
    · exact ⟨run, List.infix_cons_iff.2 (.inr hrun), hom⟩

/-- Something is concealed twice exactly if an event is dropped before a callback without a
timestamp. -/
theorem doubled_eq_zero {evs : List Event} {d : ℕ} :
    doubled d evs = 0 ↔ ¬ ((0 < d ∧ NextUnstamped evs) ∨ DroppedUnstamped evs) := by
  induction evs generalizing d with
  | nil => simp [doubled, nextUnstamped_nil, droppedUnstamped_nil]
  | cons e evs ih =>
    rw [droppedUnstamped_cons]
    cases e with
    | delivered b =>
      rw [nextUnstamped_delivered]
      cases b with
      | true => simp [doubled, ih]
      | false =>
        simp only [doubled, Nat.add_eq_zero_iff, ih]
        simp
    | dropped =>
      rw [nextUnstamped_omitted rfl, doubled, ih]
      simp only [Nat.succ_pos, true_and]
      tauto
    | silent =>
      rw [nextUnstamped_omitted rfl, doubled, ih]
      simp

/-! ### Bounded gaps -/

/-- Between two timestamped callbacks at most `M` events are omitted. -/
def GapsBounded (M : ℕ) (evs : List Event) : Prop :=
  ∀ gap, gap <:+: evs → .delivered true ∉ gap → omitted gap ≤ M

/-- The same along the stream, `o` events having been omitted since the last timestamp. -/
def Bounded (M : ℕ) : ℕ → List Event → Prop
  | o, [] => o ≤ M
  | o, .delivered true :: evs => o ≤ M ∧ Bounded M 0 evs
  | o, .delivered false :: evs => Bounded M o evs
  | o, .dropped :: evs => Bounded M (o + 1) evs
  | o, .silent :: evs => Bounded M (o + 1) evs

theorem Bounded.le {M : ℕ} {evs : List Event} {o : ℕ} (h : Bounded M o evs) : o ≤ M := by
  induction evs generalizing o with
  | nil => exact h
  | cons e evs ih =>
    match e, h with
    | .delivered true, h => exact h.1
    | .delivered false, h => exact ih h
    | .dropped, h => exact (Nat.le_succ o).trans (ih h)
    | .silent, h => exact (Nat.le_succ o).trans (ih h)

theorem omitted_append (l₁ l₂ : List Event) : omitted (l₁ ++ l₂) = omitted l₁ + omitted l₂ :=
  List.countP_append

theorem GapsBounded.bounded {M : ℕ} {evs : List Event} :
    ∀ pre, .delivered true ∉ pre → GapsBounded M (pre ++ evs) → Bounded M (omitted pre) evs := by
  induction evs with
  | nil =>
    intro pre hpre h
    exact h pre (by simp) hpre
  | cons e evs ih =>
    intro pre hpre h
    -- an event that is no timestamped callback prolongs the gap
    have hnext : e ≠ .delivered true → Bounded M (omitted pre + omitted [e]) evs := by
      intro he
      rw [← omitted_append]
      refine ih (pre ++ [e]) ?_ (by simpa using h)
      simp only [List.mem_append, List.mem_singleton, not_or]
      exact ⟨hpre, he.symm⟩
    match e, hnext with
    | .delivered true, _ =>
      refine ⟨h pre ⟨[], _, rfl⟩ hpre, ih [] List.not_mem_nil fun gap hgap => h gap ?_⟩
      exact hgap.trans ⟨pre ++ [.delivered true], [], by simp⟩
    | .delivered false, hnext => exact hnext (by decide)
    | .dropped, hnext => exact hnext (by decide)
    | .silent, hnext => exact hnext (by decide)

theorem gapsBounded_of_length {M : ℕ} {evs : List Event} (h : evs.length ≤ M) :
    GapsBounded M evs := fun _ hgap _ =>
  (List.countP_le_length ..).trans (hgap.length_le.trans h)

/-! ### The trackers follow the stream -/

/-- What the trackers know when event `n` comes next and `k` events were numbered: `o` events were
omitted and `c` callbacks without a timestamp came since the last timestamp, and `d` events were
dropped since the last callback. -/
structure Tracks (g : Grid) (sl : Slot) (n k o d c : ℕ) : Prop where
  decoder : sl.decoder = true
  frameDur : sl.frameDurUs = g.interval
  seqInit : sl.seq.initialized = true
  next : g.seq k = sl.seq.lastSeq + UInt16.ofNat (d + 1)
  cadInit : sl.cadence.initialized = true
  last : ∃ n₀, sl.cadence.lastTs.toNat = g.base + n₀ * g.interval.toNat ∧ n = n₀ + 1 + c + o
  since : sl.cadence.callbacksSinceTs.toNat = c
  le : d ≤ o

variable {M : MaxConceal} {mode : Mode} {g : Grid} {sl : Slot} {n k o d c : ℕ}

theorem Grid.seq_succ (k : ℕ) : g.seq (k + 1) = g.seq k + UInt16.ofNat 1 := by
  rw [seq, seq, UInt16.ofNat_add, UInt16.add_assoc]

theorem Tracks.dropped (h : Tracks g sl n k o d c) :
    Tracks g sl (n + 1) (k + 1) (o + 1) (d + 1) c := by
  obtain ⟨n₀, hlast, hn⟩ := h.last
  refine ⟨h.decoder, h.frameDur, h.seqInit, ?_, h.cadInit, ⟨n₀, hlast, by omega⟩, h.since,
    Nat.succ_le_succ h.le⟩
  rw [Grid.seq_succ, h.next, UInt16.add_assoc, ← UInt16.ofNat_add]

theorem Tracks.silent (h : Tracks g sl n k o d c) : Tracks g sl (n + 1) k (o + 1) d c := by
  obtain ⟨n₀, hlast, hn⟩ := h.last
  exact ⟨h.decoder, h.frameDur, h.seqInit, h.next, h.cadInit, ⟨n₀, hlast, by omega⟩, h.since,
    h.le.trans (Nat.le_succ o)⟩

theorem Tracks.unstamped (h : Tracks g sl n k o d c) (hmode : mode ≠ .modeA) (hd : d ≤ M.val)
    (hc : c + 1 < 2 ^ 32) (ts : UInt32) :
    (sl.concealOmitted M mode false ts (g.seq k)).plcPushes = d ∧
      Tracks g (sl.concealOmitted M mode false ts (g.seq k)).slot (n + 1) (k + 1) o 0 (c + 1) := by
  obtain ⟨hom, hsi, hsl⟩ := Seq.update_jump h.seqInit hd h.next
  obtain ⟨hres, hci, hct, hcs⟩ :=
    Cadence.update_noTs M ts sl.frameDurUs h.cadInit (h.since ▸ hc)
  obtain ⟨n₀, hlast, hn⟩ := h.last
  unfold Slot.concealOmitted
  rw [if_neg (by simp [h.decoder])]
  dsimp only
  rw [if_pos hmode]
  refine ⟨?_, h.decoder, h.frameDur, hsi, ?_, hci, ⟨n₀, ?_, by omega⟩, ?_, Nat.zero_le o⟩
  · rw [if_neg (by simp [hres])]
    exact hom
  · rw [hsl, Grid.seq_succ]
  · rw [hct]
    exact hlast
  · rw [hcs, h.since]

/-- A timestamped callback conceals everything omitted since the last one. -/
theorem Tracks.stamped (h : Tracks g sl n k o d c) (hmode : mode ≠ .modeA) (ho : o ≤ M.val)
    (hint : g.interval ≠ 0) (hwrap : g.base + n * g.interval.toNat < 2 ^ 32) :
    (sl.concealOmitted M mode true (g.ts n) (g.seq k)).plcPushes = o ∧
      Tracks g (sl.concealOmitted M mode true (g.ts n) (g.seq k)).slot (n + 1) (k + 1) 0 0 0 := by
  obtain ⟨hom, hsi, hsl⟩ := Seq.update_jump h.seqInit (h.le.trans ho) h.next
  obtain ⟨n₀, hlast, hn⟩ := h.last
  have hts : (g.ts n).toNat = g.base + n * g.interval.toNat := by
    rw [Grid.ts, UInt32.toNat_ofNat']
    exact Nat.mod_eq_of_lt hwrap
  have hjump : (g.ts n).toNat = sl.cadence.lastTs.toNat +
      (sl.cadence.callbacksSinceTs.toNat + 1 + o) * sl.frameDurUs.toNat := by
    rw [hts, hlast, h.since, h.frameDur, hn]
    ring
  obtain ⟨hres, hcom, hci, hct, hcs⟩ :=
    Cadence.update_onGrid h.cadInit (h.frameDur ▸ hint) ho hjump
  unfold Slot.concealOmitted
  rw [if_neg (by simp [h.decoder])]
  dsimp only
  rw [if_pos hmode]
  refine ⟨?_, h.decoder, h.frameDur, hsi, ?_, hci, ⟨n, ?_, by omega⟩, ?_, le_rfl⟩
  · -- the larger count is the one of the timestamps
    have hle := h.le
    simp only [hres, hcom, hom]
    split_ifs with hgt
    · rfl
    · omega
  · rw [hsl, Grid.seq_succ]
  · rw [hct]
    exact hts
  · rw [hcs]
    rfl

/-- **The pushes along a stream** that ends with a timestamped callback. -/
theorem pushes_eq {evs : List Event} (h : Tracks g sl n k o d c) (hmode : mode ≠ .modeA)
    (hint : g.interval ≠ 0) (hb : Bounded M.val o evs) (hempty : evs = [] → o = 0)
    (hlast : ∀ e ∈ evs.getLast?, e = .delivered true)
    (hwrap : ∀ m < n + evs.length, g.base + m * g.interval.toNat < 2 ^ 32) :
    pushes M mode g sl n k evs = o + omitted evs + doubled d evs := by
  induction evs generalizing sl n k o d c with
  | nil => exact (hempty rfl).symm
  | cons e evs ih =>
    have hn : g.base + n * g.interval.toNat < 2 ^ 32 := hwrap n (by simp)
    have hwrap' : ∀ m < n + 1 + evs.length, g.base + m * g.interval.toNat < 2 ^ 32 := by
      intro m hm
      exact hwrap m (by rw [List.length_cons]; omega)
    have hlast' : ∀ e' ∈ evs.getLast?, e' = .delivered true := by
      intro e' he'
      cases evs with
      | nil => exact absurd he' (by simp)
      | cons e'' evs => exact hlast e' (by simpa using he')
    -- the last callback is timestamped, so another event follows
    have hne : e ≠ .delivered true → evs ≠ [] := by
      rintro he rfl
      exact he (hlast e (by simp))
    match e, hb, hne with
    | .delivered true, hb, _ =>
      obtain ⟨hpush, htracks⟩ := h.stamped hmode hb.1 hint hn
      have hrest := ih htracks hb.2 (fun _ => rfl) hlast' hwrap'
      simp only [pushes, hpush, hrest, omitted, doubled, Event.omitted, List.countP_cons]
      simp [Nat.add_assoc]
    | .delivered false, hb, hne =>
      have hc : c + 1 < 2 ^ 32 := by
        obtain ⟨n₀, -, hn₀⟩ := h.last
        have hpos : 1 ≤ g.interval.toNat := by
          rw [Nat.one_le_iff_ne_zero]
          exact fun h₀ => hint (UInt32.toNat_inj.1 h₀)
        have hmul := Nat.le_mul_of_pos_right n hpos
        omega
      obtain ⟨hpush, htracks⟩ := h.unstamped hmode (h.le.trans hb.le) hc (g.ts n)
      have hrest := ih htracks hb (fun h₀ => absurd h₀ (hne (by decide))) hlast' hwrap'
      simp only [pushes, hpush, hrest, omitted, doubled, Event.omitted, List.countP_cons]
      simp
      omega
    | .dropped, hb, hne =>
      have hrest := ih h.dropped hb (fun h₀ => absurd h₀ (hne (by decide))) hlast' hwrap'
      simp only [pushes, hrest, omitted, doubled, Event.omitted, List.countP_cons]
      simp
      omega
    | .silent, hb, hne =>
      have hrest := ih h.silent hb (fun h₀ => absurd h₀ (hne (by decide))) hlast' hwrap'
      simp only [pushes, hrest, omitted, doubled, Event.omitted, List.countP_cons]
      simp
      omega

theorem tracks_start (hmode : mode ≠ .modeA) (hint : g.interval ≠ 0) (hbase : g.base < 2 ^ 32) :
    ((Slot.start g).concealOmitted M mode true (g.ts 0) (g.seq 0)).plcPushes = 0 ∧
      Tracks g ((Slot.start g).concealOmitted M mode true (g.ts 0) (g.seq 0)).slot 1 1 0 0 0 := by
  have hts : (g.ts 0).toNat = g.base + 0 * g.interval.toNat := by
    rw [Grid.ts, UInt32.toNat_ofNat', Nat.zero_mul, Nat.add_zero]
    exact Nat.mod_eq_of_lt hbase
  have hcad : (Slot.start g).cadence.update M true (g.ts 0) (Slot.start g).frameDurUs =
      ⟨.first, 0, .bare .none, ⟨true, g.ts 0, 0, 0, 0⟩⟩ := by
    have hdur : (Slot.start g).frameDurUs ≠ 0 := hint
    unfold Cadence.update
    rw [if_neg (by simp), if_neg hdur]
    rfl
  unfold Slot.concealOmitted
  rw [if_neg (by simp [Slot.start])]
  dsimp only
  rw [if_pos hmode, hcad]
  exact ⟨rfl, rfl, rfl, rfl, Grid.seq_succ 0, rfl, ⟨0, hts, rfl⟩, rfl, le_rfl⟩

/-- **Concealed exactly once.**  A stream on the grid starts with a timestamped callback and has
come to another one, with bounded gaps between timestamps.  The pushes for omitted events are as
many as the omitted events if and only if no event was dropped directly before a callback without
a timestamp. -/
theorem pushes_eq_omitted_iff (hmode : mode ≠ .modeA) (hint : g.interval ≠ 0) {evs : List Event}
    (hfirst : evs.head? = some (.delivered true)) (hlast : evs.getLast? = some (.delivered true))
    (hgaps : GapsBounded M.val evs)
    (hwrap : ∀ m < evs.length, g.base + m * g.interval.toNat < 2 ^ 32) :
    pushes M mode g (.start g) 0 0 evs = omitted evs ↔ ¬ DroppedUnstamped evs := by
  obtain ⟨rest, rfl⟩ : ∃ rest, evs = .delivered true :: rest := by
    cases evs with
    | nil => exact absurd hfirst (by simp)
    | cons e rest => exact ⟨rest, by simpa using hfirst⟩
  obtain ⟨hpush, htracks⟩ := tracks_start (M := M) hmode hint (by simpa using hwrap 0 (by simp))
  have hb : Bounded M.val 0 rest := (hgaps.bounded [] List.not_mem_nil).2
  have hlast' : ∀ e ∈ rest.getLast?, e = .delivered true := by
    intro e he
    cases rest with
    | nil => exact absurd he (by simp)
    | cons e' rest => exact Option.some.inj (he.symm.trans (by simpa using hlast))
  have hrest := pushes_eq htracks hmode hint hb (fun _ => rfl) hlast' fun m hm =>
    hwrap m (by rw [List.length_cons]; omega)
  have hdouble : doubled 0 rest = 0 ↔ ¬ DroppedUnstamped rest := by
    simpa using @doubled_eq_zero rest 0
  simp only [pushes, hpush, hrest, droppedUnstamped_cons, omitted, List.countP_cons, Event.omitted]
  simp [← hdouble]

/-! ### Two streams -/

/-- The default bound. -/
def defaultBound : MaxConceal := ⟨8, by decide, by decide⟩

/-- Events every 10 ms from timestamp 1000 on. -/
def tenMs : Grid := ⟨1000, 10000, 0⟩

theorem tenMs_ts_lt (m : ℕ) (hm : m < 4) : tenMs.base + m * tenMs.interval.toNat < 2 ^ 32 := by
  show 1000 + m * 10000 < 2 ^ 32
  omega

/-- One event never emitted and one dropped, between timestamped callbacks. -/
theorem pushes_eq_omitted_iff_stamped :
    ¬ DroppedUnstamped [.delivered true, .silent, .dropped, .delivered true] ∧
      pushes defaultBound .mono tenMs (.start tenMs) 0 0
        [.delivered true, .silent, .dropped, .delivered true] = 2 := by
  have hnot : ¬ DroppedUnstamped [.delivered true, .silent, .dropped, .delivered true] := by
    simp [droppedUnstamped_cons, droppedUnstamped_nil, nextUnstamped_delivered]
  have hiff := @pushes_eq_omitted_iff defaultBound .mono tenMs (by decide) (by decide)
    [.delivered true, .silent, .dropped, .delivered true] rfl rfl
    (gapsBounded_of_length (by decide)) tenMs_ts_lt
  exact ⟨hnot, hiff.2 hnot⟩

/-- One omitted event, dropped before a callback without a timestamp, is concealed twice. -/
theorem pushes_dropped_unstamped :
    ∃ evs : List Event, evs.head? = some (.delivered true) ∧
      evs.getLast? = some (.delivered true) ∧ GapsBounded defaultBound.val evs ∧
      (∀ m < evs.length, tenMs.base + m * tenMs.interval.toNat < 2 ^ 32) ∧
      omitted evs = 1 ∧ pushes defaultBound .mono tenMs (.start tenMs) 0 0 evs = 2 :=
  ⟨[.delivered true, .dropped, .delivered false, .delivered true], rfl, rfl,
    gapsBounded_of_length (by decide), tenMs_ts_lt, rfl, by decide +kernel⟩

end Iso

end LeAudioReceiver
