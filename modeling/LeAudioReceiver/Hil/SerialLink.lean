import LeAudioReceiver.Hil.Output

/-!
# The serial link

The source and the host put together: the threads of the source hand lines to the output queue, the
writer prints them on the wire between other lines of the shell, and the console of the host cuts
what it reads into lines.  The wire keeps the bytes in order, and it may carry any line between the
records that is no record; the runs start with the boot of the source at a console that is open and
end at the next mark.

`traffic` is the link beside the lines that the output accepted and those that the host took.

* `link_exact` : **the records that reach the host are, in order and unchanged, the first of those
  accepted, while its console keeps no decoding error**, and it reads each of them as the record
  that the source formatted; when nothing is on its way and the evidence is whole, they are all of
  them.
-/

namespace LeAudioReceiver

namespace Hil

open Framing (encode frames rest)
open Json (Text)

/-- The source, the wire and the console of the host. -/
structure SerialLink where
  output : Output
  /-- The bytes printed and not read yet. -/
  wire : List UInt8
  console : SerialConsole

namespace SerialLink

/-- The link before the source boots. -/
def quiet : SerialLink := { output := .fresh, wire := [], console := .opened }

/-- What happens on the link. -/
inductive Action where
  /-- `hil_source_output_init`, with or without a shell. -/
  | init (shell : Bool)
  /-- A thread emits a record; what was in its buffer does not matter. -/
  | report (p : Payload) (buf : Text) (h : Header)
  /-- A thread submits any other line. -/
  | submit (line : List UInt8)
  /-- The writer takes a line. -/
  | take
  /-- The writer prints it, with some returns before the line feed. -/
  | print (returns : ℕ)
  /-- The shell prints a line that is no record. -/
  | other (raw : List UInt8)
  /-- A read of the host returns some bytes of the wire. -/
  | deliver (n : ℕ)
  /-- The same, and the evidence file takes only a part of them. -/
  | shortWrite (n written : ℕ)
  | readFails
  | stop
  | nextLine
  | drainLines

/-- One action; `none` where it cannot happen. -/
def next (l : SerialLink) : Action → Option SerialLink
  | .init shell => some { l with output := (l.output.init shell).1 }
  | .report p buf h =>
    if buf.length = outputLineSize then some { l with output := (l.output.emit p buf h).1 }
    else none
  | .submit line => some { l with output := (l.output.submit line).1 }
  | .take => l.output.take.map fun output => { l with output }
  | .print returns =>
    l.output.writing.map fun line =>
      { l with
        output := { l.output with writing := none }
        wire := l.wire ++ (Output.printed line returns ++ [lf]) }
  | .other raw =>
    if lf ∉ raw ∧ ¬utf8 hil1 <+: raw then some { l with wire := l.wire ++ (raw ++ [lf]) }
    else none
  | .deliver n =>
    (l.console.next (.receive (l.wire.take n))).map fun console =>
      { l with wire := l.wire.drop n, console }
  | .shortWrite n written =>
    (l.console.next (.shortWrite (l.wire.take n) written)).map fun console =>
      { l with wire := l.wire.drop n, console }
  | .readFails => (l.console.next .readFails).map fun console => { l with console }
  | .stop => (l.console.next .stop).map fun console => { l with console }
  | .nextLine => (l.console.next .nextLine).map fun console => { l with console }
  | .drainLines => (l.console.next .drainLines).map fun console => { l with console }

/-- The link from the boot of the source on. -/
def machine : Machine SerialLink Action where
  init l := l = quiet
  next := next

/-- What the action does at the console. -/
def Action.atConsole (l : SerialLink) : Action → Option SerialConsole.Action
  | .deliver n => some (.receive (l.wire.take n))
  | .shortWrite n written => some (.shortWrite (l.wire.take n) written)
  | .readFails => some .readFails
  | .stop => some .stop
  | .nextLine => some .nextLine
  | .drainLines => some .drainLines
  | _ => none

end SerialLink

/-- A line that the output accepted, with the record in it where the source formatted one. -/
structure Sent where
  line : List UInt8
  record : Option HilRecord

/-- What the output accepted and what the host took. -/
structure Traffic where
  accepted : List Sent
  taking : Taking

namespace Traffic

/-- Nothing is accepted or taken. -/
def none : Traffic := { accepted := [], taking := { mark := 0, lines := [] } }

/-- What a submission adds to the lines accepted; there is none if the formatter failed. -/
def submitted (r : Option (Except OutputError Unit)) (s : Sent) : List Sent :=
  match r with
  | some (.ok ()) => [s]
  | _ => []

/-- What an action adds to the lines accepted. -/
def sent (l : SerialLink) : SerialLink.Action → List Sent
  | .report p buf h =>
    submitted (l.output.emit p buf h).2
      { line := utf8 (hil1 ++ cString (p.format buf h).1)
        record := p.data.map (h.record p.kind) }
  | .submit line => submitted (some (l.output.submit line).2) { line, record := Option.none }
  | _ => []

/-- What an action is to the source and to the host. -/
def note (l : SerialLink) (a : SerialLink.Action) (l' : SerialLink) (g : Traffic) : Traffic :=
  { accepted := g.accepted ++ sent l a
    taking :=
      match a.atConsole l with
      | some b => g.taking.note l.console b l'.console
      | Option.none => g.taking }

end Traffic

/-- The link beside its traffic. -/
def traffic : Machine (SerialLink × Traffic) SerialLink.Action :=
  SerialLink.machine.watch Traffic.none Traffic.note

/-! ### What is on the way -/

/-- What a line is that the output accepted: whole, and the text of its record. -/
structure Sent.Good (s : Sent) : Prop where
  accepted : Output.Accepted s.line
  record : ∀ r, s.record = some r →
    ∃ text, s.line = utf8 text ∧ parseHil1Line (.str text) = .ok (some r)

/-- A frame on the wire and the line that it carries, if it is one of the output. -/
inductive Frame : Option Sent → List UInt8 → Prop
  | record {s : Sent} (good : s.Good) (returns : ℕ) :
      Frame (some s) (Output.printed s.line returns)
  | other {raw : List UInt8} : lf ∉ raw → ¬utf8 hil1 <+: raw → Frame none raw

/-- The host reads the line that was sent. -/
def Reads (line : Text) (s : Sent) : Prop :=
  utf8 line = s.line ∧ ∀ r, s.record = some r → parseHil1Line (.str line) = .ok (some r)

/-- Where the lines accepted are: printed, with the writer, or in the queue. -/
structure Flow (l : SerialLink) (accepted : List Sent) (printed : List (Option Sent × List UInt8))
    (writing : Option Sent) (queue : List Sent) (lost : List UInt8) : Prop where
  order : accepted = printed.filterMap Prod.fst ++ writing.toList ++ queue
  writing : l.output.writing = writing.map Sent.line
  queue : l.output.queue = queue.map Sent.line
  good : ∀ s ∈ accepted, s.Good
  frames : ∀ p ∈ printed, Frame p.1 p.2
  bytes : l.console.fresh 0 ++ lost ++ l.wire = encode lf (printed.map Prod.snd)
  whole : l.console.readError ≠ some .evidence → lost = []

/-- What holds of the link in every run. -/
structure Carries (l : SerialLink) (g : Traffic) : Prop where
  console : Exact l.console g.taking
  mark : g.taking.mark = 0
  inactive : l.output.active = false → l.output.queue = [] ∧ l.output.writing = none
  flow : ∃ printed writing queue lost, Flow l g.accepted printed writing queue lost

/-! ### Frames -/

/-- The returns at the end of a line are removed, and they are all that is. -/
theorem rstripReturns_printed {line : List UInt8} (h : cr ∉ line) (returns : ℕ) :
    rstripReturns (Output.printed line returns) = line := by
  unfold rstripReturns Output.printed
  induction returns with
  | zero =>
    rw [List.replicate_zero, List.append_nil, List.rdropWhile_eq_self_iff]
    intro hne hlast
    have hmem := List.getLast_mem hne
    rw [beq_iff_eq.1 hlast] at hmem
    exact h hmem
  | succ returns ih =>
    rw [List.replicate_succ', ← List.append_assoc, List.rdropWhile_concat_pos _ _ _ (by simp), ih]

theorem Output.Accepted.not_mem {line : List UInt8} (h : Output.Accepted line) :
    cr ∉ line ∧ lf ∉ line :=
  ⟨fun hmem => (h.unbroken _ hmem).1 rfl, fun hmem => (h.unbroken _ hmem).2.1 rfl⟩

theorem Frame.not_mem {o : Option Sent} {raw : List UInt8} (h : Frame o raw) : lf ∉ raw := by
  cases h with
  | record good returns =>
    intro hmem
    rcases List.mem_append.1 hmem with hmem | hmem
    · exact good.accepted.not_mem.2 hmem
    · exact absurd (List.eq_of_mem_replicate hmem) (by decide)
  | other hlf _ => exact hlf

theorem Sent.Good.reads {s : Sent} (h : s.Good) {returns : ℕ} {line : Text}
    (hline : decodeLine (Output.printed s.line returns) = some line) :
    Reads line s ∧ hil1 <+: line := by
  have hbytes : utf8 line = s.line := by
    have hdecoded := utf8_of_decode hline
    rwa [rstripReturns_printed h.accepted.not_mem.1] at hdecoded
  refine ⟨⟨hbytes, fun r hr => ?_⟩, isPrefix_of_utf8 (hbytes ▸ h.accepted.isRecord)⟩
  obtain ⟨text, htext, hparse⟩ := h.record r hr
  have hsame : line = text := by
    have hdecoded := decode_utf8 text
    rw [← htext, ← hbytes, decode_utf8] at hdecoded
    exact Option.some.inj hdecoded
  rw [hsame]
  exact hparse

/-- A line that is no record is read as none. -/
theorem Frame.other_reads {raw : List UInt8} (h : Frame none raw) {line : Text}
    (hline : decodeLine raw = some line) : ¬hil1 <+: line := by
  cases h with
  | other _ hraw =>
    rintro ⟨tail, rfl⟩
    have hdecoded := utf8_of_decode hline
    have hstrip : rstripReturns raw <+: raw := List.rdropWhile_prefix _ raw
    rw [utf8_append] at hdecoded
    exact hraw ((List.prefix_append _ _).trans (hdecoded ▸ hstrip))

/-- The records among the lines of some frames are those that were sent in them. -/
theorem forall₂_reads {printed : List (Option Sent × List UInt8)} {lines : List Text}
    (hframes : ∀ p ∈ printed, Frame p.1 p.2)
    (hlines : (printed.map Prod.snd).map decodeLine = lines.map some) :
    List.Forall₂ Reads (lines.filter hil1.isPrefixOf) (printed.filterMap Prod.fst) := by
  induction printed generalizing lines with
  | nil =>
    obtain rfl : lines = [] := List.map_eq_nil_iff.1 hlines.symm
    exact .nil
  | cons p printed ih =>
    cases lines with
    | nil => cases hlines
    | cons line lines =>
      obtain ⟨hline, htail⟩ := List.cons.inj hlines
      have hrest := ih (fun p hp => hframes p (List.mem_cons_of_mem _ hp)) htail
      obtain ⟨o, raw⟩ := p
      have hframe := hframes _ List.mem_cons_self
      cases o with
      | none =>
        have hnot : hil1.isPrefixOf line = false := by
          by_contra h
          exact hframe.other_reads hline (List.isPrefixOf_iff_prefix.1 (by simpa using h))
        rw [List.filter_cons_of_neg (by simp [hnot])]
        exact hrest
      | some s =>
        cases hframe with
        | record good returns =>
          obtain ⟨hreads, hprefix⟩ := good.reads hline
          rw [List.filter_cons_of_pos (List.isPrefixOf_iff_prefix.2 hprefix)]
          exact .cons hreads hrest

/-! ### The steps of the link -/

theorem Output.emit_cases (o : Output) (p : Payload) (buf : Text) (h : Header) :
    (o.emit p buf h).2 = none ∧ (o.emit p buf h).1 = o ∨
      ∃ line r, hil1 ++ cString (p.format buf h).1 = line ∧ p.data.map (h.record p.kind) = some r ∧
        parseHil1Line (.str line) = .ok (some r) ∧
        ((o.emit p buf h).2 = some (.error .eoverflow) ∧ (o.emit p buf h).1 = o ∨
          o.emit p buf h = ((o.submit (utf8 line)).1, some (o.submit (utf8 line)).2)) := by
  obtain ⟨buf', r, hformat, -, hr⟩ := record_round_trip p buf h
  unfold emit
  rw [hformat]
  cases r with
  | error e => exact .inl ⟨rfl, rfl⟩
  | ok n =>
    obtain ⟨hn, data, hdata, -, hparse, -⟩ := hr
    have htake : buf'.take n = cString buf' := by
      have hprefix : cString buf' <+: buf' := List.takeWhile_prefix _
      rw [hn]
      exact (List.prefix_iff_eq_take.1 hprefix).symm
    refine .inr ⟨_, h.record p.kind data, rfl, by rw [hdata]; rfl, hparse, ?_⟩
    simp only [htake, Output.submitRecord, Hil.submitRecord]
    by_cases hlong : outputLineSize < (cString buf').length + 5
    · rw [if_pos hlong]
      exact .inl ⟨rfl, rfl⟩
    · rw [if_neg hlong]
      exact .inr rfl

namespace Carries

variable {l l' : SerialLink} {g : Traffic}

theorem quiet : Carries .quiet .none :=
  { console := .opened
    mark := rfl
    inactive := fun _ => ⟨rfl, rfl⟩
    flow := ⟨[], none, [], [],
      { order := rfl, writing := rfl, queue := rfl, good := nofun, frames := nofun, bytes := rfl
        whole := fun _ => rfl }⟩ }

/-- A line that the output accepts goes to the end of the queue. -/
theorem accepts (h : Carries l g) {s : Sent} {o : Output} {text : Text}
    (hsubmit : l.output.submit s.line = (o, .ok ()))
    (hrecord : ∀ r, s.record = some r →
      s.line = utf8 text ∧ parseHil1Line (.str text) = .ok (some r)) :
    Carries { l with output := o } { g with accepted := g.accepted ++ [s] } := by
  obtain ⟨ho, haccepted, -⟩ := Output.submit_ok hsubmit
  have hactive : l.output.active = true := by
    unfold Output.submit at hsubmit
    by_contra hnot
    rw [if_pos (by simpa using hnot)] at hsubmit
    cases hsubmit
  subst ho
  refine ⟨h.console, h.mark, fun hinactive => ?_, ?_⟩
  · rw [hactive] at hinactive
    cases hinactive
  · obtain ⟨printed, writing, queue, lost, hflow⟩ := h.flow
    refine ⟨printed, writing, queue ++ [s], lost, ?_⟩
    constructor
    · change g.accepted ++ [s] = _
      rw [hflow.order, List.append_assoc]
    · exact hflow.writing
    · rw [List.map_append]
      exact congrArg (· ++ [s.line]) hflow.queue
    · intro t ht
      rcases List.mem_append.1 ht with ht | ht
      · exact hflow.good t ht
      · obtain rfl := List.mem_singleton.1 ht
        exact ⟨haccepted, fun r hr => ⟨text, hrecord r hr⟩⟩
    · exact hflow.frames
    · exact hflow.bytes
    · exact hflow.whole

theorem submits (h : Carries l g) (s : Sent) {text : Text}
    (hrecord : ∀ r, s.record = some r →
      s.line = utf8 text ∧ parseHil1Line (.str text) = .ok (some r)) :
    Carries { l with output := (l.output.submit s.line).1 }
      { g with
        accepted := g.accepted ++ Traffic.submitted (some (l.output.submit s.line).2) s } := by
  cases hsubmit : l.output.submit s.line with
  | mk o r =>
    cases r with
    | ok u => exact h.accepts hsubmit hrecord
    | error e =>
      obtain rfl := Output.submit_error hsubmit
      simpa only [Traffic.submitted, List.append_nil] using h

theorem report (h : Carries l g) (p : Payload) (buf : Text) (hd : Header) :
    Carries { l with output := (l.output.emit p buf hd).1 }
      { g with accepted := g.accepted ++ Traffic.sent l (.report p buf hd) } := by
  have hsame : Carries l { g with accepted := g.accepted ++ [] } := by
    rw [List.append_nil]
    exact h
  change Carries _ { g with accepted := g.accepted ++ Traffic.submitted _ _ }
  rcases l.output.emit_cases p buf hd with
    ⟨hnone, ho⟩ | ⟨line, r, hline, hr, hparse, ⟨hlong, ho⟩ | hemit⟩
  · rw [hnone, ho]
    exact hsame
  · rw [hlong, ho]
    exact hsame
  · rw [hemit, hline, hr]
    have hrecord : ∀ r', some r = some r' →
        utf8 line = utf8 line ∧ parseHil1Line (.str line) = .ok (some r') := by
      rintro r' ⟨⟩
      exact ⟨rfl, hparse⟩
    exact h.submits { line := utf8 line, record := some r } hrecord

theorem take (h : Carries l g) {o : Output} (ho : l.output.take = some o) :
    Carries { l with output := o } g := by
  obtain ⟨printed, writing, queue, lost, hflow⟩ := h.flow
  have hwriting := hflow.writing
  have hqueue := hflow.queue
  unfold Output.take at ho
  split at ho
  · rename_i line lines hnone hcons
    obtain ⟨hactive, ho⟩ := Option.ite_none_right_eq_some.1 ho
    obtain rfl := Option.some.inj ho
    refine ⟨h.console, h.mark, fun hinactive => ?_, ?_⟩
    · rw [show l.output.active = true from hactive] at hinactive
      cases hinactive
    · rw [hnone] at hwriting
      obtain rfl : writing = none := Option.map_eq_none_iff.1 hwriting.symm
      cases queue with
      | nil =>
        rw [hcons] at hqueue
        cases hqueue
      | cons s queue =>
        rw [hcons] at hqueue
        obtain ⟨rfl, rfl⟩ := List.cons.inj hqueue
        refine ⟨printed, some s, queue, lost, ?_⟩
        exact { hflow with
          order := by rw [hflow.order]; simp
          writing := rfl
          queue := rfl }
  · cases ho

theorem prints {printed : List (Option Sent × List UInt8)} {writing writing' : Option Sent}
    {queue : List Sent} {lost : List UInt8} {accepted : List Sent} {o : Output}
    (hflow : Flow l accepted printed writing queue lost) {from' : Option Sent} {raw : List UInt8}
    (hframe : Frame from' raw) (hwriting : o.writing = writing'.map Sent.line)
    (hqueue : o.queue = l.output.queue) (hfrom : writing.toList = from'.toList ++ writing'.toList) :
    Flow { l with output := o, wire := l.wire ++ (raw ++ [lf]) } accepted
      (printed ++ [(from', raw)]) writing' queue lost := by
  constructor
  · rw [hflow.order, hfrom]
    cases from' <;> simp
  · exact hwriting
  · exact hqueue.trans hflow.queue
  · exact hflow.good
  · intro p hp
    rcases List.mem_append.1 hp with hp | hp
    · exact hflow.frames p hp
    · obtain rfl := List.mem_singleton.1 hp
      exact hframe
  · rw [← List.append_assoc, hflow.bytes]
    simp [encode]
  · exact hflow.whole

theorem print (h : Carries l g) {line : List UInt8} (hline : l.output.writing = some line)
    (returns : ℕ) :
    Carries { l with
      output := { l.output with writing := none }
      wire := l.wire ++ (Output.printed line returns ++ [lf]) } g := by
  obtain ⟨printed, writing, queue, lost, hflow⟩ := h.flow
  have hwriting := hflow.writing
  rw [hline] at hwriting
  obtain ⟨s, rfl, rfl⟩ := Option.map_eq_some_iff.1 hwriting.symm
  have hgood : s.Good := hflow.good s (by rw [hflow.order]; simp)
  refine ⟨h.console, h.mark, fun hinactive => ⟨(h.inactive hinactive).1, rfl⟩, ?_⟩
  exact ⟨_, none, queue, lost, prints hflow (.record hgood returns) rfl rfl rfl⟩

theorem other (h : Carries l g) {raw : List UInt8} (hlf : lf ∉ raw) (hraw : ¬utf8 hil1 <+: raw) :
    Carries { l with wire := l.wire ++ (raw ++ [lf]) } g := by
  obtain ⟨printed, writing, queue, lost, hflow⟩ := h.flow
  refine ⟨h.console, h.mark, h.inactive, ?_⟩
  exact ⟨_, writing, queue, lost, prints hflow (.other hlf hraw) hflow.writing rfl rfl⟩

theorem host (h : Carries l g) {a : SerialConsole.Action} {c : SerialConsole}
    (hc : l.console.next a = some c) (hmark : (g.taking.note l.console a c).mark = g.taking.mark)
    (hfresh : c.fresh 0 = l.console.fresh 0)
    (hread : l.console.readError = some .evidence → c.readError = some .evidence) :
    Carries { l with console := c } { g with taking := g.taking.note l.console a c } := by
  obtain ⟨printed, writing, queue, lost, hflow⟩ := h.flow
  refine ⟨h.console.step hc, hmark.trans h.mark, h.inactive, printed, writing, queue, lost, ?_⟩
  exact { hflow with
    bytes := by rw [hfresh]; exact hflow.bytes
    whole := fun hne => hflow.whole fun heq => hne (hread heq) }

theorem deliver (h : Carries l g) {n : ℕ} {c : SerialConsole}
    (hc : l.console.next (.receive (l.wire.take n)) = some c) :
    Carries { l with wire := l.wire.drop n, console := c } g := by
  obtain ⟨hok, hsome⟩ := Option.ite_none_right_eq_some.1 hc
  obtain rfl := Option.some.inj hsome
  obtain ⟨printed, writing, queue, lost, hflow⟩ := h.flow
  have herror := h.console.sound hok.1
  have hfresh := h.console.fresh_receive hok.1 (l.wire.take n)
  rw [h.mark] at hfresh
  have hlost : lost = [] := hflow.whole (by rw [herror]; nofun)
  subst hlost
  refine ⟨h.console.step hc, h.mark, h.inactive, printed, writing, queue, [], ?_⟩
  exact { hflow with
    bytes := by
      have hbytes := hflow.bytes
      rw [hfresh, List.append_nil, List.append_assoc, List.take_append_drop]
      rwa [List.append_nil] at hbytes
    whole := fun _ => rfl }

/-- What the evidence file did not take is lost, and the reader stops. -/
theorem shortWrite (h : Carries l g) {n written : ℕ} {c : SerialConsole}
    (hc : l.console.next (.shortWrite (l.wire.take n) written) = some c) :
    Carries { l with wire := l.wire.drop n, console := c } g := by
  have hexact := h.console.step hc
  obtain ⟨hok, hsome⟩ := Option.ite_none_right_eq_some.1 hc
  obtain rfl := Option.some.inj hsome
  obtain ⟨printed, writing, queue, lost, hflow⟩ := h.flow
  have hlevel := h.console.level_of_reading hok.1
  refine ⟨hexact, h.mark, h.inactive, printed, writing, queue, lost ++ l.wire.take n, ?_⟩
  exact { hflow with
    bytes := by
      have hbytes := hflow.bytes
      unfold SerialConsole.fresh at hbytes ⊢
      simp only [hlevel, List.take_length, List.take_left] at hbytes ⊢
      rw [List.append_assoc, List.append_assoc, List.take_append_drop, ← List.append_assoc]
      exact hbytes
    whole := fun hne => absurd rfl hne }

/-- Every action keeps what the link carries. -/
theorem step {a : SerialLink.Action} (h : Carries l g) (hnext : l.next a = some l') :
    Carries l' (g.note l a l') := by
  -- most actions accept no record
  have hnone : ∀ {l' : SerialLink} {t : Taking}, Carries l' { g with taking := t } →
      Carries l' { accepted := g.accepted ++ [], taking := t } := by
    intro l' t h'
    rw [List.append_nil]
    exact h'
  -- the source accepts, takes and prints; the wire delivers; the host reads
  cases a with
  | init shell =>
    obtain rfl := Option.some.inj hnext
    refine hnone ?_
    unfold Output.init
    by_cases hactive : l.output.active = true
    · -- a second initialisation changes nothing
      rw [if_pos hactive]
      exact h
    · rw [if_neg hactive]
      cases shell with
      | false => exact h
      | true =>
        obtain ⟨hqueue, -⟩ := h.inactive (by simpa using hactive)
        refine ⟨h.console, h.mark, nofun, ?_⟩
        obtain ⟨printed, writing, queue, lost, hflow⟩ := h.flow
        exact ⟨printed, writing, queue, lost, { hflow with queue := hqueue ▸ hflow.queue }⟩
  | report p buf hd =>
    obtain ⟨-, hsome⟩ := Option.ite_none_right_eq_some.1 hnext
    obtain rfl := Option.some.inj hsome
    exact h.report p buf hd
  | submit line =>
    obtain rfl := Option.some.inj hnext
    exact @submits _ _ h { line, record := none } [] nofun
  | take =>
    obtain ⟨o, ho, rfl⟩ := Option.map_eq_some_iff.1 hnext
    exact hnone (h.take ho)
  | print returns =>
    obtain ⟨line, hline, rfl⟩ := Option.map_eq_some_iff.1 hnext
    exact hnone (h.print hline returns)
  | other raw =>
    obtain ⟨hok, hsome⟩ := Option.ite_none_right_eq_some.1 hnext
    obtain rfl := Option.some.inj hsome
    exact hnone (h.other hok.1 hok.2)
  | deliver n =>
    obtain ⟨c, hc, rfl⟩ := Option.map_eq_some_iff.1 hnext
    exact hnone (h.deliver hc)
  | shortWrite n written =>
    obtain ⟨c, hc, rfl⟩ := Option.map_eq_some_iff.1 hnext
    exact hnone (h.shortWrite hc)
  | readFails =>
    obtain ⟨c, hc, rfl⟩ := Option.map_eq_some_iff.1 hnext
    obtain ⟨hreading, hsome⟩ := Option.ite_none_right_eq_some.1 hc
    obtain rfl := Option.some.inj hsome
    refine hnone (h.host hc rfl rfl fun heq => ?_)
    rw [h.console.sound hreading] at heq
    cases heq
  | stop =>
    obtain ⟨c, hc, rfl⟩ := Option.map_eq_some_iff.1 hnext
    obtain ⟨-, hsome⟩ := Option.ite_none_right_eq_some.1 hc
    obtain rfl := Option.some.inj hsome
    exact hnone (h.host hc rfl rfl id)
  | nextLine =>
    obtain ⟨c, hc, rfl⟩ := Option.map_eq_some_iff.1 hnext
    obtain ⟨-, hsome⟩ := Option.ite_none_left_eq_some.1 hc
    obtain rfl := Option.some.inj hsome
    exact hnone (h.host hc rfl rfl id)
  | drainLines =>
    obtain rfl := Option.some.inj hnext
    exact hnone (h.host (a := .drainLines) rfl rfl rfl id)

end Carries

/-! ### What the host reads -/

theorem carries {l : SerialLink} {g : Traffic} (h : traffic.Reachable (l, g)) : Carries l g := by
  refine Machine.Reachable.invariant (I := fun p => Carries p.1 p.2) h ?_ ?_
  · rintro ⟨l, g⟩ ⟨hl, hg⟩
    obtain rfl : l = SerialLink.quiet := hl
    obtain rfl : g = _ := hg
    exact Carries.quiet
  · rintro ⟨l, g⟩ a ⟨l', g'⟩ hcarries hnext
    obtain ⟨hl, hg⟩ := Machine.watch_next hnext
    rw [hg]
    exact Carries.step hcarries hl

theorem Flow.not_mem {l : SerialLink} {accepted : List Sent}
    {printed : List (Option Sent × List UInt8)} {writing : Option Sent} {queue : List Sent}
    {lost : List UInt8} (h : Flow l accepted printed writing queue lost) :
    ∀ raw ∈ printed.map Prod.snd, lf ∉ raw := by
  intro raw hraw
  obtain ⟨p, hp, rfl⟩ := List.mem_map.1 hraw
  exact (h.frames p hp).not_mem

theorem Flow.forall₂_reads {l : SerialLink} {g : Traffic} {accepted : List Sent}
    {printed : List (Option Sent × List UInt8)} {writing : Option Sent} {queue : List Sent}
    {lost : List UInt8} (h : Flow l accepted printed writing queue lost)
    (hconsole : Exact l.console g.taking) (hmark : g.taking.mark = 0)
    (herror : l.console.decodeError = none) :
    ∃ k, (printed.map Prod.snd).take k = Framing.frames lf (l.console.fresh 0) ∧
      List.Forall₂ Reads ((g.taking.lines ++ l.console.queued).filter hil1.isPrefixOf)
        ((printed.take k).filterMap Prod.fst) := by
  have hprefix : Framing.frames lf (l.console.fresh 0) <+: printed.map Prod.snd := by
    rw [← Framing.frames_encode h.not_mem, ← h.bytes, List.append_assoc]
    exact Framing.frames_prefix (List.prefix_append _ _)
  obtain ⟨k, hk⟩ : ∃ k, (printed.map Prod.snd).take k = Framing.frames lf (l.console.fresh 0) :=
    ⟨_, (List.prefix_iff_eq_take.1 hprefix).symm⟩
  refine ⟨k, hk, Hil.forall₂_reads (fun p hp => h.frames p (List.mem_of_mem_take hp)) ?_⟩
  rw [List.map_take, hk, ← hmark]
  exact hconsole.exact herror

/-- **The records that reach the host are the first of those accepted, in order and unchanged,
while its console keeps no decoding error**; where the source formatted one, the host reads it back.
When nothing is on its way and the evidence is whole, they are all of them. -/
theorem link_exact {l : SerialLink} {g : Traffic} (h : traffic.Reachable (l, g))
    (herror : l.console.decodeError = none) :
    ∃ read unread, g.accepted = read ++ unread ∧
      List.Forall₂ Reads ((g.taking.lines ++ l.console.queued).filter hil1.isPrefixOf) read ∧
      (l.console.readError ≠ some .evidence → l.wire = [] → l.output.writing = none →
        l.output.queue = [] → unread = []) := by
  obtain ⟨hconsole, hmark, -, printed, writing, queue, lost, hflow⟩ := carries h
  obtain ⟨k, hk, hreads⟩ := hflow.forall₂_reads hconsole hmark herror
  refine ⟨_, (printed.drop k).filterMap Prod.fst ++ writing.toList ++ queue, ?_, hreads, ?_⟩
  · rw [hflow.order, ← List.append_assoc, ← List.append_assoc, ← List.filterMap_append,
      List.take_append_drop]
  · intro hread hwire hwriting hqueue
    have hw : writing = none := by
      rw [hflow.writing] at hwriting
      exact Option.map_eq_none_iff.1 hwriting
    have hq : queue = [] := by
      rw [hflow.queue] at hqueue
      exact List.map_eq_nil_iff.1 hqueue
    have hbytes : l.console.fresh 0 = encode lf (printed.map Prod.snd) := by
      rw [← hflow.bytes, hflow.whole hread, hwire, List.append_nil, List.append_nil]
    have hlen : printed.length ≤ k := by
      rw [hbytes, Framing.frames_encode hflow.not_mem] at hk
      simpa using congrArg List.length hk
    rw [List.drop_eq_nil_of_le hlen, hw, hq]
    rfl

/-- A record goes over the link behind another line, cut by the reads. -/
def oneRecord : List SerialLink.Action :=
  [.init true, .other [0x62, 0x6f, 0x6f, 0x74, cr],
    .report .ackStart (List.replicate outputLineSize nul)
      { monotonicMs := 7, commandId := "cmd-0001".toList, runId := "run".toList, segment := 0 },
    .deliver 9, .take, .print 1, .deliver 100, .deliver 512, .nextLine, .nextLine]

theorem link_exact_one :
    ∃ l g, traffic.Reachable (l, g) ∧ l.console.decodeError = none ∧ g.accepted.length = 1 ∧
      g.taking.lines.length = 2 ∧ ∃ read unread, g.accepted = read ++ unread ∧
        List.Forall₂ Reads ((g.taking.lines ++ l.console.queued).filter hil1.isPrefixOf) read ∧
        (l.console.readError ≠ some .evidence → l.wire = [] → l.output.writing = none →
          l.output.queue = [] → unread = []) := by
  have hrun : (traffic.run (.quiet, .none) oneRecord).map
      (fun p => (p.1.console.decodeError, p.2.accepted.length, p.2.taking.lines.length)) =
        some (none, 1, 2) := by
    decide +kernel
  obtain ⟨⟨l, g⟩, hrun, hp⟩ := Option.map_eq_some_iff.1 hrun
  have h₀ : traffic.Reachable (.quiet, .none) := .init ⟨rfl, rfl⟩
  obtain ⟨herror, hp⟩ := Prod.mk.inj hp
  obtain ⟨haccepted, htaken⟩ := Prod.mk.inj hp
  have h : traffic.Reachable (l, g) := h₀.run hrun
  exact ⟨l, g, h, herror, haccepted, htaken, link_exact h herror⟩

end Hil

end LeAudioReceiver
