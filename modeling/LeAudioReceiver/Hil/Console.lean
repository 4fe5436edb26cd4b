import LeAudioReceiver.Framing.Basic
import LeAudioReceiver.Hil.Hil1
import LeAudioReceiver.Machine.Basic

/-!
# The console of the host

A model of `SerialConsole` in `src/scripts/hil/serial_io.py` from the moment it is open: its reader
thread appends what a read returns to the evidence file, cuts complete lines off the bytes behind
the last line end and queues them, while the threads of the runner take lines, drain them, or mark a
fresh edge.  Every action is what one holder of the locks does; a read may return any bytes, the
evidence file may take fewer than it was given, and the reader may fail or be stopped at any time.

The bytes are kept in the evidence file whatever happens to them, so what was received since the
last mark can be read there (`SerialConsole.fresh`).  `recorded` is the console beside what its
users got: the offset of the last mark and the lines taken since.

* `SerialConsole.publishLines_eq` : the loop that publishes lines is a fold over the frames.
* `console_exact` : **while no decoding error is kept, the lines taken and queued since a mark are
  all the lines received since, in order, and the bytes pending are what follows the last line
  end**, however the reads cut the stream.  With an error some lines are missing, and none is made
  up; a line that is no UTF-8 is the error unless the queue overflowed before.

The prompt of the receiver's shell, which `command_receiver` looks for in the pending bytes, and the
writing side are left out.
-/

namespace LeAudioReceiver

namespace Hil

open Framing (frames rest)
open Json (Text)

/-! ### Bytes and texts -/

/-- The line feed. -/
def lf : UInt8 := 10

/-- The carriage return. -/
def cr : UInt8 := 13

/-- `raw.decode("utf-8")`; `none` is a `UnicodeDecodeError`. -/
def decode (raw : List UInt8) : Option Text :=
  (String.fromUTF8? ⟨raw.toArray⟩).map String.toList

/-- The bytes of a text. -/
def utf8 (text : Text) : List UInt8 := (String.ofList text).toUTF8.data.toList

/-- `raw.rstrip(b"\r")`. -/
def rstripReturns (raw : List UInt8) : List UInt8 := raw.rdropWhile (· == cr)

/-- The text of a line; `none` if it cannot be decoded. -/
def decodeLine (raw : List UInt8) : Option Text := decode (rstripReturns raw)

@[simp] theorem decode_utf8 (text : Text) : decode (utf8 text) = some text := by
  have hbytes : (⟨(utf8 text).toArray⟩ : ByteArray) = (String.ofList text).toUTF8 := by
    unfold utf8
    rw [Array.toArray_toList]
  rw [decode, hbytes, fromUTF8?_toUTF8, Option.map_some, String.toList_ofList]

theorem utf8_eq (text : Text) : utf8 text = text.utf8Encode.data.toList := by
  unfold utf8
  rw [String.toUTF8_eq_toByteArray, String.toByteArray_ofList]

theorem utf8_append (text text' : Text) : utf8 (text ++ text') = utf8 text ++ utf8 text' := by
  rw [utf8_eq, utf8_eq, utf8_eq, List.utf8Encode_append, ByteArray.data_append, Array.toList_append]

/-- The bytes of a text begin with those of another one only if the text does. -/
theorem isPrefix_of_utf8 {text text' : Text} (h : utf8 text <+: utf8 text') : text <+: text' := by
  obtain ⟨bytes, hbytes⟩ := h
  refine List.isPrefix_of_utf8Encode_append_eq_utf8Encode ⟨bytes.toArray⟩ ?_
  apply ByteArray.ext
  apply Array.ext'
  rw [ByteArray.data_append, Array.toList_append, ← utf8_eq, ← utf8_eq]
  exact hbytes

theorem utf8_of_decode {raw : List UInt8} {text : Text} (h : decode raw = some text) :
    utf8 text = raw := by
  unfold decode at h
  obtain ⟨s, hs, rfl⟩ := Option.map_eq_some_iff.1 h
  unfold String.fromUTF8? at hs
  split at hs
  · cases hs
    rw [utf8_eq, String.utf8Encode_toList]
    rfl
  · cases hs

/-! ### The console -/

/-- `LINE_QUEUE_CAP`. -/
def lineQueueCap : ℕ := 4096

/-- The size of a read. -/
def readSize : ℕ := 512

/-- The errors kept in `_decode_error`. -/
inductive DecodeError where
  /-- `UnicodeDecodeError`. -/
  | unicode
  /-- "console line queue overflow". -/
  | overflow
  deriving DecidableEq, Repr

/-- The errors kept in `_read_error`. -/
inductive ReadError where
  /-- What `read` of the backend raised. -/
  | backend
  /-- The `OSError` of a short write of the evidence. -/
  | evidence
  deriving DecidableEq, Repr

/-- `SerialConsole` while it is open. -/
structure SerialConsole where
  /-- The reader is in its loop. -/
  reading : Bool
  /-- The lines of the queue with their numbers. -/
  lines : List (ℕ × Text)
  lineSeq : ℕ
  /-- `_partial`, the bytes behind the last line end. -/
  pending : List UInt8
  decodeError : Option DecodeError
  readError : Option ReadError
  bytesReceived : ℕ
  /-- What the console appended to the evidence file. -/
  evidence : List UInt8
  deriving DecidableEq

namespace SerialConsole

/-- The console after `open`. -/
def opened : SerialConsole :=
  { reading := true, lines := [], lineSeq := 0, pending := [], decodeError := none
    readError := none, bytesReceived := 0, evidence := [] }

/-- An iteration of `_publish_lines_locked` with the bytes of a line. -/
def publishLine (c : SerialConsole) (raw : List UInt8) : SerialConsole :=
  match decodeLine raw with
  | none => { c with decodeError := c.decodeError.or (some .unicode) }
  | some line =>
    if lineQueueCap ≤ c.lines.length then
      { c with decodeError := c.decodeError.or (some .overflow) }
    else { c with lines := c.lines ++ [(c.lineSeq, line)], lineSeq := c.lineSeq + 1 }

@[simp] theorem publishLine_pending (c : SerialConsole) (raw : List UInt8) :
    (c.publishLine raw).pending = c.pending := by
  unfold publishLine
  split
  · rfl
  · split <;> rfl

/-- `_publish_lines_locked`. -/
def publishLines (c : SerialConsole) : SerialConsole :=
  match _ : c.pending.dropWhile (· != lf) with
  | [] => c
  | _ :: remaining =>
    publishLines
      (publishLine { c with pending := remaining } (c.pending.takeWhile (· != lf)))
termination_by c.pending.length
decreasing_by
  have hsuffix := List.dropWhile_suffix (l := c.pending) (· != lf)
  have hlen := hsuffix.length_le
  simp_all only [publishLine_pending, List.length_cons]
  omega

/-- The reader has got a chunk. -/
def receive (c : SerialConsole) (chunk : List UInt8) : SerialConsole :=
  publishLines
    { c with
      evidence := c.evidence ++ chunk
      bytesReceived := c.bytesReceived + chunk.length
      pending := c.pending ++ chunk }

/-- What happens at the console. -/
inductive Action where
  /-- A read returns a chunk. -/
  | receive (chunk : List UInt8)
  /-- A read returns a chunk of which the evidence file takes only `written` bytes. -/
  | shortWrite (chunk : List UInt8) (written : ℕ)
  /-- A read raises. -/
  | readFails
  /-- The reader leaves its loop because `close` asked for it. -/
  | stop
  /-- `next_line` pops a line. -/
  | nextLine
  /-- `drain_lines`. -/
  | drainLines
  /-- `mark_rx`. -/
  | markRx
  deriving DecidableEq

/-- One action; `none` where it cannot happen. -/
def next (c : SerialConsole) : Action → Option SerialConsole
  | .receive chunk =>
    if c.reading ∧ chunk ≠ [] ∧ chunk.length ≤ readSize then some (c.receive chunk) else none
  | .shortWrite chunk written =>
    if c.reading ∧ chunk.length ≤ readSize ∧ written < chunk.length then
      some { c with
        evidence := c.evidence ++ chunk.take written
        readError := some .evidence
        reading := false }
    else none
  | .readFails =>
    if c.reading then some { c with readError := some .backend, reading := false } else none
  | .stop => if c.reading then some { c with reading := false } else none
  | .nextLine => if c.lines = [] then none else some { c with lines := c.lines.tail }
  | .drainLines => some { c with lines := [] }
  | .markRx => some { c with lines := [], pending := [] }

/-- The console from `open` on. -/
def machine : Machine SerialConsole Action where
  init c := c = opened
  next := next

/-- The texts in the queue. -/
def queued (c : SerialConsole) : List Text := c.lines.map Prod.snd

/-- The bytes received since an offset, as the evidence file has them. -/
def fresh (c : SerialConsole) (mark : ℕ) : List UInt8 :=
  (c.evidence.take c.bytesReceived).drop mark

/-! ### Publishing -/

/-- A line is published without a look at the bytes pending. -/
theorem publishLine_setPending (c : SerialConsole) (raw bytes : List UInt8) :
    publishLine { c with pending := bytes } raw = { c.publishLine raw with pending := bytes } := by
  unfold publishLine
  cases decodeLine raw with
  | none => rfl
  | some line =>
    by_cases hfull : lineQueueCap ≤ c.lines.length
    · simp only [if_pos hfull]
    · simp only [if_neg hfull]

/-- The loop publishes the frames of the bytes pending and leaves their rest. -/
theorem publishLines_eq (c : SerialConsole) :
    c.publishLines =
      (frames lf c.pending).foldl publishLine { c with pending := rest lf c.pending } := by
  induction c using publishLines.induct with
  | case1 c hnone =>
    have hmem : lf ∉ c.pending := by
      intro hmem
      have hall := List.dropWhile_eq_nil_iff.1 hnone lf hmem
      simp at hall
    rw [publishLines, Framing.frames_of_not_mem hmem, Framing.rest_of_not_mem hmem]
    split
    · rfl
    · rename_i hcons
      rw [hnone] at hcons
      cases hcons
  | case2 c b remaining hcons ih =>
    have hb : b = lf := by
      have hne : c.pending.dropWhile (· != lf) ≠ [] := by
        rw [hcons]
        exact List.cons_ne_nil _ _
      have hhead := List.head_dropWhile_not (· != lf) (w := hne)
      simp only [hcons, List.head_cons, bne_eq_false_iff_eq] at hhead
      exact hhead
    subst hb
    have hraw : lf ∉ c.pending.takeWhile (· != lf) := by
      intro hmem
      have hne := List.mem_takeWhile_imp hmem
      simp at hne
    have hpending : c.pending = c.pending.takeWhile (· != lf) ++ lf :: remaining := by
      rw [← hcons, List.takeWhile_append_dropWhile]
    rw [publishLines]
    split
    · rename_i hnil
      rw [hcons] at hnil
      cases hnil
    · rename_i hcons'
      rw [hcons] at hcons'
      obtain ⟨-, rfl⟩ := List.cons.inj hcons'
      have hframes := Framing.frames_cons hraw remaining
      have hrest : rest lf (c.pending.takeWhile (· != lf) ++ lf :: remaining) = rest lf remaining :=
        Framing.rest_cons remaining
      rw [← hpending] at hframes hrest
      rw [ih, publishLine_pending, hframes, hrest, List.foldl_cons, ← publishLine_setPending]

/-- What publishing some lines does to a console. -/
structure Published (c c' : SerialConsole) (raws : List (List UInt8)) : Prop where
  evidence : c'.evidence = c.evidence
  bytesReceived : c'.bytesReceived = c.bytesReceived
  reading : c'.reading = c.reading
  readError : c'.readError = c.readError
  pending : c'.pending = c.pending
  lines : ∃ new, c'.queued = c.queued ++ new ∧ new.Sublist (raws.filterMap decodeLine) ∧
    (c'.decodeError = none → c.decodeError = none ∧ raws.map decodeLine = new.map some)
  unicode : c'.decodeError = some .unicode →
    c.decodeError = some .unicode ∨ ∃ raw ∈ raws, decodeLine raw = none
  cap : c.lines.length ≤ lineQueueCap → c'.lines.length ≤ lineQueueCap

theorem Published.nil (c : SerialConsole) : Published c c [] :=
  { evidence := rfl, bytesReceived := rfl, reading := rfl, readError := rfl
    pending := rfl
    lines := ⟨[], (List.append_nil _).symm, .slnil, fun h => ⟨h, rfl⟩⟩
    unicode := .inl
    cap := id }

theorem ne_none_of_or {e e' : Option DecodeError} {x : DecodeError} (h : e' = e.or (some x)) :
    e' ≠ none := by
  subst h
  cases e <;> exact Option.some_ne_none _

theorem publishLine_spec (c : SerialConsole) (raw : List UInt8) :
    Published c (c.publishLine raw) [raw] := by
  unfold publishLine
  cases hraw : decodeLine raw with
  | none =>
    refine ⟨rfl, rfl, rfl, rfl, rfl,
      ⟨[], (List.append_nil _).symm, List.nil_sublist _, fun h => ?_⟩,
      fun _ => .inr ⟨raw, List.mem_singleton_self raw, hraw⟩, id⟩
    exact absurd h (ne_none_of_or rfl)
  | some line =>
    by_cases hfull : lineQueueCap ≤ c.lines.length
    · -- the line is lost, and the overflow is kept unless there is an error already
      simp only [if_pos hfull]
      refine ⟨rfl, rfl, rfl, rfl, rfl,
        ⟨[], (List.append_nil _).symm, List.nil_sublist _, fun h => ?_⟩, fun h => .inl ?_, id⟩
      · exact absurd h (ne_none_of_or rfl)
      · cases herror : c.decodeError with
        | none =>
          rw [herror] at h
          cases h
        | some e =>
          rw [herror] at h
          exact h
    · simp only [if_neg hfull]
      refine ⟨rfl, rfl, rfl, rfl, rfl, ⟨[line], ?_, ?_, fun h => ⟨h, ?_⟩⟩, .inl, fun _ => ?_⟩
      · simp [queued]
      · simp [hraw]
      · simp [hraw]
      · simp only [List.length_append, List.length_singleton]
        omega

theorem Published.trans {c c' c'' : SerialConsole} {raws raws' : List (List UInt8)}
    (h : Published c c' raws) (h' : Published c' c'' raws') : Published c c'' (raws ++ raws') := by
  obtain ⟨new, hnew, hsub, hexact⟩ := h.lines
  obtain ⟨new', hnew', hsub', hexact'⟩ := h'.lines
  refine ⟨h'.evidence.trans h.evidence, h'.bytesReceived.trans h.bytesReceived,
    h'.reading.trans h.reading, h'.readError.trans h.readError, h'.pending.trans h.pending,
    ⟨new ++ new', ?_, ?_, fun herror => ?_⟩, fun herror => ?_, h'.cap ∘ h.cap⟩
  · rw [hnew', hnew, List.append_assoc]
  · rw [List.filterMap_append]
    exact hsub.append hsub'
  · obtain ⟨hbetween, hmap'⟩ := hexact' herror
    obtain ⟨hbefore, hmap⟩ := hexact hbetween
    exact ⟨hbefore, by rw [List.map_append, List.map_append, hmap, hmap']⟩
  · rcases h'.unicode herror with hbetween | ⟨raw, hraw, hnone⟩
    · rcases h.unicode hbetween with hbefore | ⟨raw, hraw, hnone⟩
      · exact .inl hbefore
      · exact .inr ⟨raw, List.mem_append_left _ hraw, hnone⟩
    · exact .inr ⟨raw, List.mem_append_right _ hraw, hnone⟩

theorem publishLine_fold (c : SerialConsole) (raws : List (List UInt8)) :
    Published c (raws.foldl publishLine c) raws := by
  induction raws generalizing c with
  | nil => exact .nil c
  | cons raw raws ih => exact (publishLine_spec c raw).trans (ih (c.publishLine raw))

/-- What a chunk does to a console. -/
theorem receive_spec (c : SerialConsole) (chunk : List UInt8) :
    Published
      { c with
        evidence := c.evidence ++ chunk
        bytesReceived := c.bytesReceived + chunk.length
        pending := rest lf (c.pending ++ chunk) }
      (c.receive chunk) (frames lf (c.pending ++ chunk)) := by
  unfold receive
  rw [publishLines_eq]
  exact publishLine_fold _ _

end SerialConsole

/-! ### What the users of the console get -/

/-- What the users of the console got. -/
structure Taking where
  /-- The offset that the last `mark_rx` returned. -/
  mark : ℕ
  /-- The lines taken since. -/
  lines : List Text

/-- What an action gives to the users. -/
def Taking.note (c : SerialConsole) (a : SerialConsole.Action) (_ : SerialConsole) (g : Taking) :
    Taking :=
  match a with
  | .nextLine => { g with lines := g.lines ++ c.queued.take 1 }
  | .drainLines => { g with lines := g.lines ++ c.queued }
  | .markRx => { mark := c.bytesReceived, lines := [] }
  | _ => g

/-- The console beside what its users got. -/
def recorded : Machine (SerialConsole × Taking) SerialConsole.Action :=
  SerialConsole.machine.watch { mark := 0, lines := [] } Taking.note

/-- How the console stands to what it received. -/
structure Exact (c : SerialConsole) (g : Taking) : Prop where
  mark_le : g.mark ≤ c.bytesReceived
  kept : c.bytesReceived ≤ c.evidence.length
  level : c.readError ≠ some .evidence → c.bytesReceived = c.evidence.length
  sound : c.reading = true → c.readError = none
  pending : c.pending = rest lf (c.fresh g.mark)
  sublist : (g.lines ++ c.queued).Sublist ((frames lf (c.fresh g.mark)).filterMap decodeLine)
  exact : c.decodeError = none →
    (frames lf (c.fresh g.mark)).map decodeLine = (g.lines ++ c.queued).map some
  unicode : c.decodeError = some .unicode →
    ∃ raw, decodeLine raw = none ∧ raw ++ [lf] <:+: c.evidence
  cap : c.lines.length ≤ lineQueueCap

namespace Exact

variable {c c' : SerialConsole} {g : Taking}

theorem level_of_reading (h : Exact c g) (hreading : c.reading = true) :
    c.bytesReceived = c.evidence.length :=
  h.level (by rw [h.sound hreading]; nofun)

/-- The bytes received last are behind the ones before. -/
theorem fresh_receive (h : Exact c g) (hreading : c.reading = true) (chunk : List UInt8) :
    (c.receive chunk).fresh g.mark = c.fresh g.mark ++ chunk := by
  have hspec := SerialConsole.receive_spec c chunk
  have hlevel := h.level_of_reading hreading
  have hmark := h.mark_le
  unfold SerialConsole.fresh
  rw [hspec.evidence, hspec.bytesReceived]
  simp only []
  rw [hlevel, ← List.length_append, List.take_length, List.take_length,
    List.drop_append_of_le_length]
  omega

theorem receive (h : Exact c g) (hreading : c.reading = true) (chunk : List UInt8) :
    Exact (c.receive chunk) g := by
  have hspec := SerialConsole.receive_spec c chunk
  have hfresh := h.fresh_receive hreading chunk
  have hlevel := h.level_of_reading hreading
  obtain ⟨new, hqueued, hsub, hexact⟩ := hspec.lines
  have hframes : frames lf ((c.receive chunk).fresh g.mark) =
      frames lf (c.fresh g.mark) ++ frames lf (c.pending ++ chunk) := by
    rw [hfresh, Framing.frames_append, h.pending]
  have hlines : g.lines ++ (c.receive chunk).queued = g.lines ++ c.queued ++ new := by
    rw [hqueued, List.append_assoc]
    rfl
  constructor
  · rw [hspec.bytesReceived]
    exact h.mark_le.trans (Nat.le_add_right _ _)
  · rw [hspec.bytesReceived, hspec.evidence, List.length_append]
    exact Nat.add_le_add_right h.kept _
  · intro _
    rw [hspec.bytesReceived, hspec.evidence, List.length_append]
    exact congrArg (· + chunk.length) hlevel
  · rw [hspec.reading, hspec.readError]
    exact h.sound
  · rw [hfresh, Framing.rest_append, ← h.pending]
    exact hspec.pending
  · rw [hlines, hframes, List.filterMap_append]
    exact h.sublist.append hsub
  · intro herror
    obtain ⟨hbefore, hmap⟩ := hexact herror
    rw [hlines, hframes, List.map_append, List.map_append, h.exact hbefore, hmap]
  · intro herror
    rw [hspec.evidence]
    rcases hspec.unicode herror with hbefore | ⟨raw, hraw, hnone⟩
    · obtain ⟨raw, hnone, hinfix⟩ := h.unicode hbefore
      exact ⟨raw, hnone, hinfix.trans (List.prefix_append _ chunk).isInfix⟩
    · refine ⟨raw, hnone, (Framing.infix_of_mem_frames hraw).trans ?_⟩
      have hsuffix : c.pending <:+ c.evidence := by
        rw [h.pending]
        refine (Framing.rest_suffix _).trans ((List.drop_suffix g.mark _).trans ?_)
        rw [hlevel, List.take_length]
      obtain ⟨before, hbefore⟩ := hsuffix
      refine (List.IsSuffix.isInfix ⟨before, ?_⟩)
      rw [← List.append_assoc, hbefore]
  · exact hspec.cap h.cap

/-- What is no chunk changes neither the bytes nor the lines in the order they are taken. -/
theorem of_same (h : Exact c g) {g' : Taking} (hmark : g'.mark = g.mark)
    (hbytes : c'.bytesReceived = c.bytesReceived) (hevidence : c'.evidence = c.evidence)
    (hreading : c'.reading = true → c.reading = true ∧ c'.readError = c.readError)
    (hread : c.readError = some .evidence → c'.readError = some .evidence)
    (hpending : c'.pending = c.pending)
    (herror : c'.decodeError = c.decodeError)
    (hlines : g'.lines ++ c'.queued = g.lines ++ c.queued)
    (hcap : c'.lines.length ≤ c.lines.length) : Exact c' g' := by
  have hfresh : c'.fresh g'.mark = c.fresh g.mark := by
    unfold SerialConsole.fresh
    rw [hbytes, hevidence, hmark]
  constructor
  · rw [hmark, hbytes]
    exact h.mark_le
  · rw [hbytes, hevidence]
    exact h.kept
  · intro hne
    rw [hbytes, hevidence]
    exact h.level fun heq => hne (hread heq)
  · intro hread
    rw [(hreading hread).2]
    exact h.sound (hreading hread).1
  · rw [hpending, hfresh]
    exact h.pending
  · rw [hlines, hfresh]
    exact h.sublist
  · rw [hlines, hfresh, herror]
    exact h.exact
  · rw [herror, hevidence]
    exact h.unicode
  · exact hcap.trans h.cap

theorem shortWrite (h : Exact c g) (hreading : c.reading = true) (some' : List UInt8) :
    Exact { c with
      evidence := c.evidence ++ some'
      readError := some .evidence
      reading := false } g := by
  have hlevel := h.level_of_reading hreading
  have hfresh : SerialConsole.fresh { c with
      evidence := c.evidence ++ some'
      readError := some .evidence
      reading := false } g.mark = c.fresh g.mark := by
    unfold SerialConsole.fresh
    simp only []
    rw [hlevel, List.take_left, List.take_length]
  constructor
  · exact h.mark_le
  · rw [List.length_append]
    exact h.kept.trans (Nat.le_add_right _ _)
  · exact fun hne => absurd rfl hne
  · nofun
  · rw [hfresh]
    exact h.pending
  · rw [hfresh]
    exact h.sublist
  · rw [hfresh]
    exact h.exact
  · intro herror
    obtain ⟨raw, hnone, hinfix⟩ := h.unicode herror
    exact ⟨raw, hnone, hinfix.trans (List.prefix_append _ some').isInfix⟩
  · exact h.cap

theorem markRx (h : Exact c g) :
    Exact { c with lines := [], pending := [] } { mark := c.bytesReceived, lines := [] } := by
  have hfresh : SerialConsole.fresh { c with lines := [], pending := [] } c.bytesReceived = [] :=
    List.drop_eq_nil_of_le (List.length_take_le _ _)
  constructor
  · exact le_rfl
  · exact h.kept
  · exact h.level
  · exact h.sound
  · rw [hfresh]
    rfl
  · rw [hfresh]
    exact .slnil
  · rw [hfresh]
    exact fun _ => rfl
  · exact h.unicode
  · exact Nat.zero_le _

theorem opened : Exact SerialConsole.opened { mark := 0, lines := [] } :=
  { mark_le := le_rfl, kept := le_rfl, level := fun _ => rfl, sound := fun _ => rfl
    pending := rfl, sublist := .slnil, exact := fun _ => rfl, unicode := nofun
    cap := Nat.zero_le _ }

/-- Every action keeps the console exact. -/
theorem step {a : SerialConsole.Action} (h : Exact c g) (hnext : c.next a = some c') :
    Exact c' (g.note c a c') := by
  cases a with
  | receive chunk =>
    obtain ⟨hok, hc⟩ := Option.ite_none_right_eq_some.1 hnext
    obtain rfl := Option.some.inj hc
    exact h.receive hok.1 chunk
  | shortWrite chunk written =>
    obtain ⟨hok, hc⟩ := Option.ite_none_right_eq_some.1 hnext
    obtain rfl := Option.some.inj hc
    exact h.shortWrite hok.1 _
  | readFails =>
    obtain ⟨hok, hc⟩ := Option.ite_none_right_eq_some.1 hnext
    obtain rfl := Option.some.inj hc
    refine h.of_same rfl rfl rfl nofun (fun heq => ?_) rfl rfl rfl le_rfl
    rw [h.sound hok] at heq
    cases heq
  | stop =>
    obtain ⟨hok, hc⟩ := Option.ite_none_right_eq_some.1 hnext
    obtain rfl := Option.some.inj hc
    exact h.of_same rfl rfl rfl nofun id rfl rfl rfl le_rfl
  | nextLine =>
    obtain ⟨hne, hc⟩ := Option.ite_none_left_eq_some.1 hnext
    obtain rfl := Option.some.inj hc
    refine h.of_same rfl rfl rfl (fun hread => ⟨hread, rfl⟩) id rfl rfl ?_ (by simp)
    have hhead : c.queued.take 1 ++ c.queued.drop 1 = c.queued := List.take_append_drop 1 _
    have htail : SerialConsole.queued { c with lines := c.lines.tail } = c.queued.drop 1 := by
      unfold SerialConsole.queued
      rw [← List.drop_one, List.map_drop]
    change g.lines ++ c.queued.take 1 ++ _ = _
    rw [htail, List.append_assoc, hhead]
  | drainLines =>
    obtain rfl := Option.some.inj hnext
    refine h.of_same rfl rfl rfl (fun hread => ⟨hread, rfl⟩) id rfl rfl ?_ (Nat.zero_le _)
    exact List.append_nil _
  | markRx =>
    obtain rfl := Option.some.inj hnext
    exact h.markRx

end Exact

theorem exact {c : SerialConsole} {g : Taking} (h : recorded.Reachable (c, g)) : Exact c g := by
  refine Machine.Reachable.invariant (I := fun p => Exact p.1 p.2) h ?_ ?_
  · rintro ⟨c, g⟩ ⟨hc, hg⟩
    obtain rfl : c = SerialConsole.opened := hc
    obtain rfl : g = _ := hg
    exact Exact.opened
  · rintro ⟨c, g⟩ a ⟨c', g'⟩ hexact hnext
    obtain ⟨hc, hg⟩ := Machine.watch_next hnext
    rw [hg]
    exact Exact.step hexact hc

/-- **While no decoding error is kept, the lines taken and queued since a mark are all the lines
received since, in order, and the bytes pending are what follows the last line end.**  With an error
the lines are a part of them, and an error of decoding is a line received that is no UTF-8. -/
theorem console_exact {c : SerialConsole} {g : Taking} (h : recorded.Reachable (c, g)) :
    c.pending = rest lf (c.fresh g.mark) ∧
      (c.decodeError = none →
        (frames lf (c.fresh g.mark)).map decodeLine = (g.lines ++ c.queued).map some) ∧
      (g.lines ++ c.queued).Sublist ((frames lf (c.fresh g.mark)).filterMap decodeLine) ∧
      (c.decodeError = some .unicode →
        ∃ raw, decodeLine raw = none ∧ raw ++ [lf] <:+: c.evidence) ∧
      (c.readError ≠ some .evidence → c.fresh g.mark = c.evidence.drop g.mark) ∧
      c.lines.length ≤ lineQueueCap := by
  have hexact := exact h
  refine ⟨hexact.pending, hexact.exact, hexact.sublist, hexact.unicode, fun hne => ?_, hexact.cap⟩
  rw [SerialConsole.fresh, hexact.level hne, List.take_length]

/-- A line of two letters and a line of one, cut inside the character of two bytes. -/
def splitReads : List SerialConsole.Action :=
  [.receive [0x48, 0x69, cr], .receive [lf, 0xc3], .nextLine, .receive [0xa9, lf, 0x21]]

theorem console_exact_split :
    ∃ c g, recorded.Reachable (c, g) ∧ c.decodeError = none ∧ g.lines = ["Hi".toList] ∧
      c.queued = [['\u00e9']] ∧
      (frames lf (c.fresh g.mark)).map decodeLine = (g.lines ++ c.queued).map some := by
  have hrun : (recorded.run (SerialConsole.opened, { mark := 0, lines := [] }) splitReads).map
      (fun p => (p.1.decodeError, p.2.lines, p.1.queued)) =
        some (none, ["Hi".toList], [['\u00e9']]) := by
    decide +kernel
  obtain ⟨⟨c, g⟩, hrun, hp⟩ := Option.map_eq_some_iff.1 hrun
  have h₀ : recorded.Reachable (SerialConsole.opened, { mark := 0, lines := [] }) :=
    .init ⟨rfl, rfl⟩
  obtain ⟨herror, hp⟩ := Prod.mk.inj hp
  obtain ⟨htaken, hqueued⟩ := Prod.mk.inj hp
  have h : recorded.Reachable (c, g) := h₀.run hrun
  exact ⟨c, g, h, herror, htaken, hqueued, (console_exact h).2.1 herror⟩

end Hil

end LeAudioReceiver
