import LeAudioReceiver.Hil.Console
import LeAudioReceiver.Hil.Status

/-!
# The output of the HIL source

A model of `src/hil/source/app/src/hil_source_output.c` and of the helpers of `hil_source_app.c`
that hand it records: every line of the source passes through one queue, and one writer thread
prints what it takes from there.  A line is checked before it is queued, and it is queued as a whole
or not at all.

A submission is one step: the lock of the queue orders it among the others, and one that waited
until its timeout finds the queue full at the end.  The null pointers are left out, and so is the
drain of the tests.
-/

namespace LeAudioReceiver

namespace Hil

open Json (Text)

/-- `HIL_SOURCE_OUTPUT_QUEUE_DEPTH`. -/
def outputQueueDepth : ℕ := 8

/-- The errors of the output. -/
inductive OutputError where
  | enodev
  | eoverflow
  | einval
  | eagain
  deriving DecidableEq, Repr

/-- The output queue and its writer. -/
structure Output where
  /-- `output_active`. -/
  active : Bool
  /-- `output_queue`. -/
  queue : List (List UInt8)
  /-- The line that the writer took and has not printed. -/
  writing : Option (List UInt8)

namespace Output

/-- The output before it is initialized. -/
def fresh : Output := { active := false, queue := [], writing := none }

/-- `hil_source_output_init`; `shell` tells whether there is a serial shell. -/
def init (o : Output) (shell : Bool) : Output × Except OutputError Unit :=
  if o.active then (o, .ok ())
  else if !shell then (o, .error .enodev)
  else ({ o with active := true, queue := [] }, .ok ())

/-- The bytes that end a line early. -/
def breaksLine (c : UInt8) : Bool := c == cr || c == lf || c == 0

/-- `hil_source_output_submit`. -/
def submit (o : Output) (line : List UInt8) : Output × Except OutputError Unit :=
  if !o.active then (o, .error .enodev)
  else if line.length > outputLineSize then (o, .error .eoverflow)
  else if line.length < 5 || line.take 5 ≠ utf8 hil1 then (o, .error .einval)
  else if line.any breaksLine then (o, .error .einval)
  else if line.length = 0 then (o, .error .einval)
  else if o.queue.length ≥ outputQueueDepth then (o, .error .eagain)
  else ({ o with queue := o.queue ++ [line] }, .ok ())

/-- `hil_app_submit_record`, with the call of `hil_source_output_submit` at its end. -/
def submitRecord (o : Output) (record : Text) : Output × Except OutputError Unit :=
  match Hil.submitRecord record with
  | .error _ => (o, .error .eoverflow)
  | .ok line => o.submit (utf8 line)

/-- A record is formatted in a buffer and handed over, as in `hil_app_emit_state_record` and its
siblings; `none` is a failure of the formatter. -/
def emit (o : Output) (p : Payload) (buf : Text) (h : Header) :
    Output × Option (Except OutputError Unit) :=
  match p.format buf h with
  | (_, .error _) => (o, none)
  | (line, .ok n) =>
    let out := o.submitRecord (line.take n)
    (out.1, some out.2)

/-- The writer takes the next line. -/
def take (o : Output) : Option Output :=
  match o.writing, o.queue with
  | none, line :: queue => if o.active then some { o with queue, writing := some line } else none
  | _, _ => none

/-- What a line looks like when the shell prints it; `returns` is how many returns it puts before
the line feed. -/
def printed (line : List UInt8) (returns : ℕ) : List UInt8 := line ++ List.replicate returns cr

/-! ### Accepted lines -/

/-- What a line is that the output accepts. -/
structure Accepted (line : List UInt8) : Prop where
  isRecord : utf8 hil1 <+: line
  fits : line.length ≤ outputLineSize
  unbroken : ∀ c ∈ line, c ≠ cr ∧ c ≠ lf ∧ c ≠ 0

theorem submit_ok {o o' : Output} {line : List UInt8} (h : o.submit line = (o', .ok ())) :
    o' = { o with queue := o.queue ++ [line] } ∧ Accepted line ∧
      o'.queue.length ≤ outputQueueDepth := by
  unfold submit at h
  split_ifs at h with hactive hlen hprefix hbreak hzero hfull <;> cases h
  refine ⟨rfl, ⟨?_, Nat.not_lt.1 hlen, ?_⟩, ?_⟩
  · have htake : line.take 5 = utf8 hil1 := by
      by_contra hne
      exact hprefix (by simp [hne])
    rw [← htake]
    exact List.take_prefix 5 line
  · intro c hc
    have hnot : breaksLine c = false := by
      by_contra hbreaks
      exact hbreak (List.any_eq_true.2 ⟨c, hc, by simpa using hbreaks⟩)
    simpa [breaksLine, and_assoc] using hnot
  · rw [List.length_append, List.length_singleton]
    omega

theorem submit_error {o o' : Output} {line : List UInt8} {e : OutputError}
    (h : o.submit line = (o', .error e)) : o' = o := by
  unfold submit at h
  split_ifs at h <;> cases h <;> rfl

end Output

end Hil

end LeAudioReceiver
