import LeAudioReceiver.Fault.Program
import Mathlib.Data.List.AList

/-!
# Evidence finalization

A model of `finalize_evidence` and its helpers in `scripts/hil/evidence.py`, as programs over one
flat run directory.  A point is a place where the operating system may raise.  `os.replace` has two
of them, as it may raise before or after its effect; a point of the hash of a file stands for its
open and all its reads.

The digest of `hashlib.sha256` and the text of `json.dumps` are parameters, and so are the names
that `mkstemp` draws.  Contents are bytes; text is encoded as UTF-8.
-/

namespace LeAudioReceiver

namespace Evidence

open Fault

/-- What a name of the directory stands for. -/
inductive Node where
  | file (bytes : ByteArray)
  | symlink
  | other

/-- The run directory, in the order in which `os.scandir` lists it. -/
abbrev Dir := AList fun _ : String => Node

/-- The classes of exceptions that a handler tells apart; `interrupt` is no `Exception`. -/
inductive Kind where
  | evidence | notFound | exception | interrupt
  deriving DecidableEq

structure Exc where
  kind : Kind
  text : String
  deriving DecidableEq

/-- The places where a call may raise. -/
inductive Point where
  | scandir
  | hash (name : String)
  | snapshot (path : String)
  | mkstemp (path : String)
  | write (path : String)
  | fsync (path : String)
  | replace (path : String)
  | replaced (path : String)
  deriving DecidableEq

/-- The directory, the number of temporaries made so far, and the two locals of
`finalize_evidence` that its handlers read. -/
structure Files where
  entries : Dir
  temps : ℕ
  staged : List String
  committed : ℕ

/-- The random part of the names of `mkstemp`, which opens a file that did not exist. -/
structure TempNames where
  random : ℕ → Dir → String → String
  unused : ∀ n d p, p ++ random n d p ∉ d

abbrev Prog := Fault.Prog Files Point Exc

/-- The keyword arguments of `finalize_evidence`. -/
structure Args (ι : Type) where
  fixtureId : String
  runId : String
  captureCapability : String
  outcome : String
  artifactIdentity : Option ι

def evidenceExcluded : List String := ["SHA256SUMS", "MANIFEST.md"]

def runOutcomes : List String := ["prepared", "passed", "failed", "cancelled"]

def evidenceError (text : String) : Exc := ⟨.evidence, text⟩

/-- An ordinary exception becomes an `EvidenceError`; any other one goes on unchanged. -/
def Exc.wrapped (e : Exc) : Exc :=
  if e.kind = .interrupt then e else evidenceError ("evidence finalization failed: " ++ e.text)

variable {ι : Type} (sha256 : ByteArray → String) (dumps : ι → String) (temps : TempNames)

/-! ## The directory -/

def Files.store (s : Files) (name : String) (bytes : ByteArray) : Files :=
  { s with entries := s.entries.insert name (.file bytes) }

def Files.remove (s : Files) (name : String) : Files :=
  { s with entries := s.entries.erase name }

/-- The prefix that the writers pass to `mkstemp`. -/
def tempPrefix (path : String) : String := "." ++ path ++ ".tmp"

def TempNames.name (s : Files) (path : String) : String :=
  tempPrefix path ++ temps.random s.temps s.entries (tempPrefix path)

/-- The content of a file, as `open` and `read` give it. -/
def Files.read (s : Files) (path : String) : Except Exc ByteArray :=
  match s.entries.lookup path with
  | some (.file bytes) => .ok bytes
  | some _ => .error ⟨.exception, "not a regular file: " ++ path⟩
  | none => .error ⟨.notFound, "no such file: " ++ path⟩

def mkstemp (path : String) : Prog String := do
  point (.mkstemp path)
  onState fun s =>
    let tmp := temps.name s path
    .ok (tmp, { s.store tmp .empty with temps := s.temps + 1 })

/-- `fh.write`, `fh.flush` and `os.fsync` on a temporary for `path`. -/
def writeTemp (path tmp : String) (bytes : ByteArray) : Prog Unit := do
  point (.write path)
  onState fun s => .ok ((), s.store tmp bytes)
  point (.fsync path)

def replace (tmp path : String) : Prog Unit := do
  point (.replace path)
  onState fun s =>
    match s.read tmp with
    | .ok bytes => .ok ((), (s.remove tmp).store path bytes)
    | .error e => .error e
  point (.replaced path)

def unlinkIfExists (path : String) : Prog Unit :=
  onState fun s => .ok ((), s.remove path)

/-! ## The helpers -/

def atomicWriteText (path text : String) : Prog Unit := do
  let tmp ← mkstemp temps path
  try
    writeTemp path tmp text.toUTF8
    replace tmp path
  catch e =>
    unlinkIfExists tmp
    throw e

def stageMetadata (path : String) (payload : ByteArray) : Prog String := do
  let tmp ← mkstemp temps path
  try
    writeTemp path tmp payload
  catch e =>
    unlinkIfExists tmp
    throw e
  return tmp

/-- `None` is for a file that was absent, which the open reports as `FileNotFoundError`. -/
def snapshotBytes (path : String) : Prog (Option ByteArray) :=
  tryCatch
    (do
      point (.snapshot path)
      onState fun s => (s.read path).map fun bytes => (some bytes, s))
    fun e => if e.kind = .notFound then pure none else throw e

/-- `tmp` is set between the end of the staging and that of the replacement, so only a replacement
that raises leaves a temporary to the `finally` clause. -/
def restoreMetadata (path : String) (prior : Option ByteArray) : Prog Unit :=
  match prior with
  | none => unlinkIfExists path
  | some bytes =>
    tryCatch
      (do
        let tmp ← stageMetadata temps path bytes
        tryCatch (replace tmp path) fun _ => unlinkIfExists tmp)
      fun _ => pure ()

/-- The loop of `_enumerate_evidence` over the entries of the directory. -/
def retained : List (Sigma fun _ : String => Node) → Except Exc (List String)
  | [] => .ok []
  | ⟨name, .symlink⟩ :: _ => .error (evidenceError ("evidence symlink not allowed: " ++ name))
  | ⟨name, .other⟩ :: _ => .error (evidenceError ("non-regular evidence not allowed: " ++ name))
  | ⟨name, .file _⟩ :: entries =>
    if name ∈ evidenceExcluded then retained entries
    else if '/' ∈ name.toList ∨ name ∈ ["", ".", ".."] then
      .error (evidenceError ("evidence path escapes run directory: " ++ name))
    else (retained entries).map (name :: ·)

def enumerateEvidence : Prog (List String) := do
  point .scandir
  onState fun s => (retained s.entries.entries).map fun names => (names.mergeSort (· ≤ ·), s)

def sha256File (name : String) : Prog String := do
  point (.hash name)
  onState fun s => (s.read name).map fun bytes => (sha256 bytes, s)

def hashLines : Prog (List String) := do
  let names ← enumerateEvidence
  names.mapM fun name => do
    let digest ← sha256File sha256 name
    return digest ++ "  " ++ name

def manifestText (fixtureId runId captureCapability outcome : String) (lines : List String)
    (artifactIdentity : Option ι) : String :=
  let parts :=
    ["# HIL run manifest", "", "fixture_id: " ++ fixtureId, "run_id: " ++ runId,
      "capture_capability: " ++ captureCapability, "outcome: " ++ outcome, "", "## Evidence", ""] ++
    lines ++
    match artifactIdentity with
    | none => []
    | some identity => ["", "## Artifacts", "", dumps identity]
  "\n".intercalate parts ++ "\n"

def bestEffortFailedManifest (fixtureId runId captureCapability : String)
    (artifactIdentity : Option ι) : Prog Unit :=
  tryCatch
    (do
      let lines ← hashLines sha256
      let text :=
        manifestText dumps fixtureId runId captureCapability "failed" lines artifactIdentity
      atomicWriteText temps "MANIFEST.md" text)
    fun _ => pure ()

/-! ## `finalize_evidence` -/

/-- The two snapshots, and how their failure is reported. -/
def snapshotPrior : Prog (Option ByteArray × Option ByteArray) :=
  tryCatch
    (do
      let priorSums ← snapshotBytes "SHA256SUMS"
      let priorManifest ← snapshotBytes "MANIFEST.md"
      return (priorSums, priorManifest))
    fun e => throw e.wrapped

/-- `staged.append(_stage_metadata(path, text))`. -/
def appendStaged (path text : String) : Prog Unit := do
  let tmp ← stageMetadata temps path text.toUTF8
  onState fun s => .ok ((), { s with staged := s.staged ++ [tmp] })

/-- The loop over `staged` in the handlers. -/
def unlinkStaged : Prog Unit := do
  let staged ← onState fun s => .ok (s.staged, s)
  staged.forM unlinkIfExists

def stageBoth (shaText text : String) : Prog Unit := do
  onState fun s => .ok ((), { s with staged := [] })
  tryCatch
    (do
      appendStaged temps "SHA256SUMS" shaText
      appendStaged temps "MANIFEST.md" text)
    fun e => do
      unlinkStaged
      throw e.wrapped

/-- `staged[i]`. -/
def stagedAt (i : ℕ) : Prog String :=
  onState fun s =>
    match s.staged[i]? with
    | some tmp => .ok (tmp, s)
    | none => .error ⟨.exception, "list index out of range"⟩

/-- `_commit_metadata(staged[i], path)`, and the count after it. -/
def commitMetadata (i : ℕ) (path : String) : Prog Unit := do
  let tmp ← stagedAt i
  replace tmp path
  onState fun s => .ok ((), { s with committed := i + 1 })

/-- Both metadata files as before, and the failed manifest where there was none. -/
def restoreBoth (a : Args ι) (committed : ℕ) (prior : Option ByteArray × Option ByteArray) :
    Prog Unit := do
  restoreMetadata temps "SHA256SUMS" prior.1
  restoreMetadata temps "MANIFEST.md" prior.2
  if committed = 1 ∧ prior.2.isNone then
    bestEffortFailedManifest sha256 dumps temps a.fixtureId a.runId a.captureCapability none
  else pure ()

/-- The handler of a failed commit, before it raises. -/
def rollback (a : Args ι) (prior : Option ByteArray × Option ByteArray) : Prog Unit := do
  unlinkStaged
  let committed ← onState fun s => .ok (s.committed, s)
  if 1 ≤ committed then restoreBoth sha256 dumps temps a committed prior else pure ()

def commitBoth (a : Args ι) (prior : Option ByteArray × Option ByteArray) : Prog Unit := do
  onState fun s => .ok ((), { s with committed := 0 })
  tryCatch
    (do
      commitMetadata 0 "SHA256SUMS"
      commitMetadata 1 "MANIFEST.md")
    fun e => do
      rollback sha256 dumps temps a prior
      throw e.wrapped

/-- `finalize_evidence` from its hash lines on. -/
def finalizeLines (a : Args ι) (lines : List String) : Prog String := do
  let shaText := String.join (lines.map (· ++ "\n"))
  let text := manifestText dumps a.fixtureId a.runId a.captureCapability a.outcome lines
    a.artifactIdentity
  let prior ← snapshotPrior
  stageBoth temps shaText text
  commitBoth sha256 dumps temps a prior
  return "MANIFEST.md"

def finalizeEvidence (a : Args ι) : Prog String :=
  if a.outcome ∉ runOutcomes then
    throw (evidenceError ("unknown evidence outcome " ++ a.outcome))
  else do
    let lines ← tryCatch (hashLines sha256) fun e =>
      if e.kind = .evidence then throw e else throw e.wrapped
    finalizeLines sha256 dumps temps a lines

/-- A call over the directory `d` that meets the fault `f`. -/
def call (d : Dir) (a : Args ι) (f : Option (Failure Point Exc)) :
    Except Exc String × World Files Point Exc :=
  final (finalizeEvidence sha256 dumps temps a) ⟨⟨d, 0, [], 0⟩, f⟩

end Evidence

end LeAudioReceiver
