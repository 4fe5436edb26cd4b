import LeAudioReceiver.Evidence.Steps
import Mathlib.Algebra.Order.BigOperators.Group.List
import Mathlib.Algebra.Order.Ring.Nat

/-!
# Finalization as a transaction

One step of `finalize_evidence` fails; does the run directory come back?

* `runs_commitBoth_second` : whatever the second replacement does, both metadata files come back.
* `runs_commitBoth_first` : after the first one nothing is restored, as `committed` is still zero.
* `transactional_iff` : so a call is a transaction for every failing step but two: the replacement
  of `SHA256SUMS` that raises after its effect, and a snapshot that reports an absent file.
* `finalize_rejected` : a call that is rejected raises and leaves the directory as it was.
-/

namespace LeAudioReceiver

namespace Evidence

open Fault

variable {ι : Type} (sha256 : ByteArray → String) (dumps : ι → String) (temps : TempNames)
variable {w : World Files Point Exc} {s : Files} {d : Dir} {f : Failure Point Exc} {a : Args ι}
variable {path name tmp : String} {bytes : ByteArray}

/-! ## Staging -/

/-- Two temporaries are in the directory `d`, with the new contents of the metadata files. -/
structure Staged (d : Dir) (sums manifest : ByteArray) (first second : String) (s : Files) :
    Prop where
  staged : s.staged = [first, second]
  ne : second ≠ first
  unused : d.lookup first = none ∧ d.lookup second = none
  metadata : ∀ name ∈ evidenceExcluded, name ≠ first ∧ name ≠ second
  entries : ∀ name, s.entries.lookup name =
    if name = second then some (.file manifest)
    else if name = first then some (.file sums)
    else d.lookup name

theorem lookup_drawn : (s.drawn tmp bytes).entries.lookup name =
    if name = tmp then some (.file bytes) else s.entries.lookup name :=
  lookup_store

/-- The state after `staged.append(_stage_metadata(path, text))`. -/
def Files.appended (s : Files) (tmp : String) (bytes : ByteArray) : Files :=
  { s.drawn tmp bytes with staged := s.staged ++ [tmp] }

theorem runs_appendStaged (text : String) (h : w.Avoids (stagePoints path)) :
    Runs (appendStaged temps path text) w (.ok ())
      { w with state := w.state.appended (temps.name w.state path) text.toUTF8 } :=
  (runs_stageMetadata temps _ h).bind (runs_onState rfl)

theorem runs_stageBoth (sums manifest : String) (hs : w.Avoids (stagePoints "SHA256SUMS"))
    (hm : w.Avoids (stagePoints "MANIFEST.md")) :
    ∃ first second s, Runs (stageBoth temps sums manifest) w (.ok ()) { w with state := s } ∧
      Staged w.state.entries sums.toUTF8 manifest.toUTF8 first second s := by
  let s₀ : Files := { w.state with staged := [] }
  let first := temps.name s₀ "SHA256SUMS"
  let s₁ := s₀.appended first sums.toUTF8
  let second := temps.name s₁ "MANIFEST.md"
  have hfirst := runs_appendStaged temps sums (w := { w with state := s₀ }) hs
  have hsecond := runs_appendStaged temps manifest (w := { w with state := s₁ }) hm
  have hlookup : ∀ name, s₁.entries.lookup name =
      if name = first then some (.file sums.toUTF8) else w.state.entries.lookup name := by
    intro name
    exact lookup_drawn (s := s₀)
  have hunused := temp_unused temps "MANIFEST.md" s₁
  rw [hlookup] at hunused
  have hne : second ≠ first := by
    intro heq
    rw [if_pos heq] at hunused
    cases hunused
  rw [if_neg hne] at hunused
  refine ⟨first, second, s₁.appended second manifest.toUTF8,
    Runs.bind (a := ()) (runs_onState rfl) (Runs.try_ok (hfirst.bind hsecond)), ?_⟩
  exact
    { staged := rfl
      ne := hne
      unused := ⟨temp_unused temps _ s₀, hunused⟩
      metadata := fun name h => ⟨temp_ne h, temp_ne h⟩
      entries := fun name => (lookup_drawn (s := s₁)).trans (by rw [hlookup]) }

/-- A staging that raises leaves the directory as it was, also after the first temporary. -/
theorem runs_stageBoth_error (sums manifest : String)
    (h : f.point ∈ stagePoints "SHA256SUMS" ∨ f.point ∈ stagePoints "MANIFEST.md") :
    ∃ s', Runs (stageBoth temps sums manifest) ⟨s, some f⟩ (.error f.raises.wrapped) ⟨s', none⟩ ∧
      s'.entries = s.entries := by
  let s₀ : Files := { s with staged := [] }
  by_cases hs : f.point ∈ stagePoints "SHA256SUMS"
  · obtain ⟨n, hraise⟩ := runs_stageMetadata_error temps s₀ sums.toUTF8 hs
    exact ⟨{ s₀ with temps := n }, Runs.bind (a := ()) (runs_onState rfl) (Runs.try_error
      hraise.bind_error.bind_error (runs_unlinkStaged.bind (runs_throw _))), rfl⟩
  · let first := temps.name s₀ "SHA256SUMS"
    let s₁ := s₀.appended first sums.toUTF8
    have hfirst := runs_appendStaged temps sums (w := ⟨s₀, some f⟩)
      (avoids_some hs)
    obtain ⟨n, hraise⟩ := runs_stageMetadata_error temps s₁ manifest.toUTF8
      (h.resolve_left hs)
    refine ⟨({ s₁ with temps := n } : Files).remove first, Runs.bind (a := ()) (runs_onState rfl)
      (Runs.try_error (hfirst.bind hraise.bind_error) (runs_unlinkStaged.bind (runs_throw _))), ?_⟩
    have hremove : (s₀.store first sums.toUTF8).remove first = s₀ :=
      remove_store (name_unused temps _ s₀)
    have hentries : ((s₀.store first sums.toUTF8).remove first).entries = s₀.entries :=
      congrArg Files.entries hremove
    exact hentries

/-! ## The way back -/

theorem runs_restoreMetadata (s : Files) (prior : Option ByteArray)
    (hpath : path ∈ evidenceExcluded) :
    ∃ s', Runs (restoreMetadata temps path prior) ⟨s, none⟩ (.ok ()) ⟨s', none⟩ ∧
      ∀ name, s'.entries.lookup name =
        if name = path then prior.map .file else s.entries.lookup name := by
  cases prior with
  | none => exact ⟨s.remove path, runs_unlinkIfExists, fun name => lookup_remove⟩
  | some bytes =>
    let tmp := temps.name s path
    have hstage := runs_stageMetadata temps bytes (avoids_none s (stagePoints path))
    have hread : (s.drawn tmp bytes).read tmp = .ok bytes := read_store
    have hreplace := runs_replace (w := ⟨s.drawn tmp bytes, none⟩) (misses_none _ _)
      (misses_none _ (Point.replaced path)) hread
    refine ⟨_, Runs.try_ok (hstage.bind hreplace.try_ok), fun name => ?_⟩
    rw [lookup_store, lookup_remove, lookup_drawn]
    by_cases heq : name = tmp
    · have hne : name ≠ path := heq ▸ (temp_ne hpath).symm
      rw [if_neg hne, if_pos heq, if_neg hne, heq, temp_unused]
    · simp [heq]

/-- Writing the failed manifest changes the manifest at most. -/
theorem runs_bestEffort (fixtureId runId captureCapability : String) (identity : Option ι)
    (s : Files) :
    ∃ s', Runs (bestEffortFailedManifest sha256 dumps temps fixtureId runId captureCapability
        identity) ⟨s, none⟩ (.ok ()) ⟨s', none⟩ ∧
      (∀ name, name ≠ "MANIFEST.md" → s'.entries.lookup name = s.entries.lookup name) ∧
      (s'.entries.lookup "MANIFEST.md" = s.entries.lookup "MANIFEST.md" ∨
        ∃ lines, s'.entries.lookup "MANIFEST.md" = some (.file
          (manifestText dumps fixtureId runId captureCapability "failed" lines
            identity).toUTF8)) := by
  cases h : retained s.entries.entries with
  | error e =>
    have hreject : Runs (hashLines sha256) ⟨s, none⟩ (.error e) ⟨s, none⟩ :=
      runs_hashLines_rejected h (misses_none _ _)
    exact ⟨s, Runs.try_error hreject.bind_error (runs_pure ()), fun _ _ => rfl, .inl rfl⟩
  | ok names =>
    let lines := evidenceLines sha256 s.entries names
    let text := manifestText dumps fixtureId runId captureCapability "failed" lines identity
    let tmp := temps.name s "MANIFEST.md"
    have hlines : Runs (hashLines sha256) ⟨s, none⟩ (.ok lines) ⟨s, none⟩ :=
      runs_hashLines h (avoids_none _ _)
    have hmk := runs_mkstemp temps (w := ⟨s, none⟩) (misses_none _ (Point.mkstemp "MANIFEST.md"))
    have hwrite := runs_writeTemp tmp text.toUTF8
      (w := ⟨s.drawn tmp .empty, none⟩) (misses_none _ (Point.write "MANIFEST.md"))
      (misses_none _ _)
    have hread : ((s.drawn tmp .empty).store tmp text.toUTF8).read tmp = .ok text.toUTF8 :=
      read_store
    have hreplace := runs_replace (w := ⟨(s.drawn tmp .empty).store tmp text.toUTF8, none⟩)
      (misses_none _ _) (misses_none _ (Point.replaced "MANIFEST.md")) hread
    refine ⟨_, Runs.try_ok (hlines.bind (hmk.bind (Runs.try_ok (hwrite.bind hreplace)))), ?_, ?_⟩
    · intro name hname
      rw [lookup_store, if_neg hname, lookup_remove, lookup_store, lookup_drawn]
      by_cases heq : name = tmp
      · rw [if_pos heq, heq, temp_unused]
      · simp [heq]
    · exact .inr ⟨lines, by rw [lookup_store, if_pos rfl]⟩

/-- What a failed call keeps, whatever becomes of the checksums. -/
structure Kept (dumps : ι → String) (d : Dir) (a : Args ι) (d' : Dir) : Prop where
  manifest : d'.lookup "MANIFEST.md" = d.lookup "MANIFEST.md" ∨
    d.lookup "MANIFEST.md" = none ∧ ∃ lines, d'.lookup "MANIFEST.md" = some (.file
      (manifestText dumps a.fixtureId a.runId a.captureCapability "failed" lines none).toUTF8)
  payload : ∀ name, name ∉ evidenceExcluded → d'.lookup name = d.lookup name

/-- The directory is as before the call, but for a failed manifest where there was none. -/
structure Restored (dumps : ι → String) (d : Dir) (a : Args ι) (d' : Dir) : Prop
    extends Kept dumps d a d' where
  sums : d'.lookup "SHA256SUMS" = d.lookup "SHA256SUMS"

theorem Restored.refl (dumps : ι → String) (d : Dir) (a : Args ι) : Restored dumps d a d :=
  ⟨⟨.inl rfl, fun _ _ => rfl⟩, rfl⟩

theorem runs_rollback_nothing (a : Args ι) (prior : Option ByteArray × Option ByteArray)
    (h : s.committed = 0) :
    Runs (rollback sha256 dumps temps a prior) ⟨s, none⟩ (.ok ())
      ⟨s.staged.foldl Files.remove s, none⟩ := by
  refine runs_unlinkStaged.bind (Runs.bind (a := 0) (runs_onState ?_) (runs_pure ()))
  rw [committed_removeAll, h]

theorem runs_restoreBoth (a : Args ι) (s : Files)
    (prior : Option ByteArray × Option ByteArray) :
    ∃ s', Runs (restoreBoth sha256 dumps temps a 1 prior) ⟨s, none⟩ (.ok ()) ⟨s', none⟩ ∧
      s'.entries.lookup "SHA256SUMS" = prior.1.map .file ∧
      (s'.entries.lookup "MANIFEST.md" = prior.2.map .file ∨
        prior.2 = none ∧ ∃ lines, s'.entries.lookup "MANIFEST.md" = some (.file
          (manifestText dumps a.fixtureId a.runId a.captureCapability "failed" lines
            none).toUTF8)) ∧
      ∀ name, name ∉ evidenceExcluded → s'.entries.lookup name = s.entries.lookup name := by
  have hsumsPath : "SHA256SUMS" ∈ evidenceExcluded := by simp [evidenceExcluded]
  have hmanifestPath : "MANIFEST.md" ∈ evidenceExcluded := by simp [evidenceExcluded]
  obtain ⟨s₁, hrun₁, hfirst⟩ := runs_restoreMetadata temps s prior.1 hsumsPath
  obtain ⟨s₂, hrun₂, hsecond⟩ := runs_restoreMetadata temps s₁ prior.2 hmanifestPath
  have hsums : s₂.entries.lookup "SHA256SUMS" = prior.1.map .file := by
    rw [hsecond, if_neg (by decide), hfirst, if_pos rfl]
  have hmanifest : s₂.entries.lookup "MANIFEST.md" = prior.2.map .file := by
    rw [hsecond, if_pos rfl]
  have hother : ∀ name, name ∉ evidenceExcluded →
      s₂.entries.lookup name = s.entries.lookup name := by
    intro name hname
    simp only [evidenceExcluded, List.mem_cons, List.not_mem_nil, or_false, not_or] at hname
    rw [hsecond, if_neg hname.2, hfirst, if_neg hname.1]
  by_cases hprior : 1 = 1 ∧ prior.2.isNone
  · obtain ⟨s₃, hrun₃, hkeep, hfailed⟩ := runs_bestEffort sha256 dumps temps a.fixtureId
      a.runId a.captureCapability none s₂
    refine ⟨s₃, hrun₁.bind (hrun₂.bind ?_), ?_, ?_, ?_⟩
    · rw [if_pos hprior]
      exact hrun₃
    · rw [hkeep _ (by decide), hsums]
    · rw [← hmanifest]
      exact hfailed.imp id fun h => ⟨Option.isNone_iff_eq_none.mp hprior.2, h⟩
    · intro name hname
      have hne : name ≠ "MANIFEST.md" := by
        rintro rfl
        exact hname (by simp [evidenceExcluded])
      rw [hkeep name hne, hother name hname]
  · refine ⟨s₂, hrun₁.bind (hrun₂.bind ?_), hsums, .inl hmanifest, hother⟩
    rw [if_neg hprior]
    exact runs_pure ()

/-! ## The commit -/

/-- The points of the replacement of `path`. -/
def commitPoints (path : String) : List Point := [.replace path, .replaced path]

theorem runs_stagedAt {i : ℕ} (h : w.state.staged[i]? = some tmp) :
    Runs (stagedAt i) w (.ok tmp) w := by
  refine runs_onState ?_
  rw [h]

theorem runs_commitMetadata {i : ℕ} (hstaged : w.state.staged[i]? = some tmp)
    (hread : w.state.read tmp = .ok bytes) (h : w.Avoids (commitPoints path)) :
    Runs (commitMetadata i path) w (.ok ())
      { w with state := { (w.state.remove tmp).store path bytes with committed := i + 1 } } := by
  have hearly : w.Misses (.replace path) := h _ (by simp [commitPoints])
  have hlate : w.Misses (.replaced path) := h _ (by simp [commitPoints])
  exact (runs_stagedAt hstaged).bind ((runs_replace hearly hlate hread).bind (runs_onState rfl))

/-- A replacement that raises has had its effect or not, and the count stays. -/
theorem runs_commitMetadata_error {i : ℕ} (hstaged : s.staged[i]? = some tmp)
    (hread : s.read tmp = .ok bytes) (h : f.point ∈ commitPoints path) :
    Runs (commitMetadata i path) ⟨s, some f⟩ (.error f.raises)
      ⟨if f.point = .replaced path then (s.remove tmp).store path bytes else s, none⟩ := by
  refine (runs_stagedAt (w := ⟨s, some f⟩) hstaged).bind (Runs.bind_error ?_)
  rcases List.mem_cons.mp h with hearly | hlate
  · rw [if_neg (by simp [hearly])]
    exact (runs_point_fault hearly).bind_error
  · rw [List.mem_singleton] at hlate
    have hmiss : f.point ≠ .replace path := by simp [hlate]
    rw [if_pos hlate]
    refine (runs_point (misses_some hmiss)).bind (Runs.bind (a := ()) (runs_onState ?_)
      (runs_point_fault hlate))
    rw [hread]

section

variable {sums manifest : ByteArray} {first second : String}

theorem Staged.read_first (h : Staged d sums manifest first second s) :
    s.read first = .ok sums := by
  rw [Files.read, h.entries, if_neg h.ne.symm, if_pos rfl]

theorem Staged.read_second (h : Staged d sums manifest first second s) :
    s.read second = .ok manifest := by
  rw [Files.read, h.entries, if_pos rfl]

/-- Without its temporaries a staged directory shows at a name what it showed before. -/
theorem Staged.cleaned (h : Staged d sums manifest first second s) {t : Files}
    (hstaged : t.staged = [first, second])
    (hname : name ≠ first → name ≠ second → t.entries.lookup name = d.lookup name) :
    (t.staged.foldl Files.remove t).entries.lookup name = d.lookup name := by
  rw [lookup_removeAll, hstaged]
  by_cases hfirst : name = first
  · rw [if_pos (by simp [hfirst]), hfirst, h.unused.1]
  · by_cases hsecond : name = second
    · rw [if_pos (by simp [hsecond]), hsecond, h.unused.2]
    · rw [if_neg (by simp [hfirst, hsecond]), hname hfirst hsecond]

theorem Staged.lookup (h : Staged d sums manifest first second s) (hfirst : name ≠ first)
    (hsecond : name ≠ second) : s.entries.lookup name = d.lookup name := by
  rw [h.entries, if_neg hsecond, if_neg hfirst]

/-- The replacement of `SHA256SUMS` leaves the second temporary alone. -/
theorem Staged.read_committed (h : Staged d sums manifest first second s) {t : Files}
    (ht : t.entries = ((s.remove first).store "SHA256SUMS" sums).entries) :
    t.read second = .ok manifest := by
  have hmeta := h.metadata "SHA256SUMS" (by simp [evidenceExcluded])
  rw [Files.read, ht, lookup_store, if_neg hmeta.2.symm, lookup_remove, if_neg h.ne]
  exact h.read_second

/-- The first replacement raises: nothing is restored, whether or not it had its effect. -/
theorem runs_commitBoth_first (hst : Staged d sums manifest first second s)
    (hf : f.point ∈ commitPoints "SHA256SUMS") (prior : Option ByteArray × Option ByteArray) :
    ∃ s', Runs (commitBoth sha256 dumps temps a prior) ⟨s, some f⟩ (.error f.raises.wrapped)
        ⟨s', none⟩ ∧ Kept dumps d a s'.entries ∧
      s'.entries.lookup "SHA256SUMS" =
        if f.point = .replaced "SHA256SUMS" then some (.file sums) else d.lookup "SHA256SUMS" := by
  let s₀ : Files := { s with committed := 0 }
  let s₁ :=
    if f.point = .replaced "SHA256SUMS" then (s₀.remove first).store "SHA256SUMS" sums else s₀
  have hraise : Runs (commitMetadata 0 "SHA256SUMS") ⟨s₀, some f⟩ (.error f.raises) ⟨s₁, none⟩ :=
    runs_commitMetadata_error (congrArg (·[0]?) hst.staged) hst.read_first hf
  have hstaged : s₁.staged = [first, second] := by
    rw [← hst.staged]
    simp only [s₁]
    split <;> rfl
  have hcount : s₁.committed = 0 := by
    simp only [s₁]
    split <;> rfl
  have hback := runs_rollback_nothing sha256 dumps temps a prior hcount
  have hentries : ∀ name, name ≠ "SHA256SUMS" → name ≠ first → name ≠ second →
      s₁.entries.lookup name = d.lookup name := by
    intro name hname hfirst hsecond
    simp only [s₁]
    split
    · rw [lookup_store, if_neg hname, lookup_remove, if_neg hfirst]
      exact hst.lookup hfirst hsecond
    · exact hst.lookup hfirst hsecond
  refine ⟨_, Runs.bind (a := ()) (runs_onState rfl) (Runs.try_error hraise.bind_error
    (hback.bind (runs_throw _))), ⟨.inl ?_, ?_⟩, ?_⟩
  · exact hst.cleaned hstaged (hentries _ (by decide))
  · intro name hname
    refine hst.cleaned hstaged (hentries name ?_)
    rintro rfl
    exact hname (by simp [evidenceExcluded])
  · have hmeta := hst.metadata "SHA256SUMS" (by simp [evidenceExcluded])
    rw [lookup_removeAll, hstaged, if_neg (by simp [hmeta])]
    simp only [s₁]
    split
    · rw [lookup_store, if_pos rfl]
    · exact hst.lookup hmeta.1 hmeta.2

/-- The second replacement raises: both files come back, whether or not it had its effect. -/
theorem runs_commitBoth_second (hreg : Regular d) (hst : Staged d sums manifest first second s)
    (hf : f.point ∈ commitPoints "MANIFEST.md") :
    ∃ s', Runs (commitBoth sha256 dumps temps a (priorOf d)) ⟨s, some f⟩ (.error f.raises.wrapped)
        ⟨s', none⟩ ∧ Restored dumps d a s'.entries := by
  let s₀ : Files := { s with committed := 0 }
  let s₁ : Files := { (s₀.remove first).store "SHA256SUMS" sums with committed := 1 }
  let s₂ :=
    if f.point = .replaced "MANIFEST.md" then
      (s₁.remove second).store "MANIFEST.md" manifest
    else s₁
  -- the first replacement goes through
  have hmiss : f.point ∉ commitPoints "SHA256SUMS" := by
    intro h
    simp only [commitPoints, List.mem_cons, List.not_mem_nil, or_false] at h hf
    rcases h with h | h <;> simp [h] at hf
  have hcommit : Runs (commitMetadata 0 "SHA256SUMS") ⟨s₀, some f⟩ (.ok ()) ⟨s₁, some f⟩ :=
    runs_commitMetadata (w := ⟨s₀, some f⟩) (congrArg (·[0]?) hst.staged) hst.read_first
      (avoids_some hmiss)
  have hread : s₁.read second = .ok manifest := hst.read_committed rfl
  have hraise : Runs (commitMetadata 1 "MANIFEST.md") ⟨s₁, some f⟩ (.error f.raises) ⟨s₂, none⟩ :=
    runs_commitMetadata_error (congrArg (·[1]?) hst.staged) hread hf
  have hstaged : s₂.staged = [first, second] := by
    rw [← hst.staged]
    simp only [s₂]
    split <;> rfl
  -- one file is replaced as far as the rollback knows, so it restores both
  have hcount : s₂.committed = 1 := by
    simp only [s₂]
    split <;> rfl
  obtain ⟨s₃, hrestore, hsums, hmanifest, hother⟩ := runs_restoreBoth sha256 dumps temps
    a (s₂.staged.foldl Files.remove s₂) (priorOf d)
  have hback : Runs (rollback sha256 dumps temps a (priorOf d)) ⟨s₂, none⟩ (.ok ()) ⟨s₃, none⟩ := by
    refine runs_unlinkStaged.bind (Runs.bind (a := 1) (runs_onState ?_) hrestore)
    rw [committed_removeAll, hcount]
  refine ⟨s₃, Runs.bind (a := ()) (runs_onState rfl) (Runs.try_error (hcommit.bind hraise)
    (hback.bind (runs_throw _))), ⟨⟨?_, ?_⟩, ?_⟩⟩
  · rw [← map_bytesAt hreg]
    refine hmanifest.imp id fun h => ⟨?_, h.2⟩
    rw [Option.map_eq_none_iff]
    exact h.1
  · intro name hname
    rw [hother name hname]
    refine hst.cleaned hstaged fun hfirst hsecond => ?_
    simp only [evidenceExcluded, List.mem_cons, List.not_mem_nil, or_false, not_or] at hname
    -- a retained file has none of the four names
    have hentries : s₁.entries.lookup name = d.lookup name := by
      refine lookup_store.trans ?_
      rw [if_neg hname.1, lookup_remove, if_neg hfirst]
      exact hst.lookup hfirst hsecond
    simp only [s₂]
    split
    · rw [lookup_store, if_neg hname.2, lookup_remove, if_neg hsecond, hentries]
    · exact hentries
  · rw [hsums]
    exact map_bytesAt hreg

theorem runs_commitBoth (hst : Staged d sums manifest first second s)
    (prior : Option ByteArray × Option ByteArray) :
    ∃ s', Runs (commitBoth sha256 dumps temps a prior) ⟨s, none⟩ (.ok ()) ⟨s', none⟩ := by
  let s₀ : Files := { s with committed := 0 }
  let s₁ : Files := { (s₀.remove first).store "SHA256SUMS" sums with committed := 1 }
  have hcommit : Runs (commitMetadata 0 "SHA256SUMS") ⟨s₀, none⟩ (.ok ()) ⟨s₁, none⟩ :=
    runs_commitMetadata (w := ⟨s₀, none⟩) (congrArg (·[0]?) hst.staged) hst.read_first
      (avoids_none _ _)
  have hsecond := runs_commitMetadata (w := ⟨s₁, none⟩) (congrArg (·[1]?) hst.staged)
    (hst.read_committed rfl) (avoids_none _ (commitPoints "MANIFEST.md"))
  exact ⟨_, Runs.bind (a := ()) (runs_onState rfl) (hcommit.bind hsecond).try_ok⟩

end

/-! ## The whole call -/

/-- The new text of `SHA256SUMS`. -/
def sumsText (sha256 : ByteArray → String) (d : Dir) : String :=
  match retained d.entries with
  | .ok names => String.join ((evidenceLines sha256 d names).map (· ++ "\n"))
  | .error _ => ""

/-- The steps that a call makes where none of them fails. -/
def steps (d : Dir) (a : Args ι) : List Point :=
  if a.outcome ∈ runOutcomes then
    match retained d.entries with
    | .ok names =>
      linePoints names ++ (snapshotPoints ++ (stagePoints "SHA256SUMS" ++
        (stagePoints "MANIFEST.md" ++ (commitPoints "SHA256SUMS" ++ commitPoints "MANIFEST.md"))))
    | .error _ => [.scandir]
  else []

/-- A call with the failing step `f` raises, and leaves the directory as it was. -/
def Transactional (sha256 : ByteArray → String) (dumps : ι → String) (temps : TempNames) (d : Dir)
    (a : Args ι) (f : Failure Point Exc) : Prop :=
  (∃ e, (call sha256 dumps temps d a (some f)).1 = .error e) ∧
    Restored dumps d a (call sha256 dumps temps d a (some f)).2.state.entries

/-- A snapshot does not report an absent file, and the replacement of `SHA256SUMS` does not raise
after its effect, unless the file was as it is now. -/
def Recoverable (sha256 : ByteArray → String) (d : Dir) (f : Failure Point Exc) : Prop :=
  (f.point ∈ snapshotPoints → f.raises.kind ≠ .notFound) ∧
    (f.point = .replaced "SHA256SUMS" →
      d.lookup "SHA256SUMS" = some (.file (sumsText sha256 d).toUTF8))

variable {sha256} in
theorem recoverable_of (hsnapshot : f.point ∉ snapshotPoints)
    (hlate : f.point ≠ .replaced "SHA256SUMS") : Recoverable sha256 d f :=
  ⟨fun h => absurd h hsnapshot, fun h => absurd h hlate⟩

variable {sha256} in
theorem recoverable_of_stage (h : f.point ∈ stagePoints path) : Recoverable sha256 d f := by
  simp only [stagePoints, List.mem_cons, List.not_mem_nil, or_false] at h
  apply recoverable_of
  · rcases h with hf | hf | hf <;> simp [snapshotPoints, hf]
  · rcases h with hf | hf | hf <;> simp [hf]

/-- The world at the start of a call. -/
def start (d : Dir) (f : Option (Failure Point Exc)) : World Files Point Exc := ⟨⟨d, 0, [], 0⟩, f⟩

variable {sha256 dumps temps} in
theorem transactional_of_runs {e : Exc} {w' : World Files Point Exc}
    (h : Runs (finalizeEvidence sha256 dumps temps a) (start d (some f)) (.error e) w')
    (hr : Restored dumps d a w'.state.entries) : Transactional sha256 dumps temps d a f := by
  have hcall : call sha256 dumps temps d a (some f) = (.error e, w') := h
  rw [Transactional, hcall]
  exact ⟨⟨e, rfl⟩, hr⟩

variable {sha256 dumps temps} in
theorem runs_finalizeEvidence {lines : List String} {r : Except Exc String}
    {w' w'' : World Files Point Exc} (ho : a.outcome ∈ runOutcomes)
    (hl : Runs (hashLines sha256) w (.ok lines) w')
    (hr : Runs (finalizeLines sha256 dumps temps a lines) w' r w'') :
    Runs (finalizeEvidence sha256 dumps temps a) w r w'' := by
  rw [finalizeEvidence, if_neg (not_not.mpr ho)]
  exact hl.try_ok.bind hr

theorem runs_finalizeEvidence_error {e : Exc} {w' : World Files Point Exc}
    (ho : a.outcome ∈ runOutcomes) (hl : Runs (hashLines sha256) w (.error e) w') :
    ∃ e', Runs (finalizeEvidence sha256 dumps temps a) w (.error e') w' := by
  refine ⟨if e.kind = .evidence then e else e.wrapped, ?_⟩
  rw [finalizeEvidence, if_neg (not_not.mpr ho)]
  refine Runs.bind_error (hl.try_error ?_)
  split <;> exact runs_throw _

section

variable {names : List String}

variable {sha256 dumps temps}

theorem sumsText_of_retained (h : retained d.entries = .ok names) :
    sumsText sha256 d = String.join ((evidenceLines sha256 d names).map (· ++ "\n")) := by
  rw [sumsText, h]

/-- The manifest that a successful call writes. -/
def newManifest (sha256 : ByteArray → String) (dumps : ι → String) (d : Dir) (a : Args ι)
    (names : List String) : String :=
  manifestText dumps a.fixtureId a.runId a.captureCapability a.outcome
    (evidenceLines sha256 d names) a.artifactIdentity

theorem runs_of_lines (ho : a.outcome ∈ runOutcomes) (h : retained d.entries = .ok names)
    {fault : Option (Failure Point Exc)} (hmiss : (start d fault).Avoids (linePoints names))
    {r : Except Exc String} {w' : World Files Point Exc}
    (hr : Runs (do
      let prior ← snapshotPrior
      stageBoth temps (sumsText sha256 d) (newManifest sha256 dumps d a names)
      commitBoth sha256 dumps temps a prior
      return "MANIFEST.md") (start d fault) r w') :
    Runs (finalizeEvidence sha256 dumps temps a) (start d fault) r w' := by
  rw [sumsText_of_retained h] at hr
  exact runs_finalizeEvidence ho (runs_hashLines h hmiss) hr

theorem transactional_line (ho : a.outcome ∈ runOutcomes) (h : retained d.entries = .ok names)
    (hf : f.point ∈ linePoints names) : Transactional sha256 dumps temps d a f := by
  obtain ⟨e, hrun⟩ := runs_finalizeEvidence_error sha256 dumps temps
    (w := start d (some f)) ho (runs_hashLines_error h hf)
  exact transactional_of_runs hrun (.refl dumps d a)

theorem transactional_snapshot (ho : a.outcome ∈ runOutcomes) (h : retained d.entries = .ok names)
    (hf : f.point ∈ snapshotPoints) :
    Transactional sha256 dumps temps d a f ↔ f.raises.kind ≠ .notFound := by
  have hmiss : (start d (some f)).Avoids (linePoints names) := by
    apply avoids_some
    simp only [snapshotPoints, List.mem_cons, List.not_mem_nil, or_false] at hf
    rcases hf with hf | hf <;> simp [linePoints, hf]
  have hsnapshot := runs_snapshotPrior_fault (s := (start d (some f)).state)
    (regular_of_retained h) hf
  constructor
  · rintro ⟨⟨e, herror⟩, -⟩ hkind
    obtain ⟨prior, hprior⟩ := hsnapshot.2 hkind
    obtain ⟨first, second, s₁, hstage, hst⟩ := runs_stageBoth temps
      (sumsText sha256 d) (newManifest sha256 dumps d a names)
      (w := ⟨(start d (some f)).state, none⟩) (avoids_none _ _) (avoids_none _ _)
    obtain ⟨s₂, hcommit⟩ := runs_commitBoth sha256 dumps temps (a := a) hst prior
    have hrun := runs_of_lines ho h hmiss
      (hprior.bind (hstage.bind (hcommit.bind (runs_pure "MANIFEST.md"))))
    have hcall : call sha256 dumps temps d a (some f) = (.ok "MANIFEST.md", ⟨s₂, none⟩) := hrun
    rw [hcall] at herror
    cases herror
  · intro hkind
    obtain ⟨e, hraise⟩ := hsnapshot.1 hkind
    exact transactional_of_runs (runs_of_lines ho h hmiss hraise.bind_error) (.refl dumps d a)

theorem runs_of_snapshots (ho : a.outcome ∈ runOutcomes) (h : retained d.entries = .ok names)
    (hlines : f.point ∉ linePoints names) (hsnapshots : f.point ∉ snapshotPoints)
    {r : Except Exc String} {w' : World Files Point Exc}
    (hr : Runs (do
      stageBoth temps (sumsText sha256 d) (newManifest sha256 dumps d a names)
      commitBoth sha256 dumps temps a (priorOf d)
      return "MANIFEST.md") (start d (some f)) r w') :
    Runs (finalizeEvidence sha256 dumps temps a) (start d (some f)) r w' :=
  runs_of_lines ho h (avoids_some hlines)
    ((runs_snapshotPrior (regular_of_retained h) (avoids_some hsnapshots)).bind hr)

theorem transactional_stage (ho : a.outcome ∈ runOutcomes) (h : retained d.entries = .ok names)
    (hf : f.point ∈ stagePoints "SHA256SUMS" ∨ f.point ∈ stagePoints "MANIFEST.md") :
    Transactional sha256 dumps temps d a f := by
  obtain ⟨s', hraise, hentries⟩ := runs_stageBoth_error temps
    (s := (start d (some f)).state) (sumsText sha256 d) (newManifest sha256 dumps d a names) hf
  simp only [stagePoints, List.mem_cons, List.not_mem_nil, or_false] at hf
  have hlines : f.point ∉ linePoints names := by
    rcases hf with (hf | hf | hf) | (hf | hf | hf) <;> simp [linePoints, hf]
  have hsnapshots : f.point ∉ snapshotPoints := by
    rcases hf with (hf | hf | hf) | (hf | hf | hf) <;> simp [snapshotPoints, hf]
  refine transactional_of_runs (runs_of_snapshots ho h hlines hsnapshots hraise.bind_error) ?_
  change Restored dumps d a s'.entries
  rw [hentries]
  exact .refl dumps d a

variable (sha256 dumps temps) in
theorem runs_of_stage (ho : a.outcome ∈ runOutcomes) (h : retained d.entries = .ok names)
    (hf : f.point ∈ commitPoints "SHA256SUMS" ∨ f.point ∈ commitPoints "MANIFEST.md") :
    ∃ first second s, Staged d (sumsText sha256 d).toUTF8
        (newManifest sha256 dumps d a names).toUTF8 first second s ∧
      ∀ {e : Exc} {w' : World Files Point Exc},
        Runs (commitBoth sha256 dumps temps a (priorOf d)) ⟨s, some f⟩ (.error e) w' →
          Runs (finalizeEvidence sha256 dumps temps a) (start d (some f)) (.error e) w' := by
  simp only [commitPoints, List.mem_cons, List.not_mem_nil, or_false] at hf
  have hlines : f.point ∉ linePoints names := by
    rcases hf with (hf | hf) | (hf | hf) <;> simp [linePoints, hf]
  have hsnapshots : f.point ∉ snapshotPoints := by
    rcases hf with (hf | hf) | (hf | hf) <;> simp [snapshotPoints, hf]
  have hsums : f.point ∉ stagePoints "SHA256SUMS" := by
    rcases hf with (hf | hf) | (hf | hf) <;> simp [stagePoints, hf]
  have hmanifest : f.point ∉ stagePoints "MANIFEST.md" := by
    rcases hf with (hf | hf) | (hf | hf) <;> simp [stagePoints, hf]
  obtain ⟨first, second, s, hstage, hst⟩ := runs_stageBoth temps
    (sumsText sha256 d) (newManifest sha256 dumps d a names) (w := start d (some f))
    (avoids_some hsums) (avoids_some hmanifest)
  refine ⟨first, second, s, hst, fun hcommit => ?_⟩
  exact runs_of_snapshots ho h hlines hsnapshots (hstage.bind hcommit.bind_error)

theorem transactional_sums (ho : a.outcome ∈ runOutcomes) (h : retained d.entries = .ok names)
    (hf : f.point ∈ commitPoints "SHA256SUMS") :
    Transactional sha256 dumps temps d a f ↔ (f.point = .replaced "SHA256SUMS" →
      d.lookup "SHA256SUMS" = some (.file (sumsText sha256 d).toUTF8)) := by
  obtain ⟨first, second, s, hst, hrun⟩ := runs_of_stage sha256 dumps temps ho h (.inl hf)
  obtain ⟨s', hcommit, hkept, hsums⟩ :=
    runs_commitBoth_first sha256 dumps temps (a := a) hst hf (priorOf d)
  constructor
  · rintro ⟨-, hrestored⟩ hlate
    have hcall : call sha256 dumps temps d a (some f) = (.error f.raises.wrapped, ⟨s', none⟩) :=
      hrun hcommit
    rw [hcall] at hrestored
    rw [if_pos hlate] at hsums
    exact hrestored.sums.symm.trans hsums
  · intro hsame
    refine transactional_of_runs (hrun hcommit) ⟨hkept, hsums.trans ?_⟩
    split
    · next hlate => exact (hsame hlate).symm
    · rfl

theorem transactional_manifest (ho : a.outcome ∈ runOutcomes)
    (h : retained d.entries = .ok names) (hf : f.point ∈ commitPoints "MANIFEST.md") :
    Transactional sha256 dumps temps d a f := by
  obtain ⟨first, second, s, hst, hrun⟩ := runs_of_stage sha256 dumps temps ho h (.inr hf)
  obtain ⟨s', hcommit, hrestored⟩ := runs_commitBoth_second sha256 dumps temps (a := a)
    (regular_of_retained h) hst hf
  exact transactional_of_runs (hrun hcommit) hrestored

end

/-- A call that meets its failing step is a transaction exactly for the recoverable ones. -/
theorem transactional_iff (d : Dir) (a : Args ι) (f : Failure Point Exc) (h : f.point ∈ steps d a) :
    Transactional sha256 dumps temps d a f ↔ Recoverable sha256 d f := by
  rw [steps] at h
  split at h
  · next ho =>
    split at h
    · next names hret =>
      simp only [List.mem_append] at h
      rcases h with hline | hsnapshot | hsums | hmanifest | hcommit | hcommit
      · have hother : f.point ∉ snapshotPoints ∧ f.point ≠ .replaced "SHA256SUMS" := by
          simp only [linePoints, List.mem_cons, List.mem_map] at hline
          rcases hline with hf | ⟨name, -, hf⟩
          · simp [snapshotPoints, hf]
          · simp [snapshotPoints, ← hf]
        exact iff_of_true (transactional_line ho hret hline) (recoverable_of hother.1 hother.2)
      · have hlate : f.point ≠ .replaced "SHA256SUMS" := by
          intro hf
          simp [snapshotPoints, hf] at hsnapshot
        rw [transactional_snapshot ho hret hsnapshot]
        exact ⟨fun hkind => ⟨fun _ => hkind, fun hf => absurd hf hlate⟩, fun hr => hr.1 hsnapshot⟩
      · exact iff_of_true (transactional_stage ho hret (.inl hsums))
          (recoverable_of_stage hsums)
      · exact iff_of_true (transactional_stage ho hret (.inr hmanifest))
          (recoverable_of_stage hmanifest)
      · have hsnapshot : f.point ∉ snapshotPoints := by
          simp only [commitPoints, List.mem_cons, List.not_mem_nil, or_false] at hcommit
          rcases hcommit with hf | hf <;> simp [snapshotPoints, hf]
        rw [transactional_sums ho hret hcommit]
        exact ⟨fun hsame => ⟨fun hf => absurd hf hsnapshot, hsame⟩, fun hr => hr.2⟩
      · have hother : f.point ∉ snapshotPoints ∧ f.point ≠ .replaced "SHA256SUMS" := by
          simp only [commitPoints, List.mem_cons, List.not_mem_nil, or_false] at hcommit
          rcases hcommit with hf | hf <;> simp [snapshotPoints, hf]
        exact iff_of_true (transactional_manifest ho hret hcommit)
          (recoverable_of hother.1 hother.2)
    · -- the enumeration rejects an entry, so its listing is the only step
      have hscan : f.point = .scandir := List.mem_singleton.mp h
      have hraise : Runs (hashLines sha256) (start d (some f)) (.error f.raises)
          (start d none) := ((runs_point_fault hscan).bind_error).bind_error
      obtain ⟨e, hrun⟩ := runs_finalizeEvidence_error sha256 dumps temps ho hraise
      exact iff_of_true (transactional_of_runs hrun (.refl dumps d a))
        (recoverable_of (by simp [snapshotPoints, hscan]) (by simp [hscan]))
  · cases h

/-- A call with an unknown outcome or an irregular entry needs no failing step to raise. -/
theorem finalize_rejected
    (h : a.outcome ∉ runOutcomes ∨ ∃ e, retained d.entries = .error e) :
    ∃ e, call sha256 dumps temps d a none = (.error e, start d none) := by
  by_cases ho : a.outcome ∈ runOutcomes
  · obtain ⟨e, hreject⟩ := h.resolve_left (not_not.mpr ho)
    have hraise : Runs (hashLines sha256) (start d none) (.error e) (start d none) :=
      runs_hashLines_rejected hreject (misses_none _ _)
    obtain ⟨e', hrun⟩ := runs_finalizeEvidence_error sha256 dumps temps ho hraise
    exact ⟨e', hrun⟩
  · refine ⟨evidenceError ("unknown evidence outcome " ++ a.outcome), ?_⟩
    have hrun : Runs (finalizeEvidence sha256 dumps temps a) (start d none)
        (.error (evidenceError ("unknown evidence outcome " ++ a.outcome))) (start d none) := by
      rw [finalizeEvidence, if_pos ho]
      exact runs_throw _
    exact hrun

/-- Names longer than those of the directory. -/
def longNames : TempNames where
  random _ d _ := String.ofList (List.replicate ((d.keys.map String.length).sum + 1) 'x')
  unused := by
    intro n d p h
    have hlen := List.single_le_sum (l := d.keys.map String.length) (fun _ _ => Nat.zero_le _) _
      (List.mem_map_of_mem h)
    simp at hlen
    omega

/-- A directory with the metadata of an earlier run. -/
def oldMetadata : Dir :=
  ((∅ : Dir).insert "SHA256SUMS" (.file "old".toUTF8)).insert "MANIFEST.md" (.file "old".toUTF8)

def passedRun : Args Unit := ⟨"fixture", "run", "none", "passed", none⟩

theorem retained_oldMetadata : retained oldMetadata.entries = .ok [] := rfl

theorem mem_steps_oldMetadata {i : Point}
    (h : i ∈ commitPoints "SHA256SUMS" ∨ i ∈ commitPoints "MANIFEST.md") :
    i ∈ steps oldMetadata passedRun := by
  rw [steps, if_pos (by simp [passedRun, runOutcomes]), retained_oldMetadata]
  simp only [List.mem_append]
  tauto

/-- An interrupt right after the manifest has been replaced is rolled back. -/
theorem transactional_interrupted :
    Transactional (fun _ => "") (fun _ => "") longNames oldMetadata passedRun
      ⟨.replaced "MANIFEST.md", ⟨.interrupt, ""⟩⟩ :=
  (transactional_iff _ _ _ _ _ _ (mem_steps_oldMetadata (.inr (by simp [commitPoints])))).mpr
    (recoverable_of (by simp [snapshotPoints]) (by simp))

/-- The replacement of `SHA256SUMS` raises after its effect: the new checksums stay beside the old
manifest. -/
theorem sums_stay :
    Point.replaced "SHA256SUMS" ∈ steps oldMetadata passedRun ∧
      ¬ Transactional (fun _ => "") (fun _ => "") longNames oldMetadata passedRun
        ⟨.replaced "SHA256SUMS", ⟨.exception, ""⟩⟩ := by
  refine ⟨mem_steps_oldMetadata (.inl (by simp [commitPoints])), fun h => ?_⟩
  have hsame := (transactional_sums (by simp [passedRun, runOutcomes]) retained_oldMetadata
    (by simp [commitPoints])).mp h rfl
  have htext : sumsText (fun _ => "") oldMetadata = "" := by
    rw [sumsText_of_retained retained_oldMetadata]
    simp [evidenceLines]
  rw [htext] at hsame
  have hbytes : "old".toUTF8 = "".toUTF8 := by
    injection hsame with hnode
    injection hnode
  exact absurd hbytes (by decide)

end Evidence

end LeAudioReceiver
