import LeAudioReceiver.Evidence.Basic

/-!
# The steps of a finalization

How the helpers of `finalize_evidence` run, in a world whose fault they do not meet and in one whose
fault is at one of their points.

* `runs_stageMetadata_error` : a staging that raises leaves the directory as it was.
* `runs_hashLines` and `runs_hashLines_error` : the hash lines of a directory of regular files.
* `runs_snapshotPrior_fault` : a snapshot that raises fails the call, unless it reports that the
  file is absent.
-/

namespace LeAudioReceiver

namespace Evidence

open Fault

variable {ι : Type} {sha256 : ByteArray → String} {dumps : ι → String} {temps : TempNames}
variable {w : World Files Point Exc} {s : Files} {d : Dir} {f : Failure Point Exc}
variable {path name tmp : String} {bytes bytes' : ByteArray}

/-! ## The directory -/

theorem lookup_store : (s.store tmp bytes).entries.lookup name =
    if name = tmp then some (.file bytes) else s.entries.lookup name := by
  split
  · next h => rw [h]; exact AList.lookup_insert _
  · next h => exact AList.lookup_insert_ne h

theorem lookup_remove : (s.remove tmp).entries.lookup name =
    if name = tmp then none else s.entries.lookup name := by
  split
  · next h => rw [h]; exact AList.lookup_erase _ _
  · next h => exact AList.lookup_erase_ne h

theorem store_store : (s.store tmp bytes).store tmp bytes' = s.store tmp bytes' := by
  rw [Files.store, Files.store, Files.store, AList.insert_insert]

theorem remove_store (h : tmp ∉ s.entries) : (s.store tmp bytes).remove tmp = s := by
  have : (s.entries.insert tmp (.file bytes)).erase tmp = s.entries := by
    apply AList.ext
    change List.kerase tmp (s.entries.insert tmp (.file bytes)).entries = _
    rw [AList.entries_insert_of_notMem h]
    exact List.kerase_cons_eq rfl
  rw [Files.remove, Files.store, this]

theorem read_store : (s.store tmp bytes).read tmp = .ok bytes := by
  rw [Files.read, lookup_store, if_pos rfl]

/-- A temporary starts with a dot, and the metadata files do not. -/
theorem temp_ne (h : name ∈ evidenceExcluded) : name ≠ temps.name s path := by
  intro heq
  rw [TempNames.name, tempPrefix, String.append_assoc, String.append_assoc] at heq
  have hhead := congrArg (fun n => n.toList.head?) heq
  rcases List.mem_cons.mp h with rfl | h
  · simp at hhead
  · rcases List.mem_singleton.mp h with rfl
    simp at hhead

theorem name_unused (temps : TempNames) (path : String) (s : Files) :
    temps.name s path ∉ s.entries :=
  temps.unused _ _ _

theorem temp_unused (temps : TempNames) (path : String) (s : Files) :
    s.entries.lookup (temps.name s path) = none :=
  AList.lookup_eq_none.mpr (name_unused temps path s)

/-- The directory with one more temporary. -/
def Files.drawn (s : Files) (tmp : String) (bytes : ByteArray) : Files :=
  { s.store tmp bytes with temps := s.temps + 1 }

/-! ## The steps -/

theorem runs_mkstemp (temps : TempNames) (h : w.Misses (.mkstemp path)) :
    Runs (mkstemp temps path) w (.ok (temps.name w.state path))
      { w with state := w.state.drawn (temps.name w.state path) .empty } :=
  (runs_point h).bind (runs_onState rfl)

theorem runs_writeTemp (tmp : String) (bytes : ByteArray) (hwrite : w.Misses (.write path))
    (hsync : w.Misses (.fsync path)) :
    Runs (writeTemp path tmp bytes) w (.ok ()) { w with state := w.state.store tmp bytes } :=
  (runs_point hwrite).bind ((runs_onState rfl).bind (runs_point hsync))

theorem runs_replace (h : w.Misses (.replace path)) (hlate : w.Misses (.replaced path))
    (hread : w.state.read tmp = .ok bytes) :
    Runs (replace tmp path) w (.ok ())
      { w with state := (w.state.remove tmp).store path bytes } := by
  refine (runs_point h).bind (Runs.bind (a := ()) (runs_onState ?_) (runs_point hlate))
  rw [hread]

theorem drawn_store : (s.drawn tmp bytes).store tmp bytes' = s.drawn tmp bytes' := by
  change { (s.store tmp bytes).store tmp bytes' with temps := s.temps + 1 } = _
  rw [store_store, Files.drawn]

theorem drawn_remove (h : tmp ∉ s.entries) :
    (s.drawn tmp bytes).remove tmp = { s with temps := s.temps + 1 } := by
  change { (s.store tmp bytes).remove tmp with temps := s.temps + 1 } = _
  rw [remove_store h]

/-- The points of the staging of `path`. -/
def stagePoints (path : String) : List Point := [.mkstemp path, .write path, .fsync path]

theorem runs_stageMetadata (temps : TempNames) (bytes : ByteArray)
    (h : w.Avoids (stagePoints path)) :
    Runs (stageMetadata temps path bytes) w (.ok (temps.name w.state path))
      { w with state := w.state.drawn (temps.name w.state path) bytes } := by
  have hmk : w.Misses (.mkstemp path) := h _ (by simp [stagePoints])
  have hwrite : w.Misses (.write path) := h _ (by simp [stagePoints])
  have hsync : w.Misses (.fsync path) := h _ (by simp [stagePoints])
  have hw : Runs (writeTemp path (temps.name w.state path) bytes)
      { w with state := w.state.drawn (temps.name w.state path) .empty } (.ok ())
      { w with state := w.state.drawn (temps.name w.state path) bytes } := by
    have hstore : (w.state.drawn (temps.name w.state path) .empty).store (temps.name w.state path)
        bytes = w.state.drawn (temps.name w.state path) bytes := drawn_store
    rw [← hstore]
    exact runs_writeTemp _ _
      (w := { w with state := w.state.drawn (temps.name w.state path) .empty })
      hwrite hsync
  exact (runs_mkstemp temps hmk).bind (hw.try_ok.bind (runs_pure _))

/-- A step of the staging that raises leaves the directory as it was. -/
theorem runs_stageMetadata_error (temps : TempNames) (s : Files) (bytes : ByteArray)
    (h : f.point ∈ stagePoints path) :
    ∃ n, Runs (stageMetadata temps path bytes) ⟨s, some f⟩ (.error f.raises)
      ⟨{ s with temps := n }, none⟩ := by
  rcases List.mem_cons.mp h with h | h
  · have hmk : Runs (mkstemp temps path) ⟨s, some f⟩ (.error f.raises) ⟨s, none⟩ :=
      (runs_point_fault h).bind_error
    exact ⟨s.temps, hmk.bind_error⟩
  · refine ⟨s.temps + 1, ?_⟩
    have hmk : Runs (mkstemp temps path) ⟨s, some f⟩ (.ok (temps.name s path))
        ⟨s.drawn (temps.name s path) .empty, some f⟩ := by
      refine runs_mkstemp temps (w := ⟨s, some f⟩) (misses_some fun hp => ?_)
      simp [hp] at h
    -- what the temporary holds does not matter, as the handler removes it
    have hw : ∃ bytes', Runs (writeTemp path (temps.name s path) bytes)
        ⟨s.drawn (temps.name s path) .empty, some f⟩ (.error f.raises)
        ⟨s.drawn (temps.name s path) bytes', none⟩ := by
      rcases List.mem_cons.mp h with h | h
      · exact ⟨.empty, (runs_point_fault h).bind_error⟩
      · rw [List.mem_singleton] at h
        refine ⟨bytes, ?_⟩
        have hpoint : f.point ≠ .write path := by simp [h]
        refine (runs_point (misses_some hpoint)).bind (Runs.bind (a := ()) (runs_onState rfl) ?_)
        rw [drawn_store]
        exact runs_point_fault h
    obtain ⟨bytes', hw⟩ := hw
    have hremove : Runs (unlinkIfExists (temps.name s path))
        ⟨s.drawn (temps.name s path) bytes', none⟩ (.ok ())
        ⟨{ s with temps := s.temps + 1 }, none⟩ := by
      rw [← drawn_remove (name_unused temps path s)]
      exact runs_onState rfl
    exact hmk.bind (Runs.bind_error (hw.try_error (hremove.bind (runs_throw _))))

theorem lookup_removeAll (l : List String) (s : Files) :
    (l.foldl Files.remove s).entries.lookup name =
      if name ∈ l then none else s.entries.lookup name := by
  induction l generalizing s with
  | nil => simp
  | cons tmp l ih =>
    rw [List.foldl_cons, ih, lookup_remove]
    by_cases htmp : name = tmp
    · simp [htmp]
    · simp [htmp]

theorem committed_removeAll (l : List String) (s : Files) :
    (l.foldl Files.remove s).committed = s.committed := by
  induction l generalizing s with
  | nil => rfl
  | cons tmp l ih => exact ih _

theorem runs_unlinkIfExists :
    Runs (unlinkIfExists path) w (.ok ()) { w with state := w.state.remove path } :=
  runs_onState rfl

theorem runs_unlinkStaged :
    Runs unlinkStaged w (.ok ()) { w with state := w.state.staged.foldl Files.remove w.state } :=
  Runs.bind (a := w.state.staged) (runs_onState rfl)
    (Runs.forM (fun _ _ => runs_onState rfl) w.state.staged)

/-! ## Snapshots and hash lines -/

/-- The content of a file of the directory. -/
def bytesAt (d : Dir) (path : String) : Option ByteArray :=
  match d.lookup path with
  | some (.file bytes) => some bytes
  | _ => none

/-- Every entry is a regular file. -/
def Regular (d : Dir) : Prop := ∀ name node, d.lookup name = some node → ∃ bytes, node = .file bytes

theorem map_bytesAt (h : Regular d) : (bytesAt d path).map .file = d.lookup path := by
  rw [bytesAt]
  cases hl : d.lookup path with
  | none => rfl
  | some node =>
    obtain ⟨bytes, rfl⟩ := h path node hl
    rfl

theorem runs_snapshotBytes (hreg : Regular w.state.entries) (h : w.Misses (.snapshot path)) :
    Runs (snapshotBytes path) w (.ok (bytesAt w.state.entries path)) w := by
  rw [bytesAt]
  cases hl : w.state.entries.lookup path with
  | none =>
    have hread : w.state.read path = .error ⟨.notFound, "no such file: " ++ path⟩ := by
      rw [Files.read, hl]
    have hraise : (w.state.read path).map (fun bytes => (some bytes, w.state)) =
        .error ⟨.notFound, "no such file: " ++ path⟩ := by
      rw [hread]
      rfl
    exact Runs.try_error ((runs_point h).bind (runs_onState_error hraise)) (runs_pure none)
  | some node =>
    obtain ⟨bytes, rfl⟩ := hreg path node hl
    have hread : w.state.read path = .ok bytes := by
      rw [Files.read, hl]
    refine Runs.try_ok ((runs_point h).bind (runs_onState ?_))
    rw [hread]
    rfl

theorem runs_snapshotBytes_error (h : f.point = .snapshot path)
    (hkind : f.raises.kind ≠ .notFound) :
    Runs (snapshotBytes path) ⟨s, some f⟩ (.error f.raises) ⟨s, none⟩ := by
  refine Runs.try_error (runs_point_fault h).bind_error ?_
  rw [if_neg hkind]
  exact runs_throw _

theorem runs_snapshotBytes_notFound (h : f.point = .snapshot path)
    (hkind : f.raises.kind = .notFound) :
    Runs (snapshotBytes path) ⟨s, some f⟩ (.ok none) ⟨s, none⟩ := by
  refine Runs.try_error (runs_point_fault h).bind_error ?_
  rw [if_pos hkind]
  exact runs_pure none

/-- The points of the snapshots. -/
def snapshotPoints : List Point := [.snapshot "SHA256SUMS", .snapshot "MANIFEST.md"]

/-- What the snapshots of a directory give. -/
def priorOf (d : Dir) : Option ByteArray × Option ByteArray :=
  (bytesAt d "SHA256SUMS", bytesAt d "MANIFEST.md")

theorem runs_snapshotPrior (hreg : Regular w.state.entries) (h : w.Avoids snapshotPoints) :
    Runs snapshotPrior w (.ok (priorOf w.state.entries)) w := by
  have hsums : w.Misses (.snapshot "SHA256SUMS") := h _ (by simp [snapshotPoints])
  have hmanifest : w.Misses (.snapshot "MANIFEST.md") := h _ (by simp [snapshotPoints])
  exact Runs.try_ok ((runs_snapshotBytes hreg hsums).bind
    ((runs_snapshotBytes hreg hmanifest).bind (runs_pure _)))

/-- A snapshot that raises fails the call, unless it reports an absent file. -/
theorem runs_snapshotPrior_fault (hreg : Regular s.entries) (h : f.point ∈ snapshotPoints) :
    (f.raises.kind ≠ .notFound → ∃ e, Runs snapshotPrior ⟨s, some f⟩ (.error e) ⟨s, none⟩) ∧
    (f.raises.kind = .notFound →
      ∃ prior, Runs snapshotPrior ⟨s, some f⟩ (.ok prior) ⟨s, none⟩) := by
  rcases List.mem_cons.mp h with hsums | hmanifest
  · constructor
    · intro hkind
      have hraise := runs_snapshotBytes_error (s := s) hsums hkind
      exact ⟨f.raises.wrapped, Runs.try_error hraise.bind_error (runs_throw _)⟩
    · intro hkind
      have hsecond : Runs (snapshotBytes "MANIFEST.md") ⟨s, none⟩
          (.ok (bytesAt s.entries "MANIFEST.md")) ⟨s, none⟩ :=
        runs_snapshotBytes hreg (misses_none s _)
      exact ⟨(none, bytesAt s.entries "MANIFEST.md"), Runs.try_ok
        ((runs_snapshotBytes_notFound hsums hkind).bind (hsecond.bind (runs_pure _)))⟩
  · rw [List.mem_singleton] at hmanifest
    have hmiss : f.point ≠ .snapshot "SHA256SUMS" := by simp [hmanifest]
    have hfirst := runs_snapshotBytes (w := ⟨s, some f⟩) hreg (misses_some hmiss)
    constructor
    · intro hkind
      have hraise := runs_snapshotBytes_error (s := s) hmanifest hkind
      exact ⟨f.raises.wrapped, Runs.try_error (hfirst.bind hraise.bind_error) (runs_throw _)⟩
    · intro hkind
      exact ⟨(bytesAt s.entries "SHA256SUMS", none), Runs.try_ok
        (hfirst.bind ((runs_snapshotBytes_notFound hmanifest hkind).bind (runs_pure _)))⟩

/-- The line of one file in `SHA256SUMS`. -/
def hashLine (sha256 : ByteArray → String) (d : Dir) (name : String) : String :=
  match bytesAt d name with
  | some bytes => sha256 bytes ++ "  " ++ name
  | none => ""

/-- The lines of the files that the enumeration retains. -/
def evidenceLines (sha256 : ByteArray → String) (d : Dir) (names : List String) : List String :=
  (names.mergeSort (· ≤ ·)).map (hashLine sha256 d)

theorem retained_file {l : List (Sigma fun _ : String => Node)} {names : List String}
    (h : retained (⟨name, .file bytes⟩ :: l) = .ok names) :
    ∃ names', retained l = .ok names' ∧ (names = names' ∨ names = name :: names') := by
  rw [retained] at h
  split at h
  · exact ⟨names, h, .inl rfl⟩
  · split at h
    · cases h
    · cases hl : retained l with
      | error e =>
        rw [hl] at h
        cases h
      | ok names' =>
        rw [hl] at h
        cases h
        exact ⟨names', rfl, .inr rfl⟩

theorem retained_regular {l : List (Sigma fun _ : String => Node)} {names : List String}
    (h : retained l = .ok names) : ∀ e ∈ l, ∃ bytes, e.2 = .file bytes := by
  induction l generalizing names with
  | nil => simp
  | cons e l ih =>
    obtain ⟨name, _ | _ | _⟩ := e
    · obtain ⟨names', hl, -⟩ := retained_file h
      intro e he
      rcases List.mem_cons.mp he with rfl | he
      · exact ⟨_, rfl⟩
      · exact ih hl e he
    · cases h
    · cases h

theorem retained_mem {l : List (Sigma fun _ : String => Node)} {names : List String}
    (h : retained l = .ok names) : ∀ name ∈ names, name ∈ l.map Sigma.fst := by
  induction l generalizing names with
  | nil =>
    cases h
    simp
  | cons e l ih =>
    obtain ⟨name, _ | _ | _⟩ := e
    · obtain ⟨names', hl, rfl | rfl⟩ := retained_file h
      · intro n hn
        exact List.mem_cons_of_mem _ (ih hl n hn)
      · intro n hn
        rcases List.mem_cons.mp hn with rfl | hn
        · exact List.mem_cons_self
        · exact List.mem_cons_of_mem _ (ih hl n hn)
    · cases h
    · cases h

theorem regular_of_retained {names : List String} (h : retained d.entries = .ok names) :
    Regular d := by
  intro name node hl
  exact retained_regular h ⟨name, node⟩ (AList.mem_lookup_iff.mp hl)

theorem read_of_retained {names : List String} (h : retained s.entries.entries = .ok names)
    (hname : name ∈ names) :
    ∃ bytes, s.read name = .ok bytes ∧ bytesAt s.entries name = some bytes := by
  have hkey : name ∈ s.entries := retained_mem h name hname
  obtain ⟨node, hl⟩ := Option.isSome_iff_exists.mp (AList.lookup_isSome.mpr hkey)
  obtain ⟨bytes, rfl⟩ := regular_of_retained h name node hl
  refine ⟨bytes, ?_, ?_⟩
  · rw [Files.read, hl]
  · rw [bytesAt, hl]

theorem runs_line {names : List String} (h : retained w.state.entries.entries = .ok names)
    (hname : name ∈ names) (hmiss : w.Misses (.hash name)) :
    Runs (do let digest ← sha256File sha256 name; return digest ++ "  " ++ name) w
      (.ok (hashLine sha256 w.state.entries name)) w := by
  obtain ⟨bytes, hread, hbytes⟩ := read_of_retained h hname
  rw [hashLine, hbytes]
  have hdigest : Runs (sha256File sha256 name) w (.ok (sha256 bytes)) w := by
    refine (runs_point hmiss).bind (runs_onState ?_)
    rw [hread]
    rfl
  exact hdigest.bind (runs_pure _)

/-- The points of the hash lines of a directory. -/
def linePoints (names : List String) : List Point := .scandir :: names.map .hash

theorem runs_enumerateEvidence {names : List String}
    (h : retained w.state.entries.entries = .ok names) (hscan : w.Misses .scandir) :
    Runs enumerateEvidence w (.ok (names.mergeSort (· ≤ ·))) w := by
  refine (runs_point hscan).bind (runs_onState ?_)
  rw [h]
  rfl

theorem runs_hashLines {names : List String} (h : retained w.state.entries.entries = .ok names)
    (hmiss : w.Avoids (linePoints names)) :
    Runs (hashLines sha256) w (.ok (evidenceLines sha256 w.state.entries names)) w := by
  have hscan : w.Misses .scandir := hmiss _ List.mem_cons_self
  refine (runs_enumerateEvidence h hscan).bind (Runs.mapM fun name hname => ?_)
  have hname : name ∈ names := List.mem_mergeSort.mp hname
  exact runs_line h hname (hmiss _ (List.mem_cons_of_mem _ (List.mem_map_of_mem hname)))

theorem runs_hashLines_error {names : List String} (h : retained s.entries.entries = .ok names)
    (hf : f.point ∈ linePoints names) :
    Runs (hashLines sha256) ⟨s, some f⟩ (.error f.raises) ⟨s, none⟩ := by
  rcases List.mem_cons.mp hf with hscan | hhash
  · exact ((runs_point_fault hscan).bind_error).bind_error
  · obtain ⟨name, hname, hpoint⟩ := List.mem_map.mp hhash
    have hscan : f.point ≠ .scandir := by simp [← hpoint]
    refine (runs_enumerateEvidence h (misses_some hscan)).bind ?_
    refine Runs.mapM_error (g := hashLine sha256 s.entries) (fun n hn => ?_) ⟨name, ?_, ?_⟩
    · by_cases heq : f.point = .hash n
      · exact .inr (Runs.bind_error (runs_point_fault heq).bind_error)
      · exact .inl (runs_line h (List.mem_mergeSort.mp hn) (misses_some heq))
    · exact List.mem_mergeSort.mpr hname
    · exact Runs.bind_error (runs_point_fault hpoint.symm).bind_error

theorem runs_hashLines_rejected {e : Exc} (h : retained w.state.entries.entries = .error e)
    (hscan : w.Misses .scandir) : Runs (hashLines sha256) w (.error e) w := by
  refine Runs.bind_error ((runs_point hscan).bind (runs_onState_error ?_))
  rw [h]
  rfl

end Evidence

end LeAudioReceiver
