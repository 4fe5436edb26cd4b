import LeAudioReceiver.I2s.Basic

/-!
# Who owns the blocks

Over any sequence of pushes and stops, with any answers of the slab, the resampler and the driver,
no block is lost and none is freed that the pusher does not hold; and the DMA is started behind a
full startup queue only.

* `I2s.Sys.Inv` : what the thread holds, what it has queued, and what fits;
* `I2s.Sys.slab_ownership` : **after every push and stop each block is free or with the driver,
  and a START comes directly behind the silence and the data of the same push**;
* `I2s.Sys.writes_fit` : nothing is written that is empty or larger than a block.
-/

namespace LeAudioReceiver

namespace I2s

/-- The blocks that the thread holds. -/
def Pc.owned : Pc → List Block
  | .fill _ _ block | .prefill _ _ block _ | .allocSilence _ _ block _ _ | .writeData block _
  | .write block _ => [block]
  | .writeSilence _ _ block _ _ sil => [sil, block]
  | .writeRepeat dup => [dup]
  | _ => []

/-- What the driver has taken over in a call. -/
def Call.queued : Call → Option Content
  | .write content _ ret => if ret < 0 then none else some content
  | .trigger .. => none

/-- The startup queue with `pre` blocks of silence. -/
def silences (pre : ℕ) : List (Option Content) := List.replicate pre (some .silence)

/-- The whole startup queue. -/
def startup : List (Option Content) := silences startupSilenceBlocks ++ [some .data]

/-- Every START comes directly behind the whole startup queue. -/
def StartsFull (calls : List Call) : Prop :=
  ∀ before after ret, calls = before ++ .trigger .start ret :: after →
    before.map Call.queued = startup

/-- What the thread has queued where it is. -/
def Pc.Queued : Pc → List Call → Prop
  | .alloc .., calls | .fill .., calls => calls = []
  | .prefill pre _ _ _, calls =>
    calls.map Call.queued = silences pre ∧ pre ≤ startupSilenceBlocks
  | .allocSilence pre _ _ _ _, calls | .writeSilence pre _ _ _ _ _, calls =>
    calls.map Call.queued = silences pre ∧ pre < startupSilenceBlocks
  | .writeData .., calls => calls.map Call.queued = silences startupSilenceBlocks
  | .start, calls => calls.map Call.queued = startup
  | _, _ => True

/-- A number of bytes that a block holds, and not none. -/
def Fits (bytes : ℕ) : Prop := 0 < bytes ∧ bytes ≤ blockSize

/-- The calls that write do so within a block. -/
def Call.InBlock : Call → Prop
  | .write _ bytes _ => Fits bytes
  | .trigger .. => True

/-- What is about to be written fits. -/
def Pc.Sized (savedFrameLen : ℕ) : Pc → Prop
  | .prefill _ _ _ outputFrames | .writeData _ outputFrames => Fits (outputFrames * frameBytes)
  | .write _ outputFrames =>
    Fits (outputFrames * frameBytes) ∧ savedFrameLen = outputFrames * frameBytes
  | .allocSilence _ _ _ outputFrames preFrames | .writeSilence _ _ _ outputFrames preFrames _ =>
    Fits (outputFrames * frameBytes) ∧ Fits (preFrames * frameBytes)
  | .fallback | .allocRepeat | .writeRepeat _ => Fits savedFrameLen
  | _ => True

theorem fits_of_usable {frames : ℕ} (h : usable frames = true) : Fits (frames * frameBytes) := by
  simp only [usable, Bool.and_eq_true, decide_eq_true_eq] at h
  simp only [Fits, blockSize, frameBytes]
  omega

/-! ### The calls of the driver -/

theorem StartsFull.nil : StartsFull [] := by
  intro before after ret h
  exact absurd h.symm (by simp)

theorem StartsFull.append {calls : List Call} (h : StartsFull calls) {c : Call}
    (hc : ∀ ret, c = .trigger .start ret → calls.map Call.queued = startup) :
    StartsFull (calls ++ [c]) := by
  intro before after ret heq
  rcases List.eq_nil_or_concat after with rfl | ⟨after', last, rfl⟩
  · obtain ⟨rfl, hlast⟩ := List.append_inj' heq rfl
    exact hc ret (List.cons.inj hlast).1
  · have heq' : calls ++ [c] = (before ++ .trigger .start ret :: after') ++ [last] := by
      rw [heq]
      simp
    exact h before after' ret (List.append_inj' heq' rfl).1

theorem forall_inBlock_append {calls : List Call} (h : ∀ c ∈ calls, c.InBlock) {c : Call}
    (hc : c.InBlock) : ∀ c' ∈ calls ++ [c], c'.InBlock := by
  intro c' hc'
  rcases List.mem_append.1 hc' with hmem | hmem
  · exact h c' hmem
  · rw [List.mem_singleton.1 hmem]
    exact hc

theorem silences_succ (pre : ℕ) : silences (pre + 1) = silences pre ++ [some .silence] :=
  List.replicate_succ'

namespace Sys

variable {s s' : Sys} {a : Action}

/-! ### The invariant -/

/-- What the thread holds and has queued, and that everything fits. -/
structure Inv (s : Sys) : Prop where
  holds : s.slab.Holds s.pc.owned
  queued : s.pc.Queued s.calls
  starts : StartsFull s.calls
  sized : s.pc.Sized s.savedFrameLen
  inBlock : ∀ c ∈ s.calls, c.InBlock

theorem Inv.goto (h : s.Inv) {slab : Pool Block} {pc : Pc} (hholds : slab.Holds pc.owned)
    (hqueued : pc.Queued s.calls) (hsized : pc.Sized s.savedFrameLen) :
    Inv { s with slab := slab, pc := pc } :=
  ⟨hholds, hqueued, h.starts, hsized, h.inBlock⟩

theorem Inv.call (h : s.Inv) {slab : Pool Block} {pc : Pc} {c : Call} (hholds : slab.Holds pc.owned)
    (hqueued : pc.Queued (s.calls ++ [c])) (hsized : pc.Sized s.savedFrameLen)
    (hstart : ∀ ret, c = .trigger .start ret → s.calls.map Call.queued = startup)
    (hc : c.InBlock) : Inv { s with slab := slab, pc := pc, calls := s.calls ++ [c] } :=
  ⟨hholds, hqueued, h.starts.append hstart, hsized, forall_inBlock_append h.inBlock hc⟩

theorem Inv.exit (h : s.Inv) {slab : Pool Block} (hholds : slab.Holds []) (ret : ℤ) :
    Inv ({ s with slab := slab }.exit ret) :=
  ⟨hholds, trivial, h.starts, trivial, h.inBlock⟩

theorem Inv.callExit (h : s.Inv) {slab : Pool Block} (c : Call) (hholds : slab.Holds [])
    (hstart : ∀ ret, c = .trigger .start ret → s.calls.map Call.queued = startup)
    (hc : c.InBlock) (err : ℤ) :
    Inv ({ s with slab := slab, calls := s.calls ++ [c] }.exit err) :=
  ⟨hholds, trivial, h.starts.append hstart, trivial, forall_inBlock_append h.inBlock hc⟩

theorem allocBlock_cases {r : Except ℤ Block} {fail : ℤ → Sys} {ok : Sys → Block → Sys}
    (h : s.allocBlock r fail ok = some s') :
    (∃ e, s' = fail e) ∨
      ∃ b slab, s.slab.alloc b = some slab ∧ s' = ok { s with slab := slab } b := by
  cases r with
  | error e =>
    simp only [allocBlock] at h
    split_ifs at h
    exact .inl ⟨e, (Option.some.inj h).symm⟩
  | ok b =>
    obtain ⟨slab, hslab, rfl⟩ := Option.map_eq_some_iff.1 h
    exact .inr ⟨b, slab, hslab, rfl⟩

theorem Inv.onAlloc (h : s.Inv) {r : Except ℤ Block} (hs : s.onAlloc r = some s') : s'.Inv := by
  have hholds := h.holds
  have hqueued := h.queued
  have hsized := h.sized
  unfold Sys.onAlloc at hs
  cases hpc : s.pc with
  | alloc streamStarted inputFrames =>
    rw [hpc] at hs hholds hqueued
    rcases allocBlock_cases hs with ⟨e, rfl⟩ | ⟨b, slab, halloc, rfl⟩
    · exact h.exit hholds e
    · exact h.goto (hholds.alloc halloc) hqueued trivial
  | allocSilence pre inputFrames block outputFrames preFrames =>
    rw [hpc] at hs hholds hqueued hsized
    rcases allocBlock_cases hs with ⟨e, rfl⟩ | ⟨b, slab, halloc, rfl⟩
    · exact h.goto hholds.free trivial trivial
    · exact h.goto (hholds.alloc halloc) hqueued hsized
  | allocRepeat =>
    rw [hpc] at hs hholds hsized
    rcases allocBlock_cases hs with ⟨e, rfl⟩ | ⟨b, slab, halloc, rfl⟩
    · exact h.exit hholds 0
    · exact h.goto (hholds.alloc halloc) trivial hsized
  | _ =>
    rw [hpc] at hs
    cases hs

theorem Inv.onFill (h : s.Inv) {r : FillResult} (hs : s.onFill r = some s') : s'.Inv := by
  have hholds := h.holds
  have hqueued := h.queued
  unfold Sys.onFill at hs
  split at hs
  · rename_i streamStarted inputFrames block hpc
    rw [hpc] at hholds hqueued
    split at hs
    · rename_i e _
      exact Option.some.inj hs ▸ h.exit hholds.free e
    · rename_i outputFrames _
      split_ifs at hs with husable hstarted
      · exact Option.some.inj hs ▸ h.exit hholds.free (-enospc)
      · have hfits : Fits (outputFrames * frameBytes) := fits_of_usable (by simpa using husable)
        have hcalls : s.calls = [] := hqueued
        refine Option.some.inj hs ▸ h.goto hholds ⟨?_, Nat.zero_le _⟩ hfits
        rw [hcalls]
        rfl
      · have hfits : Fits (outputFrames * frameBytes) := fits_of_usable (by simpa using husable)
        exact Option.some.inj hs ▸ ⟨hholds, trivial, h.starts, ⟨hfits, rfl⟩, h.inBlock⟩
  · cases hs

/-- A write is refused: the thread still holds the block. -/
theorem i2sWrite_of_neg {ret : ℤ} (hret : ret < 0) (content : Content) (b : Block) (bytes : ℕ) :
    s.i2sWrite content b bytes ret = { s with calls := s.calls ++ [.write content bytes ret] } :=
  if_pos hret

/-- A write is accepted: the driver has the block. -/
theorem i2sWrite_of_nonneg {ret : ℤ} (hret : ¬ ret < 0) (content : Content) (b : Block)
    (bytes : ℕ) :
    s.i2sWrite content b bytes ret =
      { s with calls := s.calls ++ [.write content bytes ret], slab := s.slab.submit b } :=
  if_neg hret

theorem Inv.onWrite (h : s.Inv) {ret : ℤ} (hs : s.onWrite ret = some s') : s'.Inv := by
  have hholds := h.holds
  have hqueued := h.queued
  have hsized := h.sized
  unfold Sys.onWrite at hs
  split at hs
  · -- a block of the startup silence
    rename_i pre inputFrames block outputFrames preFrames sil hpc
    rw [hpc] at hholds hqueued hsized
    by_cases hret : ret < 0
    · simp only [i2sWrite_of_neg hret, if_pos hret] at hs
      exact Option.some.inj hs ▸ h.call hholds.free.free trivial trivial (by simp) hsized.2
    · simp only [i2sWrite_of_nonneg hret, if_neg hret] at hs
      refine Option.some.inj hs ▸ h.call hholds.submit ⟨?_, hqueued.2⟩ hsized.1 (by simp) hsized.2
      rw [List.map_append, hqueued.1, silences_succ]
      simp [Call.queued, hret]
  · rename_i block outputFrames hpc
    rw [hpc] at hholds hqueued hsized
    by_cases hret : ret < 0
    · simp only [i2sWrite_of_neg hret, if_pos hret] at hs
      exact Option.some.inj hs ▸ h.call hholds.free trivial trivial (by simp) hsized
    · simp only [i2sWrite_of_nonneg hret, if_neg hret] at hs
      have hqueued : s.calls.map Call.queued = silences startupSilenceBlocks := hqueued
      have hlast : Call.queued (.write .data (outputFrames * frameBytes) ret) = some .data :=
        if_neg hret
      refine Option.some.inj hs ▸ h.call hholds.submit ?_ trivial (by simp) hsized
      show (s.calls ++ [_]).map Call.queued = startup
      rw [List.map_append, hqueued, List.map_singleton, hlast, startup]
  · rename_i block outputFrames hpc
    rw [hpc] at hholds hsized
    by_cases hret : ret < 0
    · simp only [i2sWrite_of_neg hret, if_pos hret] at hs
      split_ifs at hs with hunderrun
      · exact Option.some.inj hs ▸ h.call hholds.free trivial trivial (by simp) hsized.1
      · obtain rfl := Option.some.inj hs
        exact h.callExit (.write ..) hholds.free (by simp) hsized.1 ret
    · simp only [i2sWrite_of_nonneg hret, if_neg hret] at hs
      have hfits : Fits s.savedFrameLen := hsized.2 ▸ hsized.1
      exact Option.some.inj hs ▸ h.call hholds.submit trivial hfits (by simp) hsized.1
  · -- the duplicate of the last block
    rename_i dup hpc
    rw [hpc] at hholds hsized
    by_cases hret : ret < 0
    · simp only [i2sWrite_of_neg hret, if_pos hret] at hs
      obtain rfl := Option.some.inj hs
      exact h.callExit (.write ..) hholds.free (by simp) hsized 0
    · simp only [i2sWrite_of_nonneg hret, if_neg hret] at hs
      obtain rfl := Option.some.inj hs
      exact h.callExit (.write ..) hholds.submit (by simp) hsized 0
  · cases hs

theorem i2sTrigger_eq (cmd : Cmd) (ret : ℤ) :
    ∃ slab, s.i2sTrigger cmd ret =
        { s with slab := slab, calls := s.calls ++ [.trigger cmd ret] } ∧
      ∀ bs, s.slab.Holds bs → slab.Holds bs := by
  unfold i2sTrigger
  dsimp only
  split_ifs
  · exact ⟨s.slab, rfl, fun _ h => h⟩
  · exact ⟨s.slab.purge, rfl, fun _ h => h.purge⟩

theorem Inv.onTrigger (h : s.Inv) {ret : ℤ} (hs : s.onTrigger ret = some s') : s'.Inv := by
  have hholds := h.holds
  have hqueued := h.queued
  unfold Sys.onTrigger at hs
  split at hs
  · rename_i hpc
    rw [hpc] at hholds hqueued
    obtain ⟨slab, hslab, hkeep⟩ := s.i2sTrigger_eq .start ret
    have hcalls : StartsFull (s.calls ++ [.trigger .start ret]) :=
      h.starts.append fun _ _ => hqueued
    simp only [hslab] at hs
    split_ifs at hs
    · exact Option.some.inj hs ▸
        h.call (hkeep _ hholds) trivial trivial (fun _ _ => hqueued) trivial
    · exact Option.some.inj hs ▸
        ⟨hkeep _ hholds, trivial, hcalls, trivial, forall_inBlock_append h.inBlock trivial⟩
  · rename_i err hpc
    rw [hpc] at hholds
    obtain ⟨slab, hslab, hkeep⟩ := s.i2sTrigger_eq .drop ret
    rw [hslab] at hs
    obtain rfl := Option.some.inj hs
    exact h.callExit (.trigger .drop ret) (hkeep _ hholds) (by simp) trivial err
  · rename_i err hpc
    rw [hpc] at hholds
    obtain ⟨slab, hslab, hkeep⟩ := s.i2sTrigger_eq .prepare ret
    rw [hslab] at hs
    exact Option.some.inj hs ▸
      ⟨hkeep _ hholds, trivial, h.starts.append (by simp), trivial,
        forall_inBlock_append h.inBlock trivial⟩
  · rename_i hpc
    rw [hpc] at hholds
    obtain ⟨slab, hslab, hkeep⟩ := s.i2sTrigger_eq .prepare ret
    rw [hslab] at hs
    exact Option.some.inj hs ▸ h.call (hkeep _ hholds) trivial trivial (by simp) trivial
  · rename_i hpc
    rw [hpc] at hholds
    obtain ⟨slab, hslab, hkeep⟩ := s.i2sTrigger_eq .drop ret
    rw [hslab] at hs
    exact Option.some.inj hs ▸ h.call (hkeep _ hholds) trivial trivial (by simp) trivial
  · cases hs

theorem Inv.onRun (h : s.Inv) (hs : s.onRun = some s') : s'.Inv := by
  have hholds := h.holds
  have hqueued := h.queued
  have hsized := h.sized
  unfold Sys.onRun at hs
  split at hs
  · rename_i pre inputFrames block outputFrames hpc
    rw [hpc] at hholds hqueued hsized
    obtain rfl := Option.some.inj hs
    unfold prefillStep
    dsimp only
    split_ifs with hpre husable
    · exact ⟨hholds, ⟨hqueued.1, hpre⟩, h.starts, ⟨hsized, fits_of_usable husable⟩, h.inBlock⟩
    · exact ⟨hholds.free, trivial, h.starts, trivial, h.inBlock⟩
    · have hfull : pre = startupSilenceBlocks := le_antisymm hqueued.2 (not_lt.1 hpre)
      subst hfull
      exact h.goto hholds hqueued.1 hsized
  · rename_i hpc
    rw [hpc] at hholds hsized
    obtain rfl := Option.some.inj hs
    split_ifs
    · exact h.goto hholds trivial hsized
    · exact h.exit hholds 0
  · cases hs

theorem Inv.stop (h : s.Inv) (hidle : s.pc = .idle) : s.stop.Inv := by
  have hholds := h.holds
  rw [hidle] at hholds
  unfold Sys.stop
  cases s.started with
  | true => exact ⟨hholds, trivial, .nil, trivial, by simp⟩
  | false => exact ⟨hholds, trivial, .nil, trivial, by simp⟩

/-- Every step keeps it. -/
theorem Inv.next (h : s.Inv) (hs : s.next a = some s') : s'.Inv := by
  cases a with
  | push inputFrames =>
    simp only [Sys.next] at hs
    split_ifs at hs with hidle
    have hholds := h.holds
    rw [hidle] at hholds
    exact Option.some.inj hs ▸ ⟨hholds, rfl, .nil, trivial, by simp⟩
  | stop =>
    simp only [Sys.next] at hs
    split_ifs at hs with hidle
    exact Option.some.inj hs ▸ h.stop hidle
  | alloc r => exact h.onAlloc hs
  | fill r => exact h.onFill hs
  | write ret => exact h.onWrite hs
  | trigger ret => exact h.onTrigger hs
  | run => exact h.onRun hs
  | complete b =>
    obtain ⟨slab, hslab, rfl⟩ := Option.map_eq_some_iff.1 hs
    exact ⟨h.holds.complete hslab, h.queued, h.starts, h.sized, h.inBlock⟩

theorem inv_of_reachable (h : machine.Reachable s) : s.Inv := by
  refine h.invariant ?_ fun s a s' hs hnext => hs.next hnext
  rintro _ ⟨outputRateHz, rfl⟩
  exact ⟨Pool.holds_init, trivial, .nil, trivial, by simp [init]⟩

/-- **Slab ownership.**  In every state reached no block has been freed or submitted that the
thread did not hold; between pushes and stops each block is free or with the driver; and a START
comes directly behind the whole startup queue of the same push. -/
theorem slab_ownership (h : machine.Reachable s) :
    s.slab.misused = false ∧
      (s.pc = .idle → ∀ b, s.slab.owner b = .free ∨ s.slab.owner b = .driver) ∧
      ∀ before after ret, s.calls = before ++ .trigger .start ret :: after →
        before.map Call.queued =
          List.replicate startupSilenceBlocks (some .silence) ++ [some .data] := by
  have hinv := inv_of_reachable h
  refine ⟨hinv.holds.misused, fun hidle b => ?_, hinv.starts⟩
  have hholds := hinv.holds
  rw [hidle] at hholds
  exact hholds.free_or_driver b

/-- A first push: the silence, the data, and the START. -/
def firstPush : List Action :=
  [.push 480, .alloc (.ok 0), .fill ⟨none, 0, 476⟩] ++
    (List.range startupSilenceBlocks).flatMap
      (fun pre => [.run, .alloc (.ok (Fin.ofNat _ (pre + 1))), .write 0]) ++
    [.run, .write 0, .trigger 0]

theorem slab_ownership_firstPush :
    ∃ s, machine.Reachable s ∧ s.started = true ∧ s.pc = .idle ∧
      ∀ b, s.slab.owner b = .free ∨ s.slab.owner b = .driver := by
  have hrun : (machine.run (init 47619) firstPush).any (fun s => s.started && s.pc == .idle) =
      true := by
    decide +kernel
  obtain ⟨s, hs, hflags⟩ := Option.any_eq_true _ _ |>.1 hrun
  obtain ⟨hstarted, hpc⟩ := Bool.and_eq_true_iff.1 hflags
  have hidle : s.pc = .idle := by simpa using hpc
  have hreach : machine.Reachable s := Machine.Reachable.run (.init ⟨47619, rfl⟩) hs
  exact ⟨s, hreach, hstarted, hidle, (slab_ownership hreach).2.1 hidle⟩

/-- Nothing is written that is empty or larger than a block. -/
theorem writes_fit (h : machine.Reachable s) {content : Content} {bytes : ℕ} {ret : ℤ}
    (hmem : .write content bytes ret ∈ s.calls) : 0 < bytes ∧ bytes ≤ blockSize :=
  (inv_of_reachable h).inBlock _ hmem

end Sys

end I2s

end LeAudioReceiver
