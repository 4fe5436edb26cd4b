import LeAudioReceiver.Offload.Tokens

/-!
# Where the tokens of the consume semaphore come from

The invariant of `Offload.Tokens`: what the remote core has claimed, published and not notified,
what is in flight, and what has passed the check of `on_ring_consumer`, each with its epoch.

* `TokenSys.tokens_sound` : in every run without the interleavings of `TokenSys.Clean`, each token
  stems from slots of the current epoch, published since the latest reset;
* `TokenSys.token_of_old_slot` : a reset between consuming and notifying stamps the new epoch on the
  notification for an old slot.
-/

namespace LeAudioReceiver

namespace Offload

open FlprRing

/-! ### Before the first reset -/

/-- The application core has no epoch to work with. -/
def CpuPc.early : CpuPc → Bool
  | .idle | .consuming _ | .waiting _ _ => true
  | _ => false

/-- The local epoch is invalidated. -/
def CpuPc.invalid : CpuPc → Bool
  | .invalidated _ | .resetIn _ | .resetOut _ => true
  | _ => false

/-- An input slot is claimed, and its answer is not published. -/
def MainPc.pending : MainPc → Bool
  | .claimed _ | .producing _ _ | .processed => true
  | _ => false

namespace Cores

variable {s s' : Cores} {a : CoresStep}

/-- Until the remote core has its first epoch there is nothing to consume; the application core
works without an epoch only in the middle of a reset. -/
structure Agreed (s : Cores) : Prop where
  waiting : ∀ token epoch, s.cpu = .waiting token epoch → epoch ≠ 0
  resetting : ∀ m, s.callback = .resetting m → m.data ≠ 0
  first : s.flprEpoch = 0 → (∀ m ∈ s.acks, m.data = 0) ∧ s.cpuEpoch = 0 ∧ s.cpu.early = true ∧
    s.main.holds = false ∧ s.inp.producerIdx = s.inp.consumerIdx
  window : s.cpu.invalid = true → s.cpuEpoch = 0

theorem agreed_start : start.Agreed where
  waiting _ _ h := by cases h
  resetting _ h := by cases h
  first _ := ⟨fun m hm => absurd hm List.not_mem_nil, rfl, rfl, rfl, rfl⟩
  window _ := rfl

theorem consumeBegin_of_empty {r : Ring} (h : r.producerIdx = r.consumerIdx) (e : UInt32) :
    r.consumeBegin e = (r, .empty) := by
  unfold Ring.consumeBegin
  rw [if_pos]
  rw [used, h, UInt32.sub_self]

theorem Agreed.main (h : s.Agreed) {inp out : Ring} {main : MainPc}
    (hm : s.flprEpoch = 0 → main.holds = false ∧ inp.producerIdx = inp.consumerIdx) :
    Agreed { s with inp := inp, out := out, main := main } := by
  refine ⟨h.waiting, h.resetting, fun h₀ => ?_, h.window⟩
  obtain ⟨hacks, hepoch, hcpu, -, -⟩ := h.first h₀
  exact ⟨hacks, hepoch, hcpu, (hm h₀).1, (hm h₀).2⟩

theorem Agreed.main_of_holds (h : s.Agreed) (hm : s.main.holds = true) {inp out : Ring}
    {main : MainPc} : Agreed { s with inp := inp, out := out, main := main } :=
  h.main fun h₀ => Bool.noConfusion (hm.symm.trans (h.first h₀).2.2.2.1)

theorem Agreed.refuse (h : s.Agreed) {callback : CallbackPc} {resets : List Msg}
    (hc : ∀ m, callback = .resetting m → m.data ≠ 0) (seq : UInt16) :
    Agreed { s with callback := callback, resets := resets, acks := s.acks ++ [⟨seq, 0⟩] } := by
  refine ⟨h.waiting, hc, fun h₀ => ?_, h.window⟩
  obtain ⟨hacks, hrest⟩ := h.first h₀
  refine ⟨fun m hm => ?_, hrest⟩
  rcases List.mem_append.1 hm with hm | hm
  · exact hacks m hm
  · rw [List.mem_singleton.1 hm]

theorem Agreed.early (h : s.Agreed) {out : Ring} {cpu : CpuPc} {resets acks : List Msg} {k : ℕ}
    (hacks : ∀ m ∈ acks, m ∈ s.acks) (hw : ∀ token epoch, cpu = .waiting token epoch → epoch ≠ 0)
    (hcpu : cpu.early = true) (hinvalid : cpu.invalid = false) :
    Agreed { s with out := out, cpu := cpu, resets := resets, acks := acks, nextToken := k } := by
  refine ⟨hw, h.resetting, fun h₀ => ?_, fun hi => Bool.noConfusion (hinvalid.symm.trans hi)⟩
  obtain ⟨hzero, hepoch, -, hrest⟩ := h.first h₀
  exact ⟨fun m hm => hzero m (hacks m hm), hepoch, hcpu, hrest⟩

theorem Agreed.late (h : s.Agreed) (hne : s.flprEpoch ≠ 0) {inp out : Ring} {epoch : UInt32}
    {cpu : CpuPc} {acks : List Msg} (hw : ∀ token epoch, cpu ≠ .waiting token epoch)
    (hinvalid : cpu.invalid = true → epoch = 0) :
    Agreed { s with inp := inp, out := out, cpuEpoch := epoch, cpu := cpu, acks := acks } :=
  ⟨fun token epoch h => absurd h (hw token epoch), h.resetting, fun h₀ => absurd h₀ hne, hinvalid⟩

theorem Agreed.flprEpoch_ne_zero (h : s.Agreed) (hcpu : s.cpu.early = false) :
    s.flprEpoch ≠ 0 := by
  intro h₀
  exact Bool.noConfusion (hcpu.symm.trans (h.first h₀).2.2.1)

theorem agreed_step (h : s.Agreed) (hs : Step s a s') : s'.Agreed := by
  -- the steps behind one that needed the epoch of the remote core
  have hlate : s.cpu.early = false → ∀ {inp out : Ring} {epoch : UInt32} {cpu : CpuPc},
      (∀ token epoch, cpu ≠ .waiting token epoch) → (cpu.invalid = true → epoch = 0) →
      Agreed { s with inp := inp, out := out, cpuEpoch := epoch, cpu := cpu } :=
    fun hcpu => h.late (h.flprEpoch_ne_zero hcpu)
  cases hs with
  | mainFull | cpuNoEpoch | requestRefused => exact h
  | mainSpace => exact h.main fun h₀ => ⟨rfl, (h.first h₀).2.2.2.2⟩
  | mainClaim hm heq =>
    refine h.main fun h₀ => ?_
    rw [consumeBegin_of_empty (h.first h₀).2.2.2.2] at heq
    cases heq
  | mainSkip hm heq =>
    refine h.main fun h₀ => ?_
    rw [consumeBegin_of_empty (h.first h₀).2.2.2.2] at heq
    cases heq
    exact ⟨rfl, (h.first h₀).2.2.2.2⟩
  | mainProduce hm | mainOverrun hm | mainProcess _ hm | mainCommit hm | mainDone hm =>
    exact h.main_of_holds (by rw [hm]; rfl)
  | @resetInput m ms r hc hresets heq =>
    have hdata : m.data ≠ 0 := by
      intro h₀
      rw [Ring.resetEpoch, if_pos h₀] at heq
      cases heq
    refine ⟨h.waiting, fun m' hm' => ?_, fun h₀ => ?_, h.window⟩
    · cases hm'
      exact hdata
    · obtain ⟨hacks, hepoch, hcpu, hmain, -⟩ := h.first h₀
      obtain ⟨hp, hc⟩ := Ring.resetEpoch_idx heq
      exact ⟨hacks, hepoch, hcpu, hmain, hp.trans hc.symm⟩
  | refuseInput => exact h.refuse h.resetting _
  | resetOutput _ hc =>
    exact ⟨h.waiting, fun _ hm => CallbackPc.noConfusion hm, fun h₀ => absurd h₀ (h.resetting _ hc),
      h.window⟩
  | refuseOutput => exact h.refuse (fun _ hm => CallbackPc.noConfusion hm) _
  | cpuProduce _ hepoch | cpuFull _ hepoch =>
    exact h.late (fun h₀ => hepoch (h.first h₀).2.1) (fun _ _ hw => CpuPc.noConfusion hw)
      fun hi => Bool.noConfusion hi
  | cpuFill _ hc | cpuCommit hc =>
    exact hlate (by rw [hc]; rfl) (fun _ _ hw => CpuPc.noConfusion hw) fun hi => Bool.noConfusion hi
  | cpuClaim | cpuSkip | cpuDone | requestLost | timeout =>
    exact h.early (fun _ hm => hm) (fun _ _ hw => CpuPc.noConfusion hw) rfl rfl
  | requestSent _ hguard =>
    refine h.early (fun _ hm => hm) (fun _ _ hw => ?_) rfl rfl
    cases hw
    exact fun h₀ => hguard (.inl h₀)
  | ackIgnored hacks =>
    refine ⟨h.waiting, h.resetting, fun h₀ => ?_, h.window⟩
    obtain ⟨hzero, hrest⟩ := h.first h₀
    exact ⟨fun m hm => hzero m (by rw [hacks]; exact List.mem_cons_of_mem _ hm), hrest⟩
  | @ackMatched m ms epoch hacks hc hdata =>
    -- without an epoch the remote core has acknowledged nothing but refusals
    have hne : s.flprEpoch ≠ 0 := by
      intro h₀
      have hzero := (h.first h₀).1 m (by rw [hacks]; exact List.mem_cons_self)
      exact h.waiting _ _ hc (hdata.symm.trans hzero)
    exact h.late hne (fun _ _ hw => CpuPc.noConfusion hw) fun hi => Bool.noConfusion hi
  | ackRefused hacks =>
    exact h.early (fun _ hm => by rw [hacks]; exact List.mem_cons_of_mem _ hm)
      (fun _ _ hw => CpuPc.noConfusion hw) rfl rfl
  | invalidate hc =>
    exact hlate (by rw [hc]; rfl) (fun _ _ hw => CpuPc.noConfusion hw) fun _ => rfl
  | resetIn hc | resetInFail hc | resetOut hc | resetOutFail hc =>
    have hzero := h.window (by rw [hc]; rfl)
    exact hlate (by rw [hc]; rfl) (fun _ _ hw => CpuPc.noConfusion hw) fun _ => hzero
  | publish hc =>
    exact hlate (by rw [hc]; rfl) (fun _ _ hw => CpuPc.noConfusion hw) fun hi => Bool.noConfusion hi

/-- The steps that neither claim a slot, publish one, nor change an epoch. -/
def silent : CoresStep → Bool
  | .mainConsumeBegin | .mainProduceBegin | .mainProduceCommit | .callbackOutput _
  | .cpuInvalidate | .cpuPublish => false
  | _ => true

/-- What the notifications depend on is the same. -/
structure Same (s s' : Cores) : Prop where
  flprEpoch : s'.flprEpoch = s.flprEpoch
  cpuEpoch : s'.cpuEpoch = s.cpuEpoch
  pending : s'.main.pending = s.main.pending
  publishes : s.cpu.publishes.isSome = true → s'.cpu.publishes.isSome = true

theorem Same.rfl : s.Same s := ⟨Eq.refl _, Eq.refl _, Eq.refl _, id⟩

theorem Same.main {inp out : Ring} {main : MainPc} (h : main.pending = s.main.pending) :
    s.Same { s with inp := inp, out := out, main := main } := ⟨Eq.refl _, Eq.refl _, h, id⟩

theorem Same.cpu (h : s.cpu.publishes = none) {inp out : Ring} {cpu : CpuPc}
    {resets acks : List Msg} {k : ℕ} :
    s.Same { s with
      inp := inp, out := out, cpu := cpu, resets := resets, acks := acks, nextToken := k } :=
  ⟨Eq.refl _, Eq.refl _, Eq.refl _, fun hp => by rw [h] at hp; cases hp⟩

theorem same_step (ha : silent a = true) (hs : Step s a s') : s.Same s' := by
  cases hs with
  | mainClaim | mainSkip | mainProduce | mainOverrun | mainCommit | resetOutput | refuseOutput
  | invalidate | publish => exact Bool.noConfusion ha
  | mainFull | cpuNoEpoch | requestRefused => exact Same.rfl
  | mainSpace hm | mainProcess _ hm | mainDone hm => exact Same.main (by rw [hm]; rfl)
  | resetInput | refuseInput | ackIgnored => exact ⟨rfl, rfl, rfl, id⟩
  | cpuProduce hc | cpuFull hc | cpuFill _ hc | cpuCommit hc | cpuClaim hc | cpuSkip hc | cpuDone hc
  | requestLost hc | requestSent hc | timeout hc | ackMatched _ hc | ackRefused _ hc | resetIn hc
  | resetInFail hc | resetOut hc | resetOutFail hc =>
    exact Same.cpu (by rw [hc]; rfl)

end Cores

namespace TokenSys

variable {s s' : TokenSys} {a : TokenAction}

/-! ### Where a token comes from -/

/-- The slots of a notification are of its epoch, and none of them is older than the latest reset
if that is the epoch of the application core. -/
def Sound (s : TokenSys) (epoch : UInt32) (slots : List Published) : Prop :=
  ∀ p ∈ slots, p.epoch = epoch ∧ (epoch = s.cores.cpuEpoch → p.era = s.tok.era)

/-- The invariant of clean runs: what is claimed, published, sent and given. -/
structure Inv (s : TokenSys) : Prop where
  agreed : s.cores.Agreed
  counted : s.tok.consumed ≠ 0 ↔ s.cores.main.pending = true ∨ s.tok.batch ≠ []
  nonzero : s.tok.consumed ≠ 0 → s.cores.flprEpoch ≠ 0
  claim : s.cores.main.pending = true → s.tok.claimEpoch = s.cores.flprEpoch
  batch : s.Sound s.cores.flprEpoch s.tok.batch
  notes : ∀ n ∈ s.tok.notes, n.epoch ≠ 0 ∧ n.slots ≠ [] ∧ s.Sound n.epoch n.slots
  tokens : s.cores.cpuEpoch ≠ 0 → ∀ n ∈ s.tok.passed ++ s.tok.sem,
    n.epoch = s.cores.cpuEpoch ∧ n.slots ≠ [] ∧ s.Sound n.epoch n.slots
  drained : s.tok.drained = true →
    s.cores.cpu.publishes.isSome = true ∧ s.tok.passed = [] ∧ s.tok.sem = []

theorem inv_start : start.Inv where
  agreed := Cores.agreed_start
  counted := ⟨fun h => absurd rfl h, fun h => h.elim (fun h => nomatch h) fun h => absurd rfl h⟩
  nonzero h := absurd rfl h
  claim h := nomatch h
  batch _ hp := absurd hp List.not_mem_nil
  notes _ hn := absurd hn List.not_mem_nil
  tokens _ _ hn := absurd hn List.not_mem_nil
  drained h := nomatch h

theorem Inv.same (h : s.Inv) {c : Cores} (hc : c.Agreed) (hsame : s.cores.Same c) (b : Bool) :
    Inv ⟨c, { s.tok with returned := b }⟩ := by
  obtain ⟨hflpr, hcpu, hpending, hpub⟩ := hsame
  have hsound : ∀ {epoch : UInt32} {slots : List Published}, s.Sound epoch slots →
      Sound ⟨c, { s.tok with returned := b }⟩ epoch slots := by
    intro epoch slots hs p hp
    refine ⟨(hs p hp).1, fun he => (hs p hp).2 ?_⟩
    rw [he]
    exact hcpu
  refine ⟨hc, ?_, ?_, ?_, ?_, ?_, ?_, ?_⟩
  · rw [hpending]
    exact h.counted
  · rw [hflpr]
    exact h.nonzero
  · rw [hpending, hflpr]
    exact h.claim
  · rw [hflpr]
    exact hsound h.batch
  · intro n hn
    obtain ⟨hne, hslots, hs⟩ := h.notes n hn
    exact ⟨hne, hslots, hsound hs⟩
  · rw [hcpu]
    intro hne n hn
    obtain ⟨hepoch, hslots, hs⟩ := h.tokens hne n hn
    exact ⟨hepoch, hslots, hsound hs⟩
  · intro hd
    obtain ⟨hsome, hrest⟩ := h.drained hd
    exact ⟨hpub hsome, hrest⟩

theorem Inv.settled (h : s.Inv) (hc : s.tok.consumed = 0) :
    s.cores.main.pending = false ∧ s.tok.batch = [] := by
  constructor
  · by_contra hp
    exact h.counted.2 (.inl (Bool.eq_true_of_not_eq_false hp)) hc
  · by_contra hb
    exact h.counted.2 (.inr hb) hc

theorem inv_consumeBegin (h : s.Inv) {c : Cores} (hs : s.cores.Step .mainConsumeBegin c) :
    Inv ⟨c, s.tok.after s.cores .mainConsumeBegin⟩ := by
  have hc := Cores.agreed_step h.agreed hs
  cases hs with
  | mainClaim hm heq =>
    have htok : s.tok.after s.cores .mainConsumeBegin =
        { s.tok with consumed := s.tok.consumed + 1, claimEpoch := s.cores.flprEpoch } := by
      simp only [Tokens.after, heq]
    rw [htok]
    -- before its first epoch the remote core finds the ring empty
    have hflpr : s.cores.flprEpoch ≠ 0 := by
      intro h₀
      rw [Cores.consumeBegin_of_empty (h.agreed.first h₀).2.2.2.2] at heq
      cases heq
    exact ⟨hc, ⟨fun _ => .inl rfl, fun _ => Nat.succ_ne_zero _⟩, fun _ => hflpr, fun _ => rfl,
      h.batch, h.notes, h.tokens, h.drained⟩
  | @mainSkip r o hm heq hne =>
    have hsame : s.cores.Same { s.cores with inp := r, main := .idle } :=
      Cores.Same.main (by rw [hm]; rfl)
    cases o with
    | slot i => exact absurd rfl (hne i)
    | empty =>
      have htok : s.tok.after s.cores .mainConsumeBegin = { s.tok with returned := true } := by
        simp only [Tokens.after, heq]
      rw [htok]
      exact h.same hc hsame true
    | stale =>
      have htok : s.tok.after s.cores .mainConsumeBegin = s.tok := by
        simp only [Tokens.after, heq]
      rw [htok]
      exact h.same hc hsame s.tok.returned

/-- With space in the output ring the claimed slot is answered. -/
theorem inv_produceBegin (h : s.Inv) {c : Cores} (hs : s.cores.Step .mainProduceBegin c)
    (hspace : s.cores.out.produceBegin.2.isSome = true) :
    Inv ⟨c, s.tok.after s.cores .mainProduceBegin⟩ := by
  have hc := Cores.agreed_step h.agreed hs
  cases hs with
  | mainProduce hm heq => exact h.same hc (Cores.Same.main (by rw [hm]; rfl)) _
  | mainOverrun hm heq =>
    rw [heq] at hspace
    cases hspace

/-- The published slot has the epoch under which its input was accepted. -/
theorem inv_produceCommit (h : s.Inv) {c : Cores} (hs : s.cores.Step .mainProduceCommit c) :
    Inv ⟨c, s.tok.after s.cores .mainProduceCommit⟩ := by
  have hc := Cores.agreed_step h.agreed hs
  cases hs with
  | mainCommit hm =>
    have hpending : s.cores.main.pending = true := by
      rw [hm]
      rfl
    have hconsumed := h.counted.2 (.inl hpending)
    refine ⟨hc, ⟨fun _ => .inr (List.append_ne_nil_of_right_ne_nil _ (List.cons_ne_nil _ _)),
      fun _ => hconsumed⟩, h.nonzero, fun hp => (nomatch hp), ?_, h.notes, h.tokens, h.drained⟩
    intro p hp
    rcases List.mem_append.1 hp with hp | hp
    · exact h.batch p hp
    · rw [List.mem_singleton.1 hp]
      exact ⟨h.claim hpending, fun _ => rfl⟩

/-- The remote core changes its epoch with nothing left to notify. -/
theorem inv_callbackOutput (h : s.Inv) {c : Cores} {sent : Bool}
    (hs : s.cores.Step (.callbackOutput sent) c) (hzero : s.tok.consumed = 0) :
    Inv ⟨c, s.tok⟩ := by
  obtain ⟨hpending, hbatch⟩ := h.settled hzero
  have hc := Cores.agreed_step h.agreed hs
  cases hs with
  | resetOutput =>
    refine ⟨hc, h.counted, fun hne => absurd hzero hne, fun hp => ?_, ?_, h.notes, h.tokens,
      h.drained⟩
    · exact Bool.noConfusion (hpending.symm.trans hp)
    · intro p hp
      rw [hbatch] at hp
      exact absurd hp List.not_mem_nil
  | refuseOutput =>
    exact h.same hc ⟨rfl, rfl, rfl, id⟩ s.tok.returned

/-- Without an epoch no notification matches. -/
theorem inv_invalidate (h : s.Inv) {c : Cores} (hs : s.cores.Step .cpuInvalidate c) :
    Inv ⟨c, s.tok⟩ := by
  have hc := Cores.agreed_step h.agreed hs
  cases hs with
  | invalidate hcpu =>
    refine ⟨hc, h.counted, h.nonzero, h.claim, ?_, ?_, fun hne => absurd rfl hne, ?_⟩
    · intro p hp
      refine ⟨(h.batch p hp).1, fun h₀ => ?_⟩
      have hconsumed := h.counted.2 (.inr (List.ne_nil_of_mem hp))
      exact absurd h₀ (h.nonzero hconsumed)
    · intro n hn
      obtain ⟨hne, hslots, hsound⟩ := h.notes n hn
      exact ⟨hne, hslots, fun p hp => ⟨(hsound p hp).1, fun h₀ => absurd h₀ hne⟩⟩
    · intro hd
      have hsome := (h.drained hd).1
      rw [hcpu] at hsome
      cases hsome

theorem inv_publish (h : s.Inv) {c : Cores} (hs : s.cores.Step .cpuPublish c)
    (hdrained : s.tok.drained = true) (hfresh : s.Fresh) :
    Inv ⟨c, s.tok.after s.cores .cpuPublish⟩ := by
  have hc := Cores.agreed_step h.agreed hs
  cases hs with
  | publish hcpu =>
    obtain ⟨hzero, hnotes⟩ := hfresh _ (by rw [hcpu]; rfl)
    obtain ⟨-, hpassed, hsem⟩ := h.drained hdrained
    obtain ⟨-, hbatch⟩ := h.settled hzero
    refine ⟨hc, h.counted, h.nonzero, h.claim, ?_, ?_, ?_, fun hd => Bool.noConfusion hd⟩
    · intro p hp
      have hp' : p ∈ s.tok.batch := hp
      rw [hbatch] at hp'
      exact absurd hp' List.not_mem_nil
    · intro n hn
      obtain ⟨hne, hslots, hsound⟩ := h.notes n hn
      exact ⟨hne, hslots, fun p hp => ⟨(hsound p hp).1, fun he => absurd he (hnotes n hn)⟩⟩
    · intro _ n hn
      have hn' : n ∈ s.tok.passed ++ s.tok.sem := hn
      rw [hpassed, hsem] at hn'
      exact absurd hn' List.not_mem_nil

theorem inv_cores (h : s.Inv) {b : CoresStep} (hclean : s.Clean (.cores b))
    (hs : s.next (.cores b) = some s') : s'.Inv := by
  unfold next at hs
  dsimp only at hs
  split_ifs at hs with hguard
  obtain ⟨c, hnext, rfl⟩ := Option.map_eq_some_iff.1 hs
  have hc := Cores.step_of_next hnext
  have hsame : Cores.silent b = true → ∀ x, Inv ⟨c, { s.tok with returned := x }⟩ := by
    intro hb x
    exact h.same (Cores.agreed_step h.agreed hc) (Cores.same_step hb hc) x
  cases b with
  | mainCheck => exact hsame rfl _
  | mainConsumeBegin => exact inv_consumeBegin h hc
  | mainProduceBegin => exact inv_produceBegin h hc hclean
  | mainProduceCommit => exact inv_produceCommit h hc
  | callbackOutput sent => exact inv_callbackOutput h hc hclean
  | cpuInvalidate => exact inv_invalidate h hc
  | cpuPublish =>
    have hdrained : s.tok.drained = true := by
      by_contra hd
      exact hguard (by simp [CoresStep.isPublish, hd])
    exact inv_publish h hc hdrained hclean
  | _ => exact hsame rfl s.tok.returned

/-- A notification is sent for the slots published since the last one, of which there is one. -/
theorem inv_notify (h : s.Inv) {sent : Bool} (hs : s.next (.notify sent) = some s') : s'.Inv := by
  unfold next at hs
  dsimp only at hs
  split at hs
  · rename_i hmain
    have hpending : s.cores.main.pending = false := by
      rw [hmain]
      rfl
    have hnone : ∀ {notes : List Note},
        (∀ n ∈ notes, n.epoch ≠ 0 ∧ n.slots ≠ [] ∧ s.Sound n.epoch n.slots) →
        Inv { s with
          tok := { s.tok with
            consumed := 0, returned := false, batch := [], notes := notes } } := by
      intro notes hnotes
      refine ⟨h.agreed, ⟨fun hne => absurd rfl hne, ?_⟩, fun hne => absurd rfl hne, fun hp => ?_,
        fun p hp => absurd hp List.not_mem_nil, hnotes, h.tokens, h.drained⟩
      · rintro (hp | hb)
        · exact Bool.noConfusion (hpending.symm.trans hp)
        · exact absurd rfl hb
      · exact Bool.noConfusion (hpending.symm.trans hp)
    split at hs
    · obtain rfl := Option.some.inj hs
      refine hnone fun n hn => ?_
      split_ifs at hn with hsent
      · rcases List.mem_append.1 hn with hn | hn
        · exact h.notes n hn
        · rw [List.mem_singleton.1 hn]
          have hbatch : s.tok.batch ≠ [] := by
            rcases h.counted.1 hsent.1 with hp | hb
            · exact Bool.noConfusion (hpending.symm.trans hp)
            · exact hb
          exact ⟨h.nonzero hsent.1, hbatch, h.batch⟩
      · exact h.notes n hn
    · cases hs
  · cases hs

/-- Only a notification of the current epoch passes the check, and none does during a reset. -/
theorem inv_consumerCheck (h : s.Inv) (hs : s.next .consumerCheck = some s') : s'.Inv := by
  unfold next at hs
  dsimp only at hs
  split at hs
  · cases hs
  · rename_i n ns hnotes
    have hhead := h.notes n (by rw [hnotes]; exact List.mem_cons_self)
    have htail : ∀ m ∈ ns, m.epoch ≠ 0 ∧ m.slots ≠ [] ∧ s.Sound m.epoch m.slots := by
      intro m hm
      exact h.notes m (by rw [hnotes]; exact List.mem_cons_of_mem n hm)
    split_ifs at hs with hepoch <;> obtain rfl := Option.some.inj hs
    · exact ⟨h.agreed, h.counted, h.nonzero, h.claim, h.batch, htail, h.tokens, h.drained⟩
    · have hmatch : n.epoch = s.cores.cpuEpoch := not_not.1 hepoch
      refine ⟨h.agreed, h.counted, h.nonzero, h.claim, h.batch, htail, ?_, ?_⟩
      · intro hne m hm
        have hm' : m ∈ s.tok.passed ++ [n] ++ s.tok.sem := hm
        rw [List.append_assoc, List.mem_append, List.mem_append, List.mem_singleton] at hm'
        rcases hm' with hm' | rfl | hm'
        · exact h.tokens hne m (List.mem_append_left _ hm')
        · exact ⟨hmatch, hhead.2⟩
        · exact h.tokens hne m (List.mem_append_right _ hm')
      · intro hd
        -- the drain is at its end, so the local epoch is zero
        have hinvalid : s.cores.cpu.invalid = true := by
          have hsome := (h.drained hd).1
          cases hcpu : s.cores.cpu <;> simp_all [CpuPc.publishes, CpuPc.invalid]
        exact absurd (hmatch.trans (h.agreed.window hinvalid)) hhead.1

theorem inv_consumerGive (h : s.Inv) (hs : s.next .consumerGive = some s') : s'.Inv := by
  unfold next at hs
  dsimp only at hs
  split at hs
  · cases hs
  · rename_i n ns hpassed
    obtain rfl := Option.some.inj hs
    refine ⟨h.agreed, h.counted, h.nonzero, h.claim, h.batch, h.notes, ?_, ?_⟩
    · intro hne m hm
      refine h.tokens hne m ?_
      rw [hpassed]
      rcases List.mem_append.1 hm with hm | hm
      · exact List.mem_append_left _ (List.mem_cons_of_mem n hm)
      · split_ifs at hm
        · rcases List.mem_append.1 hm with hm | hm
          · exact List.mem_append_right _ hm
          · rw [List.mem_singleton.1 hm]
            exact List.mem_append_left _ List.mem_cons_self
        · exact List.mem_append_right _ hm
    · intro hd
      have hnil := (h.drained hd).2.1
      rw [hpassed] at hnil
      cases hnil

theorem Inv.take (h : s.Inv) {n : Note} {ns : List Note} (hsem : s.tok.sem = n :: ns) :
    Inv { s with tok := { s.tok with sem := ns } } := by
  refine ⟨h.agreed, h.counted, h.nonzero, h.claim, h.batch, h.notes, ?_, ?_⟩
  · intro hne m hm
    refine h.tokens hne m ?_
    rcases List.mem_append.1 hm with hm | hm
    · exact List.mem_append_left _ hm
    · rw [hsem]
      exact List.mem_append_right _ (List.mem_cons_of_mem n hm)
  · intro hd
    have hnil := (h.drained hd).2.2
    rw [hsem] at hnil
    cases hnil

theorem inv_next (h : s.Inv) (hclean : s.Clean a) (hs : s.next a = some s') : s'.Inv := by
  cases a with
  | cores b => exact inv_cores h hclean hs
  | notify sent => exact inv_notify h hs
  | consumerCheck => exact inv_consumerCheck h hs
  | consumerGive => exact inv_consumerGive h hs
  | waitConsume =>
    unfold next at hs
    dsimp only at hs
    split at hs
    · cases hs
    · rename_i hsem
      obtain rfl := Option.some.inj hs
      exact h.take hsem
  | drainTake =>
    unfold next at hs
    dsimp only at hs
    split at hs
    · cases hs
    · rename_i hsem
      split_ifs at hs
      obtain rfl := Option.some.inj hs
      exact h.take hsem
  | drainEnd =>
    unfold next at hs
    dsimp only at hs
    split at hs
    · rename_i hsem
      split_ifs at hs with hdraining
      obtain rfl := Option.some.inj hs
      have hpub : s.cores.cpu.publishes.isSome = true := (Bool.and_eq_true_iff.1 hdraining).1
      exact ⟨h.agreed, h.counted, h.nonzero, h.claim, h.batch, h.notes, h.tokens,
        fun _ => ⟨hpub, hclean, hsem⟩⟩
    · cases hs

/-- In a run in which the remote core takes a new epoch with nothing left to notify, the output ring
keeps the space that the main loop saw, nobody is between the check and the give when the drain
ends, and no notification of an epoch is under way when that epoch is published, every token stems
from slots that were published under the current epoch and since the latest reset. -/
theorem tokens_sound {s : TokenSys} (h : machine.ReachableBy Clean s)
    (hepoch : s.cores.cpuEpoch ≠ 0) {n : Note} (hn : n ∈ s.tok.passed ++ s.tok.sem) :
    n.slots ≠ [] ∧ ∀ p ∈ n.slots, p.epoch = s.cores.cpuEpoch ∧ p.era = s.tok.era := by
  have hinv : s.Inv := by
    refine h.invariant (fun s hs => ?_) fun s a s' hs hclean hnext => ?_
    · exact hs ▸ inv_start
    · exact inv_next hs hclean hnext
  obtain ⟨hmatch, hslots, hsound⟩ := hinv.tokens hepoch n hn
  refine ⟨hslots, fun p hp => ?_⟩
  obtain ⟨hp₁, hp₂⟩ := hsound p hp
  exact ⟨hp₁.trans hmatch, hp₂ hmatch⟩

/-- A coordinated reset that is answered in time, with nothing to drain. -/
def resetTo (epoch : UInt32) : List TokenAction :=
  (Cores.resetSteps epoch).dropLast.map .cores ++ [.drainEnd, .cores .cpuPublish]

/-- One block through the remote core, up to its notification. -/
def blockThrough : List TokenAction :=
  let answered : List CoresStep := [.mainProduceBegin, .mainProcess 0, .mainProduceCommit,
    .mainConsumeDone, .mainCheck, .mainConsumeBegin]
  (Cores.claimSteps ++ answered).map .cores

/-- A notification up to the token. -/
def notifyToken : List TokenAction := [.notify true, .consumerCheck, .consumerGive]

/-- What is read of the state of a run: the epoch, the number of resets and the tokens. -/
def tokensOf (s : TokenSys) : UInt32 × ℕ × List Note := (s.cores.cpuEpoch, s.tok.era, s.tok.sem)

theorem tokens_sound_block : ∃ s, machine.ReachableBy Clean s ∧ s.cores.cpuEpoch ≠ 0 ∧
    ⟨1, [⟨1, 1⟩]⟩ ∈ s.tok.sem ∧
    ([⟨1, 1⟩] : List Published) ≠ [] ∧
      ∀ p ∈ ([⟨1, 1⟩] : List Published), p.epoch = s.cores.cpuEpoch ∧ p.era = s.tok.era := by
  have hrun : (machine.runBy Clean start (resetTo 1 ++ blockThrough ++ notifyToken)).map tokensOf =
      some (1, 1, [⟨1, [⟨1, 1⟩]⟩]) := by
    decide +kernel
  obtain ⟨s, hs, htok⟩ := Option.map_eq_some_iff.1 hrun
  obtain ⟨hepoch, -, hsem⟩ :
      s.cores.cpuEpoch = 1 ∧ s.tok.era = 1 ∧ s.tok.sem = [⟨1, [⟨1, 1⟩]⟩] := by
    simpa [tokensOf] using htok
  have hreach : machine.ReachableBy Clean s := Machine.ReachableBy.runBy (.init rfl) hs
  have hne : s.cores.cpuEpoch ≠ 0 := by
    rw [hepoch]
    decide
  have hn : (⟨1, [⟨1, 1⟩]⟩ : Note) ∈ s.tok.sem := by
    rw [hsem]
    exact List.mem_cons_self
  exact ⟨s, hreach, hne, hn, tokens_sound hreach hne (List.mem_append_right _ hn)⟩

/-- A reset between the last slot and its notification: the notification carries the new epoch,
passes the check and leaves a token for a slot of the old epoch, with the output ring empty. -/
theorem token_of_old_slot : ¬ ∀ s, machine.Reachable s → s.cores.cpuEpoch ≠ 0 →
    ∀ n ∈ s.tok.sem, n.slots ≠ [] ∧
      ∀ p ∈ n.slots, p.epoch = s.cores.cpuEpoch ∧ p.era = s.tok.era := by
  intro hall
  have hrun : (machine.run start
      (resetTo 1 ++ blockThrough ++ resetTo 2 ++ notifyToken)).map tokensOf =
      some (2, 2, [⟨2, [⟨1, 1⟩]⟩]) := by
    decide +kernel
  obtain ⟨s, hs, htok⟩ := Option.map_eq_some_iff.1 hrun
  obtain ⟨hepoch, -, hsem⟩ :
      s.cores.cpuEpoch = 2 ∧ s.tok.era = 2 ∧ s.tok.sem = [⟨2, [⟨1, 1⟩]⟩] := by
    simpa [tokensOf] using htok
  have hreach : machine.Reachable s := Machine.Reachable.run (.init rfl) hs
  have hne : s.cores.cpuEpoch ≠ 0 := by
    rw [hepoch]
    decide
  have hp := (hall s hreach hne ⟨2, [⟨1, 1⟩]⟩ (by rw [hsem]; exact List.mem_cons_self)).2 ⟨1, 1⟩
    List.mem_cons_self
  rw [hepoch] at hp
  exact absurd hp.1 (by decide)

end TokenSys

end Offload

end LeAudioReceiver
