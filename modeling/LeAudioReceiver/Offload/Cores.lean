import LeAudioReceiver.Offload.Process
import LeAudioReceiver.FlprRing.Basic
import LeAudioReceiver.Machine.Basic

/-!
# Two cores and a coordinated reset

The two rings between the application core and the remote core, with everything that runs on them:
the main loop of the remote core (`ring_process_input`), its receive callback, which preempts the
main loop between any two steps and resets both rings (`ring_reset_with_epoch` of
`src/flpr/main.c`), and the application core, which under `ring_data_lock` produces, consumes or
performs a coordinated reset (`src/flpr_ring_mgr.c`).  Requests and acknowledgements are messages
in flight, so a reset can take effect long after the application core gave up waiting for it.

* `Cores.bounded_of_quiet` : as long as no reset is applied to a ring whose consumer is between
  `consume_begin` and `consume_done`, both rings stay within their four slots;
* `Cores.reset_mid_transaction` : otherwise the counters cross, and the ring reports `2 ^ 32 - 1`
  slots in use;
* `Ring.consumeBegin_fresh` : in either case a slot of another epoch is never handed to a consumer.
-/

namespace LeAudioReceiver

namespace Offload

open FlprRing

/-- `RING_RESET` and its acknowledgement: the token in `seq`, the epoch in `data`. -/
structure Msg where
  seq : UInt16
  data : UInt32

/-- The main loop of the remote core, inside `ring_process_input`. -/
inductive MainPc where
  /-- At the head of the loop. -/
  | idle
  /-- The output ring was seen to have space. -/
  | checked
  /-- `consume_begin` returned input slot `i`. -/
  | claimed (i : Fin 4)
  /-- `produce_begin` returned the output index `idx`. -/
  | producing (i : Fin 4) (idx : UInt32)
  /-- The answer is written. -/
  | processed
  /-- `produce_commit` was called. -/
  | published

/-- The receive callback of the remote core. -/
inductive CallbackPc where
  | idle
  /-- The input ring is reset for this request, the output ring not yet. -/
  | resetting (m : Msg)

/-- The holder of `ring_data_lock` on the application core. -/
inductive CpuPc where
  | idle
  /-- Between `produce_begin` and `produce_commit` on the input ring. -/
  | producing (idx : UInt32)
  /-- Between `consume_begin` and `consume_done` on the output ring. -/
  | consuming (i : Fin 4)
  /-- Waiting for the acknowledgement of a request. -/
  | waiting (token : UInt16) (epoch : UInt32)
  /-- `flpr_ring_mgr_reset_locked` is entered. -/
  | acked (epoch : UInt32)
  /-- The local epoch is invalidated. -/
  | invalidated (epoch : UInt32)
  /-- The input ring is reset. -/
  | resetIn (epoch : UInt32)
  /-- Both rings are reset. -/
  | resetOut (epoch : UInt32)

/-- The state of both cores, of the rings between them and of the messages in flight. -/
structure Cores where
  /-- The ring from the application core to the remote core. -/
  inp : Ring
  /-- The ring back. -/
  out : Ring
  /-- `ring_stream_epoch` of the remote core. -/
  flprEpoch : UInt32
  /-- `ring_stream_epoch` of the application core. -/
  cpuEpoch : UInt32
  main : MainPc
  callback : CallbackPc
  cpu : CpuPc
  /-- Requests that the remote core has not received yet. -/
  resets : List Msg
  /-- Acknowledgements that the application core has not received yet. -/
  acks : List Msg
  /-- The next request token. -/
  nextToken : ℕ

/-- The atomic steps. -/
inductive CoresStep where
  | mainCheck
  | mainConsumeBegin
  | mainProduceBegin
  | mainProcess (cycles : UInt32)
  | mainProduceCommit
  | mainConsumeDone
  /-- The callback starts on the oldest request and resets the input ring. -/
  | callbackInput
  /-- The callback resets the output ring, publishes the epoch and acknowledges. -/
  | callbackOutput (sent : Bool)
  | cpuProduceBegin
  /-- Stores to the input slot; the epoch is stamped by the ring manager. -/
  | cpuFill (c : Slot)
  | cpuProduceCommit
  | cpuConsumeBegin
  | cpuConsumeDone
  /-- `flpr_ring_mgr_coordinated_reset` up to the request. -/
  | cpuRequest (epoch : UInt32) (sent : Bool)
  | cpuTimeout
  | cpuAck
  | cpuInvalidate
  | cpuResetIn
  | cpuResetOut
  | cpuPublish

namespace Cores

/-- The steps of the main loop. -/
def mainNext (s : Cores) : CoresStep → Option Cores
  | .mainCheck =>
    match s.main with
    | .idle =>
      if space s.out.producerIdx s.out.consumerIdx = 0 then some s
      else some { s with main := .checked }
    | _ => none
  | .mainConsumeBegin =>
    match s.main with
    | .checked =>
      match s.inp.consumeBegin s.flprEpoch with
      | (r, .slot i) => some { s with inp := r, main := .claimed i }
      | (r, _) => some { s with inp := r, main := .idle }
    | _ => none
  | .mainProduceBegin =>
    match s.main with
    | .claimed i =>
      match s.out.produceBegin with
      | (r, some idx) => some { s with out := r, main := .producing i idx }
      -- the input index is left unchanged
      | (r, none) => some { s with out := r, main := .idle }
    | _ => none
  | .mainProcess cycles =>
    match s.main with
    | .producing i idx =>
      some { s with out := s.out.write idx (answer (s.inp.slots i) cycles), main := .processed }
    | _ => none
  | .mainProduceCommit =>
    match s.main with
    | .processed => some { s with out := s.out.produceCommit, main := .published }
    | _ => none
  | .mainConsumeDone =>
    match s.main with
    | .published => some { s with inp := s.inp.consumeDone, main := .idle }
    | _ => none
  | _ => none

/-- The steps of the receive callback; a rejected epoch is acknowledged with `0`. -/
def callbackNext (s : Cores) : CoresStep → Option Cores
  | .callbackInput =>
    match s.callback, s.resets with
    | .idle, m :: ms =>
      match s.inp.resetEpoch m.data with
      | some r => some { s with inp := r, callback := .resetting m, resets := ms }
      | none => some { s with resets := ms, acks := s.acks ++ [⟨m.seq, 0⟩] }
    | _, _ => none
  | .callbackOutput sent =>
    match s.callback with
    | .resetting m =>
      match s.out.resetEpoch m.data with
      | some r =>
        some { s with
          out := r, flprEpoch := m.data, callback := .idle
          acks := if sent then s.acks ++ [m] else s.acks }
      | none => some { s with callback := .idle, acks := s.acks ++ [⟨m.seq, 0⟩] }
    | .idle => none
  | _ => none

/-- The steps of the application core. -/
def cpuNext (s : Cores) : CoresStep → Option Cores
  | .cpuProduceBegin =>
    match s.cpu with
    | .idle =>
      if s.cpuEpoch = 0 then some s
      else
        match s.inp.produceBegin with
        | (r, some idx) => some { s with inp := r, cpu := .producing idx }
        | (r, none) => some { s with inp := r }
    | _ => none
  | .cpuFill c =>
    match s.cpu with
    | .producing idx =>
      some { s with
        inp := s.inp.write idx { c with slotMeta := { c.slotMeta with epoch := s.cpuEpoch } } }
    | _ => none
  | .cpuProduceCommit =>
    match s.cpu with
    | .producing _ => some { s with inp := s.inp.produceCommit, cpu := .idle }
    | _ => none
  | .cpuConsumeBegin =>
    match s.cpu with
    | .idle =>
      match s.out.consumeBegin s.cpuEpoch with
      | (r, .slot i) => some { s with out := r, cpu := .consuming i }
      | (r, _) => some { s with out := r }
    | _ => none
  | .cpuConsumeDone =>
    match s.cpu with
    | .consuming _ => some { s with out := s.out.consumeDone, cpu := .idle }
    | _ => none
  | .cpuRequest epoch sent =>
    match s.cpu with
    | .idle =>
      if epoch = 0 ∨ s.nextToken > 0xFFFF then some s
      else if ¬ sent then some { s with nextToken := s.nextToken + 1 }
      else
        let token := UInt16.ofNat s.nextToken
        some { s with
          cpu := .waiting token epoch, nextToken := s.nextToken + 1
          resets := s.resets ++ [⟨token, epoch⟩] }
    | _ => none
  | .cpuTimeout =>
    match s.cpu with
    | .waiting _ _ => some { s with cpu := .idle }
    | _ => none
  | .cpuAck =>
    match s.acks with
    | [] => none
    | m :: ms =>
      match s.cpu with
      | .waiting token epoch =>
        if m.seq ≠ token then some { s with acks := ms }
        else if m.data = epoch then some { s with acks := ms, cpu := .acked epoch }
        else some { s with acks := ms, cpu := .idle }
      | _ => some { s with acks := ms }
  | .cpuInvalidate =>
    match s.cpu with
    | .acked epoch => some { s with cpuEpoch := 0, cpu := .invalidated epoch }
    | _ => none
  | .cpuResetIn =>
    match s.cpu with
    | .invalidated epoch =>
      match s.inp.resetEpoch epoch with
      | some r => some { s with inp := r, cpu := .resetIn epoch }
      | none => some { s with cpu := .idle }
    | _ => none
  | .cpuResetOut =>
    match s.cpu with
    | .resetIn epoch =>
      match s.out.resetEpoch epoch with
      | some r => some { s with out := r, cpu := .resetOut epoch }
      | none => some { s with cpu := .idle }
    | _ => none
  | .cpuPublish =>
    match s.cpu with
    | .resetOut epoch => some { s with cpuEpoch := epoch, cpu := .idle }
    | _ => none
  | _ => none

/-- One step: the callback preempts the main loop, the other core runs in parallel. -/
def next (s : Cores) (a : CoresStep) : Option Cores :=
  match a with
  | .mainCheck | .mainConsumeBegin | .mainProduceBegin | .mainProcess _ | .mainProduceCommit
  | .mainConsumeDone =>
    match s.callback with
    | .idle => s.mainNext a
    | .resetting _ => none
  | .callbackInput | .callbackOutput _ => s.callbackNext a
  | _ => s.cpuNext a

/-- A ring as `flpr_ring_init` leaves it. -/
def initRing : Ring := ⟨0, 0, 0, 0, 0, fun _ => ⟨SlotMeta.zero, []⟩⟩

/-- Both cores after their initialisation. -/
def start : Cores := ⟨initRing, initRing, 0, 0, .idle, .idle, .idle, [], [], 1⟩

/-- The machine of both cores. -/
def machine : Machine Cores CoresStep where
  init s := s = start
  next := next

/-! ### What a step does -/

/-- What each step needs and does, apart from the preemption of the main loop. -/
inductive Step (s : Cores) : CoresStep → Cores → Prop
  | mainFull : s.main = .idle → space s.out.producerIdx s.out.consumerIdx = 0 →
      Step s .mainCheck s
  | mainSpace : s.main = .idle → space s.out.producerIdx s.out.consumerIdx ≠ 0 →
      Step s .mainCheck { s with main := .checked }
  | mainClaim {r : Ring} {i : Fin 4} : s.main = .checked →
      s.inp.consumeBegin s.flprEpoch = (r, .slot i) →
      Step s .mainConsumeBegin { s with inp := r, main := .claimed i }
  | mainSkip {r : Ring} {o : ConsumeBegin} : s.main = .checked →
      s.inp.consumeBegin s.flprEpoch = (r, o) → (∀ i, o ≠ .slot i) →
      Step s .mainConsumeBegin { s with inp := r, main := .idle }
  | mainProduce {r : Ring} {i : Fin 4} {idx : UInt32} : s.main = .claimed i →
      s.out.produceBegin = (r, some idx) →
      Step s .mainProduceBegin { s with out := r, main := .producing i idx }
  | mainOverrun {r : Ring} {i : Fin 4} : s.main = .claimed i → s.out.produceBegin = (r, none) →
      Step s .mainProduceBegin { s with out := r, main := .idle }
  | mainProcess {i : Fin 4} {idx : UInt32} (cycles : UInt32) : s.main = .producing i idx →
      Step s (.mainProcess cycles)
        { s with out := s.out.write idx (answer (s.inp.slots i) cycles), main := .processed }
  | mainCommit : s.main = .processed →
      Step s .mainProduceCommit { s with out := s.out.produceCommit, main := .published }
  | mainDone : s.main = .published →
      Step s .mainConsumeDone { s with inp := s.inp.consumeDone, main := .idle }
  | resetInput {m : Msg} {ms : List Msg} {r : Ring} : s.callback = .idle → s.resets = m :: ms →
      s.inp.resetEpoch m.data = some r →
      Step s .callbackInput { s with inp := r, callback := .resetting m, resets := ms }
  | refuseInput {m : Msg} {ms : List Msg} : s.callback = .idle → s.resets = m :: ms →
      s.inp.resetEpoch m.data = none →
      Step s .callbackInput { s with resets := ms, acks := s.acks ++ [⟨m.seq, 0⟩] }
  | resetOutput {m : Msg} {r : Ring} (sent : Bool) : s.callback = .resetting m →
      s.out.resetEpoch m.data = some r →
      Step s (.callbackOutput sent)
        { s with
          out := r, flprEpoch := m.data, callback := .idle
          acks := if sent then s.acks ++ [m] else s.acks }
  | refuseOutput {m : Msg} (sent : Bool) : s.callback = .resetting m →
      s.out.resetEpoch m.data = none →
      Step s (.callbackOutput sent)
        { s with callback := .idle, acks := s.acks ++ [⟨m.seq, 0⟩] }
  | cpuNoEpoch : s.cpu = .idle → s.cpuEpoch = 0 → Step s .cpuProduceBegin s
  | cpuProduce {r : Ring} {idx : UInt32} : s.cpu = .idle → s.cpuEpoch ≠ 0 →
      s.inp.produceBegin = (r, some idx) →
      Step s .cpuProduceBegin { s with inp := r, cpu := .producing idx }
  | cpuFull {r : Ring} : s.cpu = .idle → s.cpuEpoch ≠ 0 → s.inp.produceBegin = (r, none) →
      Step s .cpuProduceBegin { s with inp := r, cpu := .idle }
  | cpuFill {idx : UInt32} (c : Slot) : s.cpu = .producing idx →
      Step s (.cpuFill c)
        { s with
          inp := s.inp.write idx { c with slotMeta := { c.slotMeta with epoch := s.cpuEpoch } }
          cpu := .producing idx }
  | cpuCommit {idx : UInt32} : s.cpu = .producing idx →
      Step s .cpuProduceCommit { s with inp := s.inp.produceCommit, cpu := .idle }
  | cpuClaim {r : Ring} {i : Fin 4} : s.cpu = .idle →
      s.out.consumeBegin s.cpuEpoch = (r, .slot i) →
      Step s .cpuConsumeBegin { s with out := r, cpu := .consuming i }
  | cpuSkip {r : Ring} {o : ConsumeBegin} : s.cpu = .idle →
      s.out.consumeBegin s.cpuEpoch = (r, o) →
      Step s .cpuConsumeBegin { s with out := r, cpu := .idle }
  | cpuDone {i : Fin 4} : s.cpu = .consuming i →
      Step s .cpuConsumeDone { s with out := s.out.consumeDone, cpu := .idle }
  | requestRefused {epoch : UInt32} (sent : Bool) : s.cpu = .idle →
      epoch = 0 ∨ s.nextToken > 0xFFFF →
      Step s (.cpuRequest epoch sent) s
  | requestLost {epoch : UInt32} : s.cpu = .idle → ¬ (epoch = 0 ∨ s.nextToken > 0xFFFF) →
      Step s (.cpuRequest epoch false) { s with cpu := .idle, nextToken := s.nextToken + 1 }
  | requestSent {epoch : UInt32} : s.cpu = .idle → ¬ (epoch = 0 ∨ s.nextToken > 0xFFFF) →
      Step s (.cpuRequest epoch true)
        { s with
          cpu := .waiting (UInt16.ofNat s.nextToken) epoch, nextToken := s.nextToken + 1
          resets := s.resets ++ [⟨UInt16.ofNat s.nextToken, epoch⟩] }
  | timeout {token : UInt16} {epoch : UInt32} : s.cpu = .waiting token epoch →
      Step s .cpuTimeout { s with cpu := .idle }
  | ackIgnored {m : Msg} {ms : List Msg} : s.acks = m :: ms →
      (∀ epoch, s.cpu ≠ .waiting m.seq epoch) → Step s .cpuAck { s with acks := ms }
  | ackMatched {m : Msg} {ms : List Msg} {epoch : UInt32} : s.acks = m :: ms →
      s.cpu = .waiting m.seq epoch → m.data = epoch →
      Step s .cpuAck { s with acks := ms, cpu := .acked epoch }
  | ackRefused {m : Msg} {ms : List Msg} {epoch : UInt32} : s.acks = m :: ms →
      s.cpu = .waiting m.seq epoch → m.data ≠ epoch →
      Step s .cpuAck { s with acks := ms, cpu := .idle }
  | invalidate {epoch : UInt32} : s.cpu = .acked epoch →
      Step s .cpuInvalidate { s with cpuEpoch := 0, cpu := .invalidated epoch }
  | resetIn {epoch : UInt32} {r : Ring} : s.cpu = .invalidated epoch →
      s.inp.resetEpoch epoch = some r →
      Step s .cpuResetIn { s with inp := r, cpu := .resetIn epoch }
  | resetInFail {epoch : UInt32} : s.cpu = .invalidated epoch → s.inp.resetEpoch epoch = none →
      Step s .cpuResetIn { s with cpu := .idle }
  | resetOut {epoch : UInt32} {r : Ring} : s.cpu = .resetIn epoch →
      s.out.resetEpoch epoch = some r →
      Step s .cpuResetOut { s with out := r, cpu := .resetOut epoch }
  | resetOutFail {epoch : UInt32} : s.cpu = .resetIn epoch → s.out.resetEpoch epoch = none →
      Step s .cpuResetOut { s with cpu := .idle }
  | publish {epoch : UInt32} : s.cpu = .resetOut epoch →
      Step s .cpuPublish { s with cpuEpoch := epoch, cpu := .idle }

section Steps

variable {s s' : Cores} {a : CoresStep}

theorem step_of_mainNext (hs : s.mainNext a = some s') : Step s a s' := by
  cases a with
  | mainCheck =>
    cases hm : s.main <;> simp only [mainNext, hm, reduceCtorEq] at hs
    split_ifs at hs with hfull <;> obtain rfl := Option.some.inj hs
    · exact .mainFull hm hfull
    · exact .mainSpace hm hfull
  | mainConsumeBegin =>
    cases hm : s.main <;> simp only [mainNext, hm, reduceCtorEq] at hs
    split at hs
    · rename_i heq
      exact Option.some.inj hs ▸ .mainClaim hm heq
    · rename_i hne heq
      exact Option.some.inj hs ▸ .mainSkip hm heq hne
  | mainProduceBegin =>
    cases hm : s.main <;> simp only [mainNext, hm, reduceCtorEq] at hs
    split at hs <;> rename_i heq <;> obtain rfl := Option.some.inj hs
    · exact .mainProduce hm heq
    · exact .mainOverrun hm heq
  | mainProcess cycles =>
    cases hm : s.main <;> simp only [mainNext, hm, reduceCtorEq] at hs
    exact Option.some.inj hs ▸ .mainProcess cycles hm
  | mainProduceCommit =>
    cases hm : s.main <;> simp only [mainNext, hm, reduceCtorEq] at hs
    exact Option.some.inj hs ▸ .mainCommit hm
  | mainConsumeDone =>
    cases hm : s.main <;> simp only [mainNext, hm, reduceCtorEq] at hs
    exact Option.some.inj hs ▸ .mainDone hm
  | _ => cases hs

theorem step_of_callbackNext (hs : s.callbackNext a = some s') : Step s a s' := by
  cases a with
  | callbackInput =>
    simp only [callbackNext] at hs
    split at hs
    · rename_i hcallback hresets
      split at hs <;> rename_i heq <;> obtain rfl := Option.some.inj hs
      · exact .resetInput hcallback hresets heq
      · exact .refuseInput hcallback hresets heq
    · cases hs
  | callbackOutput sent =>
    cases hcallback : s.callback <;> simp only [callbackNext, hcallback, reduceCtorEq] at hs
    split at hs <;> rename_i heq <;> obtain rfl := Option.some.inj hs
    · exact .resetOutput sent hcallback heq
    · exact .refuseOutput sent hcallback heq
  | _ => cases hs

theorem step_of_cpuNext (hs : s.cpuNext a = some s') : Step s a s' := by
  cases a with
  | cpuProduceBegin =>
    cases hcpu : s.cpu <;> simp only [cpuNext, hcpu, reduceCtorEq] at hs
    by_cases hepoch : s.cpuEpoch = 0
    · rw [if_pos hepoch] at hs
      exact Option.some.inj hs ▸ .cpuNoEpoch hcpu hepoch
    · rw [if_neg hepoch] at hs
      split at hs <;> rename_i heq <;> obtain rfl := Option.some.inj hs
      · exact .cpuProduce hcpu hepoch heq
      · exact .cpuFull hcpu hepoch heq
  | cpuFill c =>
    cases hcpu : s.cpu <;> simp only [cpuNext, hcpu, reduceCtorEq] at hs
    exact Option.some.inj hs ▸ .cpuFill c hcpu
  | cpuProduceCommit =>
    cases hcpu : s.cpu <;> simp only [cpuNext, hcpu, reduceCtorEq] at hs
    exact Option.some.inj hs ▸ .cpuCommit hcpu
  | cpuConsumeBegin =>
    cases hcpu : s.cpu <;> simp only [cpuNext, hcpu, reduceCtorEq] at hs
    split at hs <;> rename_i heq <;> obtain rfl := Option.some.inj hs
    · exact .cpuClaim hcpu heq
    · exact .cpuSkip hcpu heq
  | cpuConsumeDone =>
    cases hcpu : s.cpu <;> simp only [cpuNext, hcpu, reduceCtorEq] at hs
    exact Option.some.inj hs ▸ .cpuDone hcpu
  | cpuRequest epoch sent =>
    cases hcpu : s.cpu <;> simp only [cpuNext, hcpu, reduceCtorEq] at hs
    -- the request is refused, sent or lost
    split_ifs at hs with hguard hsent <;> obtain rfl := Option.some.inj hs
    · exact .requestRefused sent hcpu hguard
    · subst hsent
      exact .requestSent hcpu hguard
    · obtain rfl := Bool.eq_false_of_not_eq_true hsent
      exact .requestLost hcpu hguard
  | cpuTimeout =>
    cases hcpu : s.cpu <;> simp only [cpuNext, hcpu, reduceCtorEq] at hs
    exact Option.some.inj hs ▸ .timeout hcpu
  | cpuAck =>
    cases hacks : s.acks <;> simp only [cpuNext, hacks, reduceCtorEq] at hs
    split at hs
    · rename_i token epoch hcpu
      -- an acknowledgement of another request is ignored
      split_ifs at hs with hseq hdata <;> obtain rfl := Option.some.inj hs
      · refine .ackIgnored hacks fun epoch' hw => hseq ?_
        rw [hcpu] at hw
        exact (CpuPc.waiting.inj hw).1.symm
      · exact .ackMatched hacks (not_not.1 hseq ▸ hcpu) hdata
      · exact .ackRefused hacks (not_not.1 hseq ▸ hcpu) hdata
    · rename_i hne
      exact Option.some.inj hs ▸ .ackIgnored hacks fun epoch hw => hne _ epoch hw
  | cpuInvalidate =>
    cases hcpu : s.cpu <;> simp only [cpuNext, hcpu, reduceCtorEq] at hs
    exact Option.some.inj hs ▸ .invalidate hcpu
  | cpuResetIn =>
    cases hcpu : s.cpu <;> simp only [cpuNext, hcpu, reduceCtorEq] at hs
    split at hs <;> rename_i heq <;> obtain rfl := Option.some.inj hs
    · exact .resetIn hcpu heq
    · exact .resetInFail hcpu heq
  | cpuResetOut =>
    cases hcpu : s.cpu <;> simp only [cpuNext, hcpu, reduceCtorEq] at hs
    split at hs <;> rename_i heq <;> obtain rfl := Option.some.inj hs
    · exact .resetOut hcpu heq
    · exact .resetOutFail hcpu heq
  | cpuPublish =>
    cases hcpu : s.cpu <;> simp only [cpuNext, hcpu, reduceCtorEq] at hs
    exact Option.some.inj hs ▸ .publish hcpu
  | _ => cases hs

/-- Every step of the machine is one of `Step`. -/
theorem step_of_next (hs : s.next a = some s') : Step s a s' := by
  unfold next at hs
  split at hs
  all_goals first
    | exact step_of_callbackNext hs
    | exact step_of_cpuNext hs
    | (split at hs
       · exact step_of_mainNext hs
       · cases hs)

end Steps

/-! ### What each side is in the middle of -/

end Cores

/-- The main loop is between `consume_begin` and `consume_done` on the input ring. -/
def MainPc.holds : MainPc → Bool
  | .idle | .checked => false
  | _ => true

/-- The main loop is between `produce_begin` and `produce_commit` on the output ring. -/
def MainPc.produces : MainPc → Bool
  | .producing _ _ | .processed => true
  | _ => false

/-- The application core is between `consume_begin` and `consume_done` on the output ring. -/
def CpuPc.holds : CpuPc → Bool
  | .consuming _ => true
  | _ => false

/-- The application core is between `produce_begin` and `produce_commit` on the input ring. -/
def CpuPc.produces : CpuPc → Bool
  | .producing _ => true
  | _ => false

namespace Cores

/-- No reset is applied to a ring whose consumer is between `consume_begin` and `consume_done`. -/
def Quiet (s : Cores) : CoresStep → Prop
  | .callbackInput | .cpuResetIn => s.main.holds = false
  | .callbackOutput _ | .cpuResetOut => s.cpu.holds = false
  | _ => True

instance (s : Cores) (a : CoresStep) : Decidable (s.Quiet a) :=
  match a with
  | .callbackInput | .cpuResetIn => inferInstanceAs (Decidable (s.main.holds = false))
  | .callbackOutput _ | .cpuResetOut => inferInstanceAs (Decidable (s.cpu.holds = false))
  | .mainCheck | .mainConsumeBegin | .mainProduceBegin | .mainProcess _ | .mainProduceCommit
  | .mainConsumeDone | .cpuProduceBegin | .cpuFill _ | .cpuProduceCommit | .cpuConsumeBegin
  | .cpuConsumeDone | .cpuRequest _ _ | .cpuTimeout | .cpuAck | .cpuInvalidate | .cpuPublish =>
    .isTrue trivial

/-- Both rings are within their slots. -/
def Bounded (s : Cores) : Prop :=
  (used s.inp.producerIdx s.inp.consumerIdx).toNat ≤ slotCount ∧
    (used s.out.producerIdx s.out.consumerIdx).toNat ≤ slotCount

/-- The invariant of quiet runs. -/
structure Inv (s : Cores) : Prop where
  inp : s.inp.Ok s.cpu.produces s.main.holds
  out : s.out.Ok s.main.produces s.cpu.holds

theorem inv_next {s s' : Cores} {a : CoresStep} (h : s.Inv) (hq : s.Quiet a)
    (hs : s.next a = some s') : s'.Inv := by
  obtain ⟨hin, hout⟩ := h
  have hsame : s.Inv := ⟨hin, hout⟩
  cases step_of_next hs with
  | mainFull | cpuNoEpoch | requestRefused => exact hsame
  | refuseInput | refuseOutput | ackIgnored => exact ⟨hin, hout⟩
  | mainSpace hm _ =>
    rw [hm] at hin hout
    exact ⟨hin, hout⟩
  | mainClaim hm heq =>
    rw [hm] at hin hout
    exact ⟨hin.consumeBegin heq, hout⟩
  | mainSkip hm heq =>
    rw [hm] at hin hout
    exact ⟨(hin.consumeBegin heq).mono id fun h => absurd h Bool.false_ne_true, hout⟩
  | mainProduce hm heq =>
    rw [hm] at hin hout
    exact ⟨hin, hout.produceBegin_some heq⟩
  | mainOverrun hm heq =>
    rw [hm] at hin hout
    exact ⟨hin.mono id fun h => absurd h Bool.false_ne_true, hout.produceBegin_none heq⟩
  | mainProcess cycles hm =>
    rw [hm] at hin hout
    exact ⟨hin, hout.write _ _⟩
  | mainCommit hm =>
    rw [hm] at hin hout
    exact ⟨hin, hout.produceCommit⟩
  | mainDone hm =>
    rw [hm] at hin hout
    exact ⟨hin.consumeDone, hout⟩
  -- a ring is emptied while its consumer is not in the middle of a slot
  | resetInput _ _ heq =>
    have hq' : s.main.holds = false := hq
    exact ⟨by rw [hq']; exact .resetEpoch heq, hout⟩
  | resetOutput _ _ heq =>
    have hq' : s.cpu.holds = false := hq
    exact ⟨hin, by rw [hq']; exact .resetEpoch heq⟩
  | cpuProduce hc _ heq =>
    rw [hc] at hin hout
    exact ⟨hin.produceBegin_some heq, hout⟩
  | cpuFull hc _ heq =>
    rw [hc] at hin hout
    exact ⟨hin.produceBegin_none heq, hout⟩
  | cpuFill c hc =>
    rw [hc] at hin hout
    exact ⟨hin.write _ _, hout⟩
  | cpuCommit hc =>
    rw [hc] at hin hout
    exact ⟨hin.produceCommit, hout⟩
  | cpuClaim hc heq =>
    rw [hc] at hin hout
    exact ⟨hin, hout.consumeBegin heq⟩
  | cpuSkip hc heq =>
    rw [hc] at hin hout
    exact ⟨hin, (hout.consumeBegin heq).mono id fun h => absurd h Bool.false_ne_true⟩
  | cpuDone hc =>
    rw [hc] at hin hout
    exact ⟨hin, hout.consumeDone⟩
  | requestLost hc | requestSent hc | timeout hc | ackMatched _ hc | ackRefused _ hc
  | invalidate hc | resetInFail hc | resetOutFail hc | publish hc =>
    rw [hc] at hin hout
    exact ⟨hin, hout⟩
  | resetIn hc heq =>
    have hq' : s.main.holds = false := hq
    rw [hc] at hout
    exact ⟨by rw [hq']; exact .resetEpoch heq, hout⟩
  | resetOut hc heq =>
    rw [hc] at hin
    exact ⟨hin, .resetEpoch heq⟩

/-! ### Quiet runs and a run that is not -/

theorem inv_start : start.Inv := by
  have hload : initRing.load = 0 := by decide
  have hok : initRing.Ok false false :=
    ⟨by rw [hload]; decide, fun h => absurd h Bool.false_ne_true,
      fun h => absurd h Bool.false_ne_true⟩
  exact ⟨hok, hok⟩

/-- **Quiet runs keep the rings.**  In every interleaving in which no reset is applied to a ring
while its consumer is between `consume_begin` and `consume_done`, both rings stay within their
four slots, and no consumer is handed a slot of another epoch than its own. -/
theorem bounded_of_quiet {s : Cores} (h : machine.ReachableBy Quiet s) :
    s.Bounded ∧
    ∀ (e : UInt32) (i : Fin 4), e ≠ 0 →
      ((s.inp.consumeBegin e).2 = .slot i →
        (s.inp.slots i).slotMeta.epoch = 0 ∨ (s.inp.slots i).slotMeta.epoch = e) ∧
      ((s.out.consumeBegin e).2 = .slot i →
        (s.out.slots i).slotMeta.epoch = 0 ∨ (s.out.slots i).slotMeta.epoch = e) := by
  have hinv : s.Inv := by
    refine h.invariant ?_ fun _ _ _ => inv_next
    rintro s rfl
    exact inv_start
  refine ⟨⟨hinv.inp.bound, hinv.out.bound⟩, fun e i he => ⟨?_, ?_⟩⟩
  · exact Ring.consumeBegin_fresh he
  · exact Ring.consumeBegin_fresh he

/-- The steps of a coordinated reset that is answered in time. -/
def resetSteps (epoch : UInt32) : List CoresStep :=
  [.cpuRequest epoch true, .callbackInput, .callbackOutput true, .cpuAck, .cpuInvalidate,
    .cpuResetIn, .cpuResetOut, .cpuPublish]

/-- A block that is produced and taken up by the main loop. -/
def claimSteps : List CoresStep :=
  [.cpuProduceBegin, .cpuFill ⟨SlotMeta.zero, []⟩, .cpuProduceCommit, .mainCheck,
    .mainConsumeBegin]

/-- A reset that is applied while the main loop is in the middle of a slot: the main loop still
counts that slot as consumed, and the empty input ring reports `2 ^ 32 - 1` slots in use. -/
theorem reset_mid_transaction :
    ∃ s, machine.Reachable s ∧
      (used s.inp.producerIdx s.inp.consumerIdx).toNat = 4294967295 ∧ ¬ s.Bounded := by
  have hrun : ∃ s, machine.run start (resetSteps 1 ++ claimSteps ++ resetSteps 2 ++
      [.mainProduceBegin, .mainProcess 0, .mainProduceCommit, .mainConsumeDone]) = some s ∧
      (used s.inp.producerIdx s.inp.consumerIdx).toNat = 4294967295 := ⟨_, rfl, by decide⟩
  obtain ⟨s, hrun, hused⟩ := hrun
  refine ⟨s, Machine.Reachable.run (.init rfl) hrun, hused, ?_⟩
  rintro ⟨hle, -⟩
  rw [hused] at hle
  exact absurd hle (by decide)

/-- A quiet run: a block is taken up and answered between two resets. -/
theorem bounded_of_quiet_answered :
    ∃ s, machine.ReachableBy Quiet s ∧ s.cpuEpoch = 2 ∧ s.Bounded := by
  have hrun : ∃ s, machine.runBy Quiet start (resetSteps 1 ++ claimSteps ++
      [.mainProduceBegin, .mainProcess 0, .mainProduceCommit, .mainConsumeDone] ++
      resetSteps 2) = some s ∧ s.cpuEpoch = 2 := ⟨_, rfl, by decide⟩
  obtain ⟨s, hrun, hepoch⟩ := hrun
  have hreach : machine.ReachableBy Quiet s := Machine.ReachableBy.runBy (.init rfl) hrun
  exact ⟨s, hreach, hepoch, (bounded_of_quiet hreach).1⟩

end Cores

end Offload

end LeAudioReceiver
