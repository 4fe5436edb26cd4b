import LeAudioReceiver.Acceptance.Loopback

/-!
# What a passed ring test says

`flpr_acceptance_test_run_rate` decides by counters.  Where the rings were empty before the test and
the processor does not fail, a test that passes has received every sequence number once, in order,
with its frames (`testRunRate_intact`).  A slot that was left in the output ring, and an answer of a
processor that failed, are counted like any other: `counted_anyway`.
-/

namespace LeAudioReceiver

namespace Acceptance

open FlprRing
open Offload (padTo)
open Scheduled (Triple bind_run loop_run loopUpTo_inl loopUpTo_inr)

section

variable {e first : UInt32} {base : List Slot} {n : ℕ}

/-! ## The loops -/

theorem waitConsume_flow :
    Triple Turn.Clean (Rest e first base n) waitConsume fun _ => Rest e first base n := by
  refine cpu_rest fun t s hs => ?_
  split_ifs
  · exact hs
  · obtain ⟨l, hl, hrecv⟩ := hs
    exact ⟨l, (hl.messages _ s.acks s.resetAck s.stallAck).1, hrecv⟩

theorem reads_flow {α : Type} (f : Turn → Sys → α) :
    Triple Turn.Clean (Rest e first base n) (cpu fun t s => (f t s, s))
      fun _ => Rest e first base n :=
  cpu_rest fun _ _ hs => hs

theorem sendMsg_flow :
    Triple Turn.Clean (Rest e first base n) sendMsg fun _ => Rest e first base n :=
  reads_flow fun t _ => t.ok

theorem drainSem_flow :
    Triple Turn.Clean (Rest e first base n) drainSem fun _ => Rest e first base n := by
  refine Triple.loop (I := fun _ => Rest e first base n) (fun _ => ?_) ()
  refine waitConsume_flow.bind fun taken => ?_
  exact Triple.ite (fun _ => Triple.pure fun s hs => hs) fun _ => Triple.pure fun s hs => hs

theorem drainOutput_flow :
    Triple Turn.Clean (Rest e first base n) drainOutput fun _ => Rest e first base n := by
  refine Triple.loop (I := fun _ => Rest e first base n) (fun drained => ?_) false
  refine consumeBlock_flow.bind fun r => ?_
  cases r <;> exact Triple.pure fun s hs => hs

end

/-- What holds between two turns of the send loop: `sent` counts the requests. -/
def Sent (e first : UInt32) (base : List Slot) (blockCount : UInt32) (v : Locals) (s : Sys) :
    Prop :=
  ∃ n, Rest e first base n s ∧ v.sent = UInt32.ofNat n ∧ n ≤ blockCount.toNat

section

variable {e first blockCount : UInt32} {base : List Slot}

theorem noteSent_flow {n : ℕ} (v : Locals) :
    Triple Turn.Clean (Rest e first base n) (noteSent v)
      fun w s => w.sent = v.sent + 1 ∧ Rest e first base n s := by
  have hcount : ∀ f : TestCounters → TestCounters, (∀ c, (f c).recv = c.recv) →
      Triple Turn.Clean (Rest e first base n) (update fun s => s.count f)
        fun _ => Rest e first base n :=
    fun f hf => cpu_rest fun t s hs => hs.count hf
  have hnote : Triple Turn.Clean (Rest e first base n)
      (do
        update fun s => s.count fun c => { c with sent := v.sent + 1 }
        pure { v with lastSeq := v.sent, sent := v.sent + 1 })
      fun w s => w.sent = v.sent + 1 ∧ Rest e first base n s := by
    refine (hcount _ (by intro c; rfl)).bind fun _ => ?_
    exact Triple.pure fun s hs => ⟨rfl, hs⟩
  refine Triple.ite (fun _ => ?_) fun _ => hnote
  exact (hcount _ (by intro c; rfl)).bind fun _ => hnote

theorem produceBatch_flow (k : ℕ) (v : Locals) (batchSent : ℕ) :
    Triple Turn.Clean (Sent e first base blockCount v) (produceBatch blockCount k v batchSent)
      fun r => Sent e first base blockCount r.1 := by
  induction k generalizing v batchSent with
  | zero => exact Triple.pure fun s hs => hs
  | succ k ih =>
    refine Triple.ite (fun hlt => ?_) fun _ => Triple.pure fun s hs => hs
    refine Triple.exists_pre fun n => Triple.of_pre (fun hn => ?_) fun s hs => hs.2
    obtain ⟨hv, hle⟩ := hn
    refine Triple.mono ?_ (fun s hs => hs.1) fun r s hs => hs
    have hstay : ∀ w : Locals, w.sent = UInt32.ofNat n → ∀ s, Rest e first base n s →
        Sent e first base blockCount w s := fun w hw s hs => ⟨n, hs, hw, hle⟩
    rw [hv] at hlt ⊢
    refine produceBlock_flow.bind fun r => ?_
    cases r with
    | full => exact Triple.pure (hstay v hv)
    | invalid => exact Triple.pure (hstay _ rfl)
    | ok =>
      refine (noteSent_flow v).bind fun w => Triple.of_pre (fun hw => ?_) fun s hs => hs.1
      refine (ih w (batchSent + 1)).mono (fun s hs => ⟨n + 1, hs.2, ?_, ?_⟩) fun r s hs => hs
      · rw [hw, hv, ofNat_add_one]
      · -- the requests are fewer than the blocks, so `sent` has not wrapped
        have hsent : (UInt32.ofNat n).toNat = n % 2 ^ 32 := UInt32.toNat_ofNat'
        have hbound := blockCount.toNat_lt
        have hlt' := UInt32.lt_iff_toNat_lt.1 hlt
        omega

theorem sent_of_rest {α : Type} {p : Prog α} (v : Locals)
    (h : ∀ n, Triple Turn.Clean (Rest e first base n) p fun _ => Rest e first base n) :
    Triple Turn.Clean (Sent e first base blockCount v) p
      fun _ => Sent e first base blockCount v := by
  refine Triple.exists_pre fun n => Triple.of_pre (fun hn => ?_) fun s hs => hs.2
  exact (h n).mono (fun s hs => hs.1) fun _ s hs => ⟨n, hs, hn⟩

theorem sendTurn_flow (timeoutMs ratePerSec start : UInt32) (v : Locals) :
    Triple Turn.Clean (Sent e first base blockCount v)
      (sendTurn blockCount timeoutMs ratePerSec start v)
      fun r => Sent e first base blockCount (r.elim id id) := by
  have hwait : ∀ w, Triple Turn.Clean (Sent e first base blockCount w)
      (if w.sent < blockCount then do
        let _ ← waitConsume
        pure (.inr w)
      else pure (.inr w))
      fun (r : Locals ⊕ Locals) => Sent e first base blockCount (r.elim id id) := by
    intro w
    refine Triple.ite (fun _ => ?_) fun _ => Triple.pure fun s hs => hs
    exact (sent_of_rest w fun n => waitConsume_flow).bind fun _ => Triple.pure fun s hs => hs
  have hbatch : Triple Turn.Clean (Sent e first base blockCount v)
      (do
        let _ ← drainOutput
        let r ← produceBatch blockCount batchMax v 0
        let notified ← if r.2 > 0 then notifyProducer else pure true
        if ¬ notified then pure (.inr r.1)
        else do
          if r.1.sent < blockCount then do
            let _ ← waitConsume
            pure (.inr r.1)
          else pure (.inr r.1))
      fun (r : Locals ⊕ Locals) => Sent e first base blockCount (r.elim id id) := by
    refine (sent_of_rest v fun n => drainOutput_flow).bind fun _ => ?_
    refine (produceBatch_flow batchMax v 0).bind fun r => ?_
    obtain ⟨w, batchSent⟩ := r
    have hgo : ∀ notified : Bool, Triple Turn.Clean (Sent e first base blockCount w)
        (if ¬ notified then pure (.inr w)
        else do
          if w.sent < blockCount then do
            let _ ← waitConsume
            pure (.inr w)
          else pure (.inr w))
        fun (r : Locals ⊕ Locals) => Sent e first base blockCount (r.elim id id) := by
      intro notified
      exact Triple.ite (fun _ => Triple.pure fun s hs => hs) fun _ => hwait w
    refine Triple.ite (fun _ => ?_) fun _ => hgo true
    exact (sent_of_rest w fun n => sendMsg_flow).bind hgo
  refine Triple.ite (fun _ => ?_) fun _ => Triple.pure fun s hs => hs
  refine (sent_of_rest v fun n => reads_flow _).bind fun now => ?_
  refine Triple.ite (fun _ => Triple.pure fun s hs => hs) fun _ => ?_
  refine Triple.ite (fun _ => ?_) fun _ => hbatch
  exact (sent_of_rest v fun n => reads_flow _).bind fun _ => hbatch

theorem drainTurn_flow {n : ℕ} (sent drainStart remaining : UInt32) :
    Triple Turn.Clean (Rest e first base n) (drainTurn sent drainStart remaining)
      fun _ => Rest e first base n := by
  refine (reads_flow _).bind fun now => ?_
  refine Triple.ite (fun _ => ?_) fun _ => Triple.pure fun s hs => hs
  refine drainOutput_flow.bind fun drained => ?_
  refine (reads_flow _).bind fun recvNow => ?_
  refine Triple.ite (fun _ => Triple.pure fun s hs => hs) fun _ => ?_
  refine Triple.ite (fun _ => ?_) fun _ => Triple.pure fun s hs => hs
  exact waitConsume_flow.bind fun _ => Triple.pure fun s hs => hs

theorem finalDrain_flow {n : ℕ} (timeoutMs start sent : UInt32) :
    Triple Turn.Clean (Rest e first base n) (finalDrain timeoutMs start sent)
      fun _ => Rest e first base n := by
  refine (reads_flow _).bind fun drainStart => ?_
  refine Triple.loop (I := fun _ => Rest e first base n) (fun _ => ?_) ()
  refine (drainTurn_flow sent drainStart _).mono (fun s hs => hs) fun r s hs => ?_
  cases r <;> exact hs

/-! ## The verdict -/

/-- The thread has received the numbers below `blockCount`, once each and in order, with their
frames, and has taken nothing else from the output ring. -/
def Intact (e first : UInt32) (base : List Slot) (blockCount : UInt32) (s : Sys) : Prop :=
  ∃ l, s.consumed = base ++ l ∧ l.length = blockCount.toNat ∧ Numbered (IsAnswer e) 0 l ∧
    s.out.consumerIdx = first + blockCount

theorem Rest.intact {n : ℕ} {v : Locals} {s : Sys} (h : Rest e first base n s)
    (hle : n ≤ blockCount.toNat) (hpass : hasError blockCount v s.counters = false) :
    Intact e first base blockCount s := by
  obtain ⟨l, hl, hrecv⟩ := h
  unfold hasError at hpass
  rw [decide_eq_false_iff_not] at hpass
  have hflow := hl.flow
  have hcount : l.length ≤ n := by
    have := hflow.count
    omega
  have hrecv' : UInt32.ofNat l.length = blockCount := by
    rw [← hrecv]
    by_contra hne
    exact hpass (.inr (.inl hne))
  have hbound := blockCount.toNat_lt
  have hlen : l.length = blockCount.toNat := by
    have htoNat : (UInt32.ofNat l.length).toNat = l.length % 2 ^ 32 := UInt32.toNat_ofNat'
    rw [hrecv'] at htoNat
    omega
  refine ⟨l, hl.consumed, hlen, (Numbered.append_iff.1 hflow.answers).1, ?_⟩
  rw [hflow.consumer, hrecv']

theorem testEnds_flow {n : ℕ} :
    Triple Turn.Clean (Rest e first base n) (update fun s => { s with testActive := false })
      fun _ => Rest e first base n := by
  refine cpu_rest fun t s hs => ?_
  obtain ⟨l, hl, hrecv⟩ := hs
  exact ⟨l, ⟨hl.flow, hl.epoch, hl.flprEpoch, hl.requests, hl.consumed⟩, hrecv⟩

theorem verdict_flow (v : Locals) :
    Triple Turn.Clean (Sent e first base blockCount v)
      (cpu fun _ s => (hasError blockCount v s.counters, s))
      fun error s => error = false → Intact e first base blockCount s := by
  refine Triple.exists_pre fun n => Triple.of_pre (fun hn => ?_) fun s hs => hs.2
  refine Triple.mono ?_ (fun s hs => hs.1) fun error s hs => hs
  exact cpu_rest fun t s hs hpass => hs.intact hn.2 hpass

theorem runTest_flow (timeoutMs ratePerSec start : UInt32) :
    Triple Turn.Clean (Rest e first base 0) (runTest blockCount timeoutMs ratePerSec start)
      fun r s => r.1 = none → Intact e first base blockCount s := by
  refine drainSem_flow.bind fun _ => ?_
  refine sendMsg_flow.bind fun _ => ?_
  have hloop := Triple.loop (I := fun v => Sent e first base blockCount v)
    (Q := fun v => Sent e first base blockCount v)
    (fun v => (sendTurn_flow timeoutMs ratePerSec start v).mono (fun s hs => hs)
      fun r s hs => by cases r <;> exact hs) ⟨0, 0, false⟩
  refine Triple.bind (hloop.mono (fun s hs => ⟨0, hs, rfl, Nat.zero_le _⟩) fun v s hs => hs)
    fun v => ?_
  refine (sent_of_rest v fun n => finalDrain_flow timeoutMs start v.sent).bind fun _ => ?_
  refine (sent_of_rest v fun n => sendMsg_flow).bind fun _ => ?_
  refine (sent_of_rest v fun n => testEnds_flow).bind fun _ => ?_
  refine (sent_of_rest v fun n => reads_flow _).bind fun out => ?_
  refine (verdict_flow v).bind fun error => ?_
  refine Triple.pure fun s hs hret => hs ?_
  cases error with
  | false => rfl
  | true => cases hret

end

/-- No answer of the processor is an error. -/
def Clean (schedule : List Turn) : Prop := ∀ t ∈ schedule, t.Clean

/-- Both rings are empty, and the main loop has no slot in hand. -/
structure Sys.RingsEmpty (s : Sys) : Prop where
  inp : s.inp.load = 0
  out : s.out.load = 0
  flpr : s.flpr = .outside ∨ (∃ sf, s.flpr = .head sf) ∨ ∃ sf, s.flpr = .checked sf

/-- Both cores have the same epoch, and no request to change it is on its way. -/
structure Sys.Agreed (s : Sys) : Prop where
  epoch : s.flprEpoch = s.epoch
  requests : s.requests = []

theorem Sys.RingsEmpty.testing {s : Sys} (h : s.RingsEmpty) (ha : s.Agreed) :
    Testing s.epoch s.out.consumerIdx s.consumed 0 [] s := by
  have hinp := Ring.pending_eq_nil.2 h.inp
  have hout := Ring.pending_eq_nil.2 h.out
  have hload : ([] : List Slot).length + s.out.load = 0 := by
    rw [h.out]
    rfl
  have hflow : ∀ pc, waiting s.inp pc = [] → InHand s.epoch 0 s.inp s.out pc →
      Flow s.epoch s.out.consumerIdx 0 [] s.inp s.out pc := by
    intro pc hw hh
    refine ⟨?_, ?_, (UInt32.add_zero _).symm, ?_, ?_, ?_, ?_⟩
    · rw [h.inp]
      exact Nat.zero_le _
    · rw [h.out]
      exact Nat.zero_le _
    · rw [hout]
      exact Numbered.nil
    · rw [hw]
      exact Numbered.nil
    · rw [hw, hload]
      rfl
    · rw [hload]
      exact hh
  refine ⟨?_, rfl, ha.epoch, ha.requests, (List.append_nil _).symm⟩
  rcases h.flpr with hpc | ⟨sf, hpc⟩ | ⟨sf, hpc⟩ <;> rw [hpc] <;> exact hflow _ hinp trivial

section

variable {e first blockCount : UInt32} {base : List Slot}

/-- After the check for another test. -/
def Begun (e first : UInt32) (base : List Slot) : Bool → Sys → Prop
  | true => InFlow e first base 0 fun l _ => l = []
  | false => Rest e first base 0

theorem beginTest_flow :
    Triple Turn.Clean (InFlow e first base 0 fun l _ => l = []) (cpu fun _ s => s.beginTest)
      (Begun e first base) := by
  refine cpu_flow (fun l s s' _ hi => hi) fun t s l hl hi => ?_
  unfold Sys.beginTest
  by_cases hactive : s.testActive = true
  · rw [if_pos hactive]
    exact ⟨l, hl, hi⟩
  · rw [if_neg hactive]
    refine ⟨l, ⟨hl.flow, hl.epoch, hl.flprEpoch, hl.requests, hl.consumed⟩, ?_⟩
    rw [hi]
    rfl

theorem testRunRate_flow (timeoutMs ratePerSec : UInt32) :
    Triple Turn.Clean (InFlow e first base 0 fun l _ => l = [])
      (testRunRate blockCount timeoutMs ratePerSec)
      fun r s => r.1 = none → Intact e first base blockCount s := by
  have hread : ∀ {α : Type} (f : Turn → Sys → α),
      Triple Turn.Clean (InFlow e first base 0 fun l _ => l = []) (cpu fun t s => (f t s, s))
        fun _ => InFlow e first base 0 fun l _ => l = [] := by
    intro α f
    exact cpu_flow (fun l s s' _ hi => hi) fun t s l hl hi => ⟨l, hl, hi⟩
  have hfail : ∀ err : Errno, Triple Turn.Clean (InFlow e first base 0 fun l _ => l = [])
      (do
        let out ← cpu fun _ s => (s.counters, s)
        pure (some err, out))
      fun (r : Ret × TestCounters) s => r.1 = none → Intact e first base blockCount s := by
    intro err
    refine (hread _).bind fun out => Triple.pure fun s hs hret => ?_
    cases hret
  refine (hread _).bind fun start => ?_
  refine (hread _).bind fun usable => ?_
  refine Triple.ite (fun _ => hfail .again) fun _ => ?_
  refine beginTest_flow.bind fun active => ?_
  cases active with
  | true => exact hfail .busy
  | false => exact runTest_flow timeoutMs ratePerSec start

end

/-- **The ring test**: from empty rings, and where no answer of the processor is an error, a test
that passes has received every number below `blockCount` exactly once, in order, with the frames
generated for it. -/
theorem testRunRate_intact {blockCount timeoutMs ratePerSec : UInt32} {s s' : Sys}
    {schedule rest : List Turn} {out : TestCounters} (hagreed : s.Agreed) (hempty : s.RingsEmpty)
    (hclean : Clean schedule)
    (hrun : testRunRate blockCount timeoutMs ratePerSec (s, schedule) =
      some ((none, out), (s', rest))) :
    Intact s.epoch s.out.consumerIdx s.consumed blockCount s' :=
  (testRunRate_flow timeoutMs ratePerSec s schedule _ s' rest hclean
    ⟨[], hempty.testing hagreed, rfl⟩ hrun).1 rfl

/-! ## A test that passes -/

/-- An answer with the right metadata and payload passes the checks. -/
theorem verify_intact {q : UInt32} {c : Slot} (hq : c.slotMeta.sequence = q)
    (hframes : c.slotMeta.validFrames = 480)
    (hpayload : c.payload = padTo payloadCapacityBytes (genPayload (480 * 4) q))
    (hcrc : c.slotMeta.crc32 = crc32 (genPayload (480 * 4) q)) (s : Sys) : s.verify c = s := by
  have hlen := length_genPayload (480 * 4) q
  have htake := take_padTo payloadCapacityBytes (genPayload (480 * 4) q)
  rw [hlen, ← hpayload] at htake
  have hsize : 480 * 4 ≤ c.payload.length := by
    have := congrArg List.length htake
    rw [List.length_take, hlen] at this
    omega
  have hnone : verifyPayload c.payload (480 * 4) q = 0 := by
    rw [← UInt32.toNat_inj, toNat_verifyPayload (by decide) hsize]
    refine List.countP_eq_zero.2 fun f _ => ?_
    unfold firstByteDiffers
    rw [htake]
    simp
  have hmul : c.slotMeta.validFrames.toNat * 4 = 480 * 4 := by
    rw [hframes]
    rfl
  unfold Sys.verify Sys.count
  dsimp only
  by_cases hactive : s.testActive = true
  · rw [if_pos hactive, hmul, hq, hnone, htake, hcrc, if_neg fun h => h.2 rfl, UInt32.add_zero]
  · rw [if_neg hactive]

def emptyRing : Ring := ⟨1, 0, 0, 0, 0, fun _ => ⟨SlotMeta.zero, []⟩⟩

/-- Both cores with epoch `1`, and nothing in hand; one reset and one stall were acknowledged. -/
def idleSys (out : Ring) : Sys where
  inp := emptyRing
  out := out
  initialized := true
  epoch := 1
  flprEpoch := 1
  flpr := .outside
  stallFlags := 0
  stallProducer := false
  sem := 0
  testActive := false
  counters := .zero
  resetAck := ⟨⟨1, 1, 1, false, 2, 0⟩, false⟩
  stallAck := ⟨⟨0, 0, 1, false, 2, 0⟩, false⟩
  requests := []
  acks := []
  consumed := []

/-- A turn without moves. -/
def still : Turn := ⟨[], true, 1⟩

/-- The remote core answers one slot. -/
def answers (err : Option Offload.ProcessError) : Turn :=
  ⟨List.replicate 7 (.flpr 0 err), true, 1⟩

def firstRequest : Slot :=
  blockSlot SlotMeta.zero (genPayload payloadCapacityBytes 0) 480 0 0 true 1 1

/-- The test has begun. -/
def activeSys : Sys := { idleSys emptyRing with testActive := true }

/-- Behind the send loop. -/
def sentSys : Sys :=
  { activeSys with
    inp := (emptyRing.write 0 firstRequest).produceCommit
    counters := { TestCounters.zero with sent := 1 } }

/-- What the remote core answers. -/
def firstAnswer : Slot :=
  ⟨{ SlotMeta.zero with
      epoch := 1, validFrames := 480, flags := flagValid
      crc32 := crc32 (genPayload (480 * 4) 0), cpuTimestamp := 1 },
    padTo payloadCapacityBytes (genPayload (480 * 4) 0)⟩

/-- The remote core has answered. -/
def answeredSys : Sys :=
  { sentSys with
    inp := (emptyRing.write 0 firstRequest).produceCommit.consumeDone
    out := (emptyRing.write 0 firstAnswer).produceCommit
    flpr := .head 0 }

/-- The answer is received. -/
def receivedSys : Sys :=
  { answeredSys with
    out := answeredSys.out.consumeDone, consumed := [firstAnswer]
    counters := { TestCounters.zero with sent := 1, recv := 1 } }

theorem cpu_run {α : Type} {f : Turn → Sys → α × Sys} {s r : Sys} {t : Turn} {l : List Turn}
    {a : α} (h : f t (t.moves.foldl Sys.move s) = (a, r)) :
    cpu f (s, t :: l) = some (a, (r, l)) := by
  show some ((f t (t.moves.foldl Sys.move s)).1, ((f t (t.moves.foldl Sys.move s)).2, l)) = _
  rw [h]

theorem firstRequest_respond : respond firstRequest 0 none = firstAnswer := by
  have hlen := length_genPayload (480 * 4) 0
  unfold firstRequest firstAnswer
  rw [blockSlot_genPayload SlotMeta.zero 0 1 1]
  generalize genPayload (480 * 4) 0 = bytes at hlen
  rw [respond_none (flprAudioProcess_request rfl rfl hlen rfl)]
  rfl

theorem answers_sentSys : (answers none).moves.foldl Sys.move sentSys = answeredSys := by
  unfold answeredSys
  rw [← firstRequest_respond]
  rfl

theorem answeredSys_consumeBegin : answeredSys.consumeBegin = (.inr 0, answeredSys) := by
  have hused : used answeredSys.out.producerIdx answeredSys.out.consumerIdx = 1 := rfl
  have hbegin : answeredSys.out.consumeBegin 1 = (answeredSys.out, .slot 0) := by
    unfold Ring.consumeBegin
    rw [hused, if_neg (by decide)]
    exact if_neg fun h => h.2.2 rfl
  unfold Sys.consumeBegin
  rw [show answeredSys.out.consumeBegin answeredSys.epoch = _ from hbegin]

/-! ### Its steps -/

variable (rest : List Turn)

theorem produceBatch_first :
    produceBatch 1 batchMax ⟨0, 0, false⟩ 0 (activeSys, List.replicate 6 still ++ rest) =
      some ((⟨1, 0, false⟩, 1), (sentSys, rest)) := by
  have hblock : produceBlock (genPayload payloadCapacityBytes 0) 480 0 0 true
      (activeSys, List.replicate 5 still ++ still :: rest) =
      some (.ok, ({ activeSys with inp := (emptyRing.write 0 firstRequest).produceCommit },
        still :: rest)) := by
    unfold produceBlock
    rw [if_neg (by decide)]
    refine (bind_run (cpu_run (a := false) (r := activeSys) rfl)).trans ?_
    rw [if_neg (by decide)]
    refine (bind_run (cpu_run (a := 1) (r := activeSys) rfl)).trans ?_
    rw [if_neg (by decide)]
    refine (bind_run (cpu_run (a := some 0) (r := activeSys) rfl)).trans ?_
    refine (bind_run (cpu_run (a := ())
      (r := { activeSys with inp := emptyRing.write 0 firstRequest }) rfl)).trans ?_
    exact (bind_run (cpu_run (a := ()) rfl)).trans rfl
  rw [show batchMax = 3 + 1 from rfl, produceBatch, if_pos (by decide)]
  refine (bind_run hblock).trans ?_
  refine (bind_run (a := ⟨1, 0, false⟩) (y := (sentSys, rest)) ?_).trans ?_
  · unfold noteSent
    rw [if_neg (by decide)]
    exact (bind_run (cpu_run (a := ()) rfl)).trans rfl
  · rfl

theorem sendTurn_first :
    sendTurn 1 60003 0 1 ⟨0, 0, false⟩ (activeSys, List.replicate 9 still ++ rest) =
      some (.inr ⟨1, 0, false⟩, (sentSys, rest)) := by
  have houtput : drainOutput (activeSys, still :: (List.replicate 6 still ++ still :: rest)) =
      some (false, (activeSys, List.replicate 6 still ++ still :: rest)) := by
    have hempty : consumeBlock (activeSys, still :: (List.replicate 6 still ++ still :: rest)) =
        some (.empty, (activeSys, List.replicate 6 still ++ still :: rest)) :=
      (bind_run (cpu_run (a := .inl .empty) (r := activeSys) rfl)).trans rfl
    unfold drainOutput
    rw [loop_run rfl]
    exact loopUpTo_inl ((bind_run hempty).trans rfl) _
  unfold sendTurn
  rw [if_pos (by decide)]
  refine (bind_run (cpu_run (a := 1) (r := activeSys) rfl)).trans ?_
  rw [if_neg (by decide)]
  refine (bind_run houtput).trans ?_
  refine (bind_run (produceBatch_first (still :: rest))).trans ?_
  exact (bind_run (cpu_run (a := true) (r := sentSys) rfl)).trans rfl

theorem sendLoop_first :
    Scheduled.loop (sendTurn 1 60003 0 1) ⟨0, 0, false⟩
      (activeSys, List.replicate 9 still ++ rest) = some (⟨1, 0, false⟩, (sentSys, rest)) := by
  have hlen : (List.replicate 9 still ++ rest).length = rest.length + 8 + 1 := by
    rw [List.length_append, List.length_replicate]
    omega
  rw [loop_run hlen, loopUpTo_inr (sendTurn_first rest)]
  exact loopUpTo_inl rfl _

theorem consumeBlock_first :
    consumeBlock (sentSys, answers none :: (List.replicate 4 still ++ rest)) =
      some (.ok, (receivedSys, rest)) := by
  have hvalid : ¬ firstAnswer.slotMeta.validFrames.toNat > payloadCapacityFrames := by
    show ¬ (480 : UInt16).toNat > 481
    decide
  have hpayload : firstAnswer.payload = padTo payloadCapacityBytes (genPayload (480 * 4) 0) := by
    dsimp only [firstAnswer]
  have hcrc : firstAnswer.slotMeta.crc32 = crc32 (genPayload (480 * 4) 0) := by
    dsimp only [firstAnswer]
  have hverify : answeredSys.verify firstAnswer = answeredSys :=
    verify_intact rfl rfl hpayload hcrc _
  unfold consumeBlock
  refine (bind_run (cpu_run (a := .inr 0) (r := answeredSys) ?_)).trans ?_
  · rw [answers_sentSys]
    exact answeredSys_consumeBegin
  refine (bind_run (cpu_run (a := firstAnswer) (r := answeredSys) rfl)).trans ?_
  rw [if_neg hvalid]
  refine (bind_run (cpu_run (a := ()) (r := answeredSys) ?_)).trans ?_
  · exact congrArg (Prod.mk ()) hverify
  · rfl

theorem finalDrain_first :
    finalDrain 60003 1 1
      (sentSys, still :: still :: answers none :: (List.replicate 6 still ++ rest)) =
      some ((), (receivedSys, rest)) := by
  have hblock := consumeBlock_first (still :: still :: rest)
  have hempty : consumeBlock (receivedSys, still :: still :: rest) =
      some (.empty, (receivedSys, still :: rest)) :=
    (bind_run (cpu_run (a := .inl .empty) (r := receivedSys) rfl)).trans rfl
  have houtput :
      drainOutput (sentSys, answers none :: (List.replicate 4 still ++ still :: still :: rest)) =
        some (true, (receivedSys, still :: rest)) := by
    unfold drainOutput
    rw [loop_run rfl,
      loopUpTo_inr (c := true) (y := (receivedSys, still :: still :: rest))]
    · exact loopUpTo_inl ((bind_run hempty).trans rfl) _
    · exact (bind_run hblock).trans rfl
  unfold finalDrain
  refine (bind_run (cpu_run (a := 1) (r := sentSys) rfl)).trans ?_
  refine loopUpTo_inl ?_ _
  unfold drainTurn
  refine (bind_run (cpu_run (a := 1) (r := sentSys) rfl)).trans ?_
  rw [if_pos (by decide)]
  refine (bind_run houtput).trans ?_
  exact (bind_run (cpu_run (a := 1) (r := receivedSys) rfl)).trans rfl

/-- One block that goes through. -/
def oneBlock : List Turn := List.replicate 16 still ++ answers none :: List.replicate 10 still

theorem testRunRate_one :
    testRunRate 1 60003 0 (idleSys emptyRing, oneBlock ++ rest) =
      some ((none, receivedSys.counters), ({ receivedSys with testActive := false }, rest)) := by
  have hdrainSem : ∀ l, drainSem (activeSys, still :: l) = some ((), (activeSys, l)) := by
    intro l
    have hwait : waitConsume (activeSys, still :: l) = some (false, (activeSys, l)) := cpu_run rfl
    unfold drainSem
    rw [loop_run rfl]
    refine loopUpTo_inl ?_ _
    exact (bind_run hwait).trans rfl
  unfold testRunRate
  refine (bind_run (cpu_run (a := 1) (r := idleSys emptyRing) rfl)).trans ?_
  refine (bind_run (cpu_run (a := true) (r := idleSys emptyRing) rfl)).trans ?_
  rw [if_neg (by decide)]
  refine (bind_run (cpu_run (a := false) (r := activeSys) rfl)).trans ?_
  rw [if_neg (by decide)]
  unfold runTest
  refine (bind_run (hdrainSem _)).trans ?_
  refine (bind_run (cpu_run (a := true) (r := activeSys) rfl)).trans ?_
  refine (bind_run (sendLoop_first _)).trans ?_
  refine (bind_run (finalDrain_first (List.replicate 4 still ++ rest))).trans ?_
  refine (bind_run (cpu_run (a := true) (r := receivedSys) rfl)).trans ?_
  refine (bind_run (cpu_run (a := ()) (r := { receivedSys with testActive := false }) rfl)).trans ?_
  refine (bind_run (cpu_run (a := receivedSys.counters) rfl)).trans ?_
  exact (bind_run (cpu_run (a := false) rfl)).trans rfl

/-- One block. -/
theorem testRunRate_intact_one :
    ∃ out s', testRunRate 1 60003 0 (idleSys emptyRing, oneBlock) = some ((none, out), (s', [])) ∧
      Intact 1 0 [] 1 s' := by
  have hrun := testRunRate_one []
  rw [List.append_nil] at hrun
  have hclean : Clean oneBlock := by
    intro t ht m hm
    rcases List.mem_append.1 ht with ht | ht
    · rw [(List.mem_replicate.1 ht).2] at hm
      cases hm
    · rcases List.mem_cons.1 ht with rfl | ht
      · rw [(List.mem_replicate.1 hm).2]
        trivial
      · rw [(List.mem_replicate.1 ht).2] at hm
        cases hm
  exact ⟨_, _, hrun, testRunRate_intact ⟨rfl, rfl⟩ ⟨by decide, by decide, .inl rfl⟩ hclean hrun⟩

/-! ## What is counted -/

/-- The answer to a request that the processor rejected, in an output ring. -/
def leftover : Slot :=
  respond ⟨{ SlotMeta.zero with sequence := 7, epoch := 1 }, []⟩ 0 (some .badFrames)

/-- Every received slot of an intact test carries 480 frames. -/
theorem Intact.frames {e first blockCount : UInt32} {s : Sys} (h : Intact e first [] blockCount s) :
    ∀ c ∈ s.consumed, c.slotMeta.validFrames = 480 := by
  obtain ⟨l, hconsumed, -, hnumbered, -⟩ := h
  intro c hc
  rw [hconsumed, List.nil_append] at hc
  obtain ⟨k, hk⟩ := List.getElem?_of_mem hc
  exact (hnumbered k c hk).frames

theorem not_intact {result : Option ((Ret × TestCounters) × Sys × List Turn)}
    (h : (result.map fun r => (r.1.1, r.2.2, r.2.1.consumed.map fun c => c.slotMeta.validFrames)) =
      some (none, [], [0])) :
    ∃ out s', result = some ((none, out), (s', [])) ∧ ¬ Intact 1 0 [] 1 s' := by
  obtain ⟨⟨⟨ret, out⟩, s', rest⟩, hresult, heq⟩ := Option.map_eq_some_iff.1 h
  obtain ⟨rfl, heq⟩ := Prod.mk.inj heq
  obtain ⟨rfl, hframes⟩ := Prod.mk.inj heq
  refine ⟨out, s', hresult, fun hintact => ?_⟩
  have hmem : (0 : UInt16) ∈ s'.consumed.map fun c => c.slotMeta.validFrames := by
    rw [hframes]
    exact List.mem_singleton_self 0
  obtain ⟨c, hc, hzero⟩ := List.mem_map.1 hmem
  rw [hintact.frames c hc] at hzero
  exact absurd hzero (by decide)

/-- **What a passed test does not say**: a slot that was left in the output ring counts as the
answer to the only block, although that is never answered, and so does the answer of a processor
that failed. -/
theorem counted_anyway :
    (∃ out s', testRunRate 1 1000 0
        (idleSys (emptyRing.write 0 leftover).produceCommit, List.replicate 27 still) =
        some ((none, out), (s', [])) ∧ ¬ Intact 1 0 [] 1 s') ∧
      ∃ out s', testRunRate 1 1000 0 (idleSys emptyRing,
        List.replicate 16 still ++ answers (some .state) :: List.replicate 10 still) =
        some ((none, out), (s', [])) ∧ ¬ Intact 1 0 [] 1 s' :=
  ⟨not_intact (by decide +kernel), not_intact (by decide +kernel)⟩

end Acceptance

end LeAudioReceiver
