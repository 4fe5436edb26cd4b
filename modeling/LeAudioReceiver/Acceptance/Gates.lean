import LeAudioReceiver.Acceptance.Intact

/-!
# The acceptance gates

A model of `flpr_acceptance_run_gates` in `src/flpr_acceptance.c`, with the coordinated reset of
`src/flpr_ring_mgr.c` and the stall requests.  The lines that it prints are left out.

The coordinated reset clears the rings and the tokens, but no counter of a test: gate 2 wants
`test_blocks_sent` to be `0` and finds there what gate 1 has sent.

* `gateOne_sent`, `gateTwo_fails` : so gate 2 fails where gate 1 passes;
* `runGates_never` : and no run of the gates returns `0`.
-/

namespace LeAudioReceiver

namespace Acceptance

open FlprRing
open Scheduled (Triple Keeps bind_run)

/-! ## Requests with acknowledgements -/

/-- The instances of the acknowledgement engine. -/
inductive Instance where
  | reset
  | stall
  deriving DecidableEq

namespace Sys

def ack (s : Sys) : Instance → Ack
  | .reset => s.resetAck
  | .stall => s.stallAck

def setAck (s : Sys) (i : Instance) (a : Ack) : Sys :=
  match i with
  | .reset => { s with resetAck := a }
  | .stall => { s with stallAck := a }

/-- `flpr_control_ack_disarm`. -/
def disarm (s : Sys) (i : Instance) : Sys :=
  s.setAck i { s.ack i with ctl := (s.ack i).ctl.disarm }

/-- A take of the semaphore of instance `i`. -/
def takeAck (s : Sys) (i : Instance) : Bool × Sys :=
  ((s.ack i).sem, s.setAck i { s.ack i with sem := false })

/-- `flpr_control_ack_arm`; no token is `-EOVERFLOW`. -/
def armAck (s : Sys) (i : Instance) (expectedData : UInt32) : Option UInt16 × Sys :=
  match (s.ack i).ctl.arm expectedData with
  | none => (none, s)
  | some (ctl, token) => (some token, s.setAck i { s.ack i with ctl := ctl })

end Sys

/-- `flpr_control_ack_begin`. -/
def ackBegin (i : Instance) : Prog Unit := do
  update fun s => s.disarm i
  Scheduled.loop (fun _ => do
    let taken ← cpu fun _ s => s.takeAck i
    if taken then pure (.inr ()) else pure (.inl ())) ()

/-- `flpr_control_ack_wait`; the timeout passes in the moves before the take. -/
def ackWait (i : Instance) (expectedData : UInt32) : Prog Ret := do
  let taken ← cpu fun _ s => s.takeAck i
  if ¬ taken then do
    update fun s => s.disarm i
    pure (some .timedout)
  else do
    let payload ← cpu fun _ s => ((s.ack i).ctl.payload, s)
    if payload ≠ expectedData then pure (some .io) else pure none

/-- `flpr_handshake_send_msg` with a request. -/
def sendControl (m : Control) : Prog Bool :=
  cpu fun t s => if t.ok then (true, { s with requests := s.requests ++ [m] }) else (false, s)

/-- A request from `flpr_control_ack_begin` to `flpr_control_ack_wait`; `unsent` is returned where
the message was not sent. -/
def requestAck (i : Instance) (data : UInt32) (m : UInt16 → Control) (unsent : Errno) : Prog Ret :=
  do
  ackBegin i
  match ← cpu fun _ s => s.armAck i data with
  | none => pure (some .overflow)
  | some token => do
    let sent ← sendControl (m token)
    if ¬ sent then do
      update fun s => s.disarm i
      pure (some unsent)
    else ackWait i data

/-! ## The coordinated reset -/

/-- `flpr_ring_mgr_reset_locked`. -/
def resetLocked (newEpoch : UInt32) : Prog Ret :=
  if newEpoch = 0 then pure (some .inval)
  else do
    update fun s => { s with epoch := 0 }
    let inpOk ← cpu fun _ s =>
      match s.inp.resetEpoch newEpoch with
      | none => (false, s)
      | some r => (true, { s with inp := r })
    let outOk ← cpu fun _ s =>
      match s.out.resetEpoch newEpoch with
      | none => (false, s)
      | some r => (true, { s with out := r })
    if ¬ inpOk ∨ ¬ outOk then pure (some .inval)
    else do
      drainSem
      update fun s => { s with epoch := newEpoch }
      pure none

/-- `flpr_ring_mgr_coordinated_reset` behind the choice of the epoch. -/
def resetTo (newEpoch : UInt32) : Prog Ret :=
  if newEpoch = 0 then pure (some .inval)
  else do
    match ← requestAck .reset newEpoch (fun token => .reset token newEpoch) .io with
    | some err => pure (some err)
    | none => resetLocked newEpoch

/-- `flpr_ring_mgr_coordinated_reset`; its first turn says whether the handshake is ready and
acknowledged. -/
def coordinatedReset (newEpoch : UInt32) : Prog Ret := do
  let ready ← sendMsg
  if ¬ ready then pure (some .again)
  else if newEpoch = 0 then do
    let cycles ← clock
    resetTo cycles
  else resetTo newEpoch

/-! ## Stalls -/

/-- `FLPR_STALL_PACK`. -/
def stallPack (stallBits : UInt8) (durationMs : UInt32) : UInt32 :=
  (durationMs <<< 8) ||| stallBits.toUInt32

/-- `flpr_acceptance_flpr_stall`. -/
def flprStall (stallBits : UInt8) : Prog Ret :=
  requestAck .stall (stallPack stallBits 0) (fun token => .stall token (stallPack stallBits 0))
    .send

/-- `flpr_acceptance_stall_producer`. -/
def stallProducer (enable : Bool) : Prog Unit :=
  update fun s => { s with stallProducer := enable }

/-- `flpr_acceptance_get_status`. -/
def getStatus : Prog TestCounters := cpu fun _ s => (s.counters, s)

/-! ## The gates -/

/-- `n` blocks from number `i` on, without a CRC; `note` is what follows each of them. -/
def gateBlocks {β : Type} (note : ℕ → Produce → β → Prog β) : ℕ → ℕ → β → Prog β
  | 0, _, b => pure b
  | n + 1, i, b => do
    let result ← produceBlock (genPayload payloadCapacityBytes (UInt32.ofNat i)) 480
      (UInt32.ofNat i) 0 false
    let b ← note i result b
    gateBlocks note n (i + 1) b

/-- The drain of gates 3 and 4: the number of received blocks. -/
def gateDrain (limit : ℕ) : Prog ℕ := do
  let drainStart ← clock
  Scheduled.loop (fun recv => do
    let now ← clock
    if now - drainStart < 5000 ∧ recv < limit then do
      match ← consumeBlock with
      | .ok => pure (.inr (recv + 1))
      | _ => do
        let _ ← waitConsume
        pure (.inr recv)
    else pure (.inl recv)) 0

/-- Gate 1, normal loopback; whether it fails. -/
def gateOne (count : UInt32) : Prog Bool := do
  let _ ← clock
  let timeout := count * 3 + 60000
  let timeout := if timeout < 60000 then 60000 else timeout
  let (r, s) ← testRun count timeout
  let _ ← clock
  pure (decide (¬ (r = none ∧ s.sent = count ∧ s.payloadErrors = 0 ∧ s.crcErrors = 0 ∧
    s.staleEvents = 0 ∧ s.backpressure = 0)))

/-- Gate 2, producer stall and resume. -/
def gateTwo : Prog Bool := do
  stallProducer false
  match ← coordinatedReset 0 with
  | some _ => pure true
  | none => do
    stallProducer true
    let fullCnt ← gateBlocks (fun _ r n => pure (if r = .full then n + 1 else n)) 10 0 0
    stallProducer false
    let s ← getStatus
    if s.sent > 0 ∨ fullCnt ≠ 10 then pure true
    else do
      let (r2, s2) ← testRun 100 15000
      pure (decide (¬ (r2 = none ∧ s2.recv = 100 ∧ s2.payloadErrors = 0)))

/-- The reset in front of gates 3 to 5. -/
def cleanReset : Prog Ret := do
  stallProducer false
  let _ ← flprStall 0
  coordinatedReset 0

/-- Gate 3, input-consumer stall. -/
def gateThree : Prog Bool := do
  match ← cleanReset with
  | some _ => pure true
  | none => do
    match ← flprStall stallConsumerInput with
    | some _ => pure true
    | none => do
      let (ok, fullAfter) ← gateBlocks (fun i r (n : ℕ × ℕ) => pure
        (if i < 4 ∧ r = .ok then (n.1 + 1, n.2)
        else if i ≥ 4 ∧ r = .full then (n.1, n.2 + 1)
        else n)) 10 0 (0, 0)
      let _ ← flprStall 0
      let recv ← gateDrain 4
      pure (decide (ok ≠ 4 ∨ fullAfter < 2 ∨ recv ≠ 4))

/-- Gate 4, output-producer stall. -/
def gateFour : Prog Bool := do
  match ← cleanReset with
  | some _ => pure true
  | none => do
    match ← flprStall stallProducerOutput with
    | some _ => pure true
    | none => do
      let full ← gateBlocks (fun _ r n =>
        if r = .ok then do
          let _ ← notifyProducer
          pure n
        else pure (n + 1)) 10 0 0
      let _ ← getStatus
      let _ ← flprStall 0
      let recv ← gateDrain 10
      pure (decide (¬ (full ≥ 2 ∧ recv ≥ 3)))

/-- `flpr_acceptance_produce_stale_test`. -/
def produceStaleTest (staleEpoch : UInt32) : Prog Ret := do
  let initialized ← cpu fun _ s => (s.initialized, s)
  if ¬ initialized then pure (some .again)
  else if staleEpoch = 0 then pure (some .inval)
  else do
    match ← cpu fun _ s => (s.out.produceBegin.2, { s with out := s.out.produceBegin.1 }) with
    | none => pure (some .nospc)
    | some idx => do
      update fun s => { s with
        out := s.out.write idx ⟨{ SlotMeta.zero with epoch := staleEpoch, flags := flagValid },
          List.replicate payloadCapacityBytes 0⟩ }
      update fun s => { s with out := s.out.produceCommit }
      pure none

/-- Gate 5, injection of a stale epoch and recovery. -/
def gateFive : Prog Bool := do
  match ← cleanReset with
  | some _ => pure true
  | none => do
    let epoch ← cpu fun _ s => (s.epoch, s)
    match ← produceStaleTest (epoch + 31337) with
    | some _ => pure true
    | none => do
      let _ ← consumeBlock
      let s5 ← getStatus
      if s5.staleEvents = 1 then do
        let (r, s) ← testRun 100 15000
        pure (decide (¬ (r = none ∧ s.recv = 100)))
      else pure true

/-- Gate 6, explicit empty. -/
def gateSix : Prog Bool :=
  cpu fun _ s => (decide (¬ (used s.inp.producerIdx s.inp.consumerIdx = 0 ∧
    used s.out.producerIdx s.out.consumerIdx = 0)), s)

/-- What comes before gate 1. -/
def gatesBegin : Prog Ret := do
  match ← coordinatedReset 0 with
  | some err => pure (some err)
  | none => do
    stallProducer false
    let _ ← flprStall 0
    pure none

/-- `flpr_acceptance_run_gates`. -/
def runGates (count : UInt32) : Prog Ret := do
  match ← gatesBegin with
  | some err => pure (some err)
  | none => do
    let fail₁ ← gateOne count
    let fail₂ ← gateTwo
    let fail₃ ← gateThree
    let fail₄ ← gateFour
    let fail₅ ← gateFive
    let fail₆ ← gateSix
    pure (if fail₁ ∨ fail₂ ∨ fail₃ ∨ fail₄ ∨ fail₅ ∨ fail₆ then some .failed else none)

/-! ## What keeps the count of sent blocks -/

/-- `test_blocks_sent`. -/
def blocksSent (s : Sys) : UInt32 := s.counters.sent

theorem flprStep_counters (s : Sys) (cycles : UInt32) (err : Option Offload.ProcessError) :
    (s.flprStep cycles err).counters = s.counters := by
  unfold Sys.flprStep
  cases s.flpr with
  | head sf =>
    dsimp only
    split_ifs <;> rfl
  | checked sf =>
    dsimp only
    split <;> rfl
  | claimed sf i =>
    dsimp only
    split <;> rfl
  | _ => rfl

theorem flprReceive_counters (s : Sys) (m : Control) :
    (s.flprReceive m).1.counters = s.counters := by
  cases m with
  | reset seq data =>
    show (s.flprReset seq data).1.counters = _
    unfold Sys.flprReset
    split
    · rfl
    · split <;> rfl
  | stall seq data => rfl

/-- The counters of a test belong to the thread. -/
theorem move_counters (s : Sys) (m : Move) : (s.move m).counters = s.counters := by
  cases m with
  | flpr cycles err => exact flprStep_counters s cycles err
  | request sent =>
    unfold Sys.move
    cases hs : s.requests with
    | nil => rfl
    | cons m ms =>
      have hreceive := flprReceive_counters { s with requests := ms } m
      dsimp only
      cases sent <;> exact hreceive
  | ack =>
    unfold Sys.move
    cases s.acks with
    | nil => rfl
    | cons a acks => cases a <;> rfl
  | consumer data =>
    unfold Sys.move Sys.onRingConsumer
    dsimp only
    split_ifs <;> rfl

theorem moves_counters (s : Sys) (ms : List Move) :
    (ms.foldl Sys.move s).counters = s.counters := by
  induction ms generalizing s with
  | nil => rfl
  | cons m ms ih => exact (ih (s.move m)).trans (move_counters s m)

theorem keeps_cpu {α : Type} {f : Turn → Sys → α × Sys}
    (h : ∀ t s, (f t s).2.counters.sent = s.counters.sent) : Keeps blocksSent (cpu f) := by
  refine Keeps.step fun t s => ?_
  unfold blocksSent
  rw [h, moves_counters]

theorem keeps_setAck (s : Sys) (i : Instance) (a : Ack) : (s.setAck i a).counters = s.counters := by
  cases i <;> rfl

theorem keeps_requestAck (i : Instance) (data : UInt32) (m : UInt16 → Control) (unsent : Errno) :
    Keeps blocksSent (requestAck i data m unsent) := by
  have hdisarm : Keeps blocksSent (update fun s => s.disarm i) :=
    keeps_cpu fun t s => congrArg TestCounters.sent (keeps_setAck s i _)
  have htake : Keeps blocksSent (cpu fun _ s => s.takeAck i) :=
    keeps_cpu fun t s => congrArg TestCounters.sent (keeps_setAck s i _)
  refine Keeps.bind ?_ fun _ => ?_
  · refine hdisarm.bind fun _ => Keeps.loop (fun _ => ?_) ()
    refine htake.bind fun taken => ?_
    exact Keeps.ite (Keeps.pure _) (Keeps.pure _)
  · refine Keeps.bind (keeps_cpu fun t s => ?_) fun token => ?_
    · unfold Sys.armAck
      split
      · rfl
      · exact congrArg TestCounters.sent (keeps_setAck s i _)
    · cases token with
      | none => exact Keeps.pure _
      | some token =>
        refine Keeps.bind (keeps_cpu fun t s => ?_) fun sent => ?_
        · split_ifs <;> rfl
        · refine Keeps.ite (hdisarm.bind fun _ => Keeps.pure _) ?_
          refine htake.bind fun taken => ?_
          refine Keeps.ite (hdisarm.bind fun _ => Keeps.pure _) ?_
          refine (keeps_cpu fun t s => rfl).bind fun payload => ?_
          exact Keeps.ite (Keeps.pure _) (Keeps.pure _)

theorem keeps_drainSem : Keeps blocksSent drainSem := by
  refine Keeps.loop (fun _ => Keeps.bind (keeps_cpu fun t s => ?_) fun taken => ?_) ()
  · split_ifs <;> rfl
  · exact Keeps.ite (Keeps.pure _) (Keeps.pure _)

theorem keeps_resetLocked (newEpoch : UInt32) : Keeps blocksSent (resetLocked newEpoch) := by
  refine Keeps.ite (Keeps.pure _) ?_
  refine (keeps_cpu fun t s => rfl).bind fun _ => ?_
  refine Keeps.bind (keeps_cpu fun t s => ?_) fun inpOk => ?_
  · split <;> rfl
  refine Keeps.bind (keeps_cpu fun t s => ?_) fun outOk => ?_
  · split <;> rfl
  refine Keeps.ite (Keeps.pure _) ?_
  refine keeps_drainSem.bind fun _ => ?_
  exact (keeps_cpu fun t s => rfl).bind fun _ => Keeps.pure _

theorem keeps_resetTo (newEpoch : UInt32) : Keeps blocksSent (resetTo newEpoch) := by
  refine Keeps.ite (Keeps.pure _) ?_
  refine (keeps_requestAck _ _ _ _).bind fun r => ?_
  cases r with
  | none => exact keeps_resetLocked newEpoch
  | some err => exact Keeps.pure _

theorem keeps_coordinatedReset (newEpoch : UInt32) :
    Keeps blocksSent (coordinatedReset newEpoch) := by
  refine (keeps_cpu fun t s => rfl).bind fun ready => ?_
  refine Keeps.ite (Keeps.pure _) (Keeps.ite ?_ (keeps_resetTo newEpoch))
  exact (keeps_cpu fun t s => rfl).bind fun cycles => keeps_resetTo cycles

theorem keeps_stallProducer (enable : Bool) : Keeps blocksSent (stallProducer enable) := by
  unfold stallProducer
  exact keeps_cpu fun _ _ => rfl

theorem keeps_produceBlock (pcmData : List UInt8) (validFrames : UInt16) (sequence : UInt32)
    (correctionPpm : Int32) (computeCrc : Bool) :
    Keeps blocksSent (produceBlock pcmData validFrames sequence correctionPpm computeCrc) := by
  refine Keeps.ite (Keeps.pure _) ?_
  refine Keeps.bind (keeps_cpu fun t s => ?_) fun stalled => ?_
  · unfold Sys.checkStall
    split_ifs <;> rfl
  refine Keeps.ite (Keeps.pure _) ?_
  refine (keeps_cpu fun t s => rfl).bind fun epoch => ?_
  refine Keeps.ite (Keeps.pure _) ?_
  refine Keeps.bind (keeps_cpu fun t s => ?_) fun idx => ?_
  · unfold Sys.produceBegin
    split <;> rfl
  cases idx with
  | none => exact Keeps.pure _
  | some idx =>
    refine (keeps_cpu fun t s => rfl).bind fun _ => ?_
    exact (keeps_cpu fun t s => rfl).bind fun _ => Keeps.pure _

theorem keeps_gateBlocks {β : Type} {note : ℕ → Produce → β → Prog β}
    (h : ∀ i r b, Keeps blocksSent (note i r b)) (n i : ℕ) (b : β) :
    Keeps blocksSent (gateBlocks note n i b) := by
  induction n generalizing i b with
  | zero => exact Keeps.pure b
  | succ n ih =>
    refine (keeps_produceBlock _ _ _ _ _).bind fun r => ?_
    exact (h i r b).bind fun b' => ih (i + 1) b'

/-! ## The verdict of gate 2 -/

theorem testRunRate_status (blockCount timeoutMs ratePerSec : UInt32) :
    Triple (fun _ => True) (fun _ => True) (testRunRate blockCount timeoutMs ratePerSec)
      fun r s => r.2.sent = blocksSent s := by
  have hstatus : Triple (fun _ : Turn => True) (fun _ => True) (cpu fun _ s => (s.counters, s))
      fun out s => out.sent = blocksSent s := Triple.step fun t s _ _ => rfl
  have hend : ∀ err : Errno, Triple (fun _ => True) (fun _ => True)
      (do
        let out ← cpu fun _ s => (s.counters, s)
        pure (some err, out))
      fun (r : Ret × TestCounters) s => r.2.sent = blocksSent s := by
    intro err
    exact hstatus.bind fun out => Triple.pure fun s hs => hs
  refine Triple.trivial.bind fun start => Triple.trivial.bind fun usable => ?_
  refine Triple.ite (fun _ => hend .again) fun _ => ?_
  refine Triple.trivial.bind fun active => ?_
  refine Triple.ite (fun _ => hend .busy) fun _ => ?_
  refine Triple.trivial.bind fun _ => Triple.trivial.bind fun _ => Triple.trivial.bind fun v => ?_
  refine Triple.trivial.bind fun _ => Triple.trivial.bind fun _ => Triple.trivial.bind fun _ => ?_
  refine hstatus.bind fun out => ?_
  refine Triple.bind (R := fun _ s => out.sent = blocksSent s) ?_ fun error => ?_
  · refine Triple.step fun t s _ hs => ?_
    show out.sent = (t.moves.foldl Sys.move s).counters.sent
    rw [moves_counters]
    exact hs
  · exact Triple.pure fun s hs => hs

/-- Gate 1 passes only with all blocks sent. -/
theorem gateOne_sent (count : UInt32) :
    Triple (fun _ => True) (fun _ => True) (gateOne count)
      fun fail s => fail = true ∨ blocksSent s = count := by
  refine Triple.trivial.bind fun _ => ?_
  refine (testRunRate_status _ _ _).bind fun r => ?_
  obtain ⟨r, out⟩ := r
  refine Triple.bind (R := fun _ s => out.sent = blocksSent s) ?_
    fun _ => Triple.pure fun s hs => ?_
  · exact (keeps_cpu (f := fun t s => (t.reading, s)) (fun t s => rfl) _).mono
      (fun s hs => hs.symm) fun _ s hs => hs.symm
  · rw [← hs, decide_eq_true_eq]
    by_contra hnot
    obtain ⟨hpass, hsent⟩ := not_or.1 hnot
    exact hsent (not_not.1 hpass).2.1

/-- **Gate 2** does not pass behind blocks that were sent. -/
theorem gateTwo_fails {count : UInt32} (hcount : 0 < count) :
    Triple (fun _ => True) (fun s => blocksSent s = count) gateTwo fun fail _ => fail = true := by
  refine (keeps_stallProducer false count).bind fun _ => ?_
  refine (keeps_coordinatedReset 0 count).bind fun r => ?_
  cases r with
  | some err => exact Triple.pure fun s hs => rfl
  | none =>
    refine (keeps_stallProducer true count).bind fun _ => ?_
    refine (keeps_gateBlocks (fun i r b => Keeps.pure _) 10 0 0 count).bind fun fullCnt => ?_
    refine (keeps_stallProducer false count).bind fun _ => ?_
    refine Triple.bind (R := fun status _ => status.sent = count) ?_ fun status => ?_
    · unfold getStatus
      refine Triple.step fun t s _ hs => ?_
      show (t.moves.foldl Sys.move s).counters.sent = count
      rw [moves_counters]
      exact hs
    · refine Triple.of_pre (fun hsent => ?_) fun s hs => hs
      refine Triple.ite (fun _ => Triple.pure fun s hs => rfl) fun hnot => ?_
      rw [hsent] at hnot
      exact absurd (.inl hcount) hnot

theorem runGates_fails {count : UInt32} (hcount : 1 ≤ count) :
    Triple (fun _ => True) (fun _ => True) (runGates count) fun ret _ => ret ≠ none := by
  have hpos : 0 < count := by
    rw [UInt32.lt_iff_toNat_lt]
    exact UInt32.le_iff_toNat_le.1 hcount
  refine Triple.trivial.bind fun r => ?_
  cases r with
  | some err => exact Triple.pure fun s hs => Option.some_ne_none err
  | none =>
    refine (gateOne_sent count).bind fun fail₁ => ?_
    refine Triple.bind (R := fun fail₂ _ => fail₁ = true ∨ fail₂ = true) ?_ fun fail₂ => ?_
    · cases fail₁ with
      | true => exact Triple.trivial.mono (fun s hs => hs) fun _ s hs => .inl rfl
      | false =>
        refine (gateTwo_fails hpos).mono (fun s hs => ?_) fun _ s hs => .inr hs
        exact hs.resolve_left Bool.false_ne_true
    · refine Triple.of_pre (fun hfail => ?_) fun s hs => hs
      refine Triple.trivial.bind fun fail₃ => Triple.trivial.bind fun fail₄ => ?_
      refine Triple.trivial.bind fun fail₅ => Triple.trivial.bind fun fail₆ => ?_
      refine Triple.pure fun s hs => ?_
      rw [if_pos (by rcases hfail with h | h; exacts [.inl h, .inr (.inl h)])]
      exact Option.some_ne_none _

/-! ## A healthy remote core -/

/-- Both cores in a new session. -/
def startSys : Sys :=
  { idleSys emptyRing with
    resetAck := ⟨ControlAck.Ctl.init, false⟩, stallAck := ⟨ControlAck.Ctl.init, false⟩ }

/-- The remote core answers a request, and the answer arrives. -/
def delivers : Turn := ⟨[.request true, .ack], true, 1⟩

def resetTurns : List Turn := List.replicate 6 still ++ delivers :: List.replicate 6 still

def stallTurns : List Turn := List.replicate 4 still ++ [delivers, still]

def gateTwoTurns : List Turn := still :: (resetTurns ++ List.replicate 13 still)

/-- Every request is acknowledged in time, and the block of gate 1 comes back. -/
def healthyTurns : List Turn :=
  resetTurns ++ still :: stallTurns ++ still :: (oneBlock ++ still :: gateTwoTurns)

theorem gateOne_one (rest : List Turn) :
    gateOne 1 (idleSys emptyRing, still :: (oneBlock ++ still :: rest)) =
      some (false, ({ receivedSys with testActive := false }, rest)) := by
  unfold gateOne
  refine (bind_run (cpu_run (a := 1) (r := idleSys emptyRing) rfl)).trans ?_
  refine (bind_run (testRunRate_one (still :: rest))).trans ?_
  exact (bind_run (p := clock) (a := 1) (y := ({ receivedSys with testActive := false }, rest))
    rfl).trans rfl

/-- **The gates** never pass: for no state and no schedule is there a run that returns `0`. -/
theorem runGates_never {count : UInt32} (hcount : 1 ≤ count) (s : Sys) (schedule : List Turn)
    (y : Sys × List Turn) : runGates count (s, schedule) ≠ some (none, y) := by
  intro hrun
  exact (runGates_fails hcount s schedule none y.1 y.2 (fun _ _ => trivial) trivial hrun).1 rfl

/-- One block. -/
theorem runGates_never_one : ¬ ∃ y, runGates 1 (startSys, healthyTurns) = some (none, y) :=
  fun ⟨y, hrun⟩ => runGates_never (by decide) startSys healthyTurns y hrun

/-- One block: gate 1 passes, gate 2 fails, and no continuation of the run returns `0`. -/
theorem gateTwo_after_gateOne :
    ((do
        let begun ← gatesBegin
        let fail₁ ← gateOne 1
        let fail₂ ← gateTwo
        pure (begun, fail₁, fail₂) : Prog (Ret × Bool × Bool))
      (startSys, healthyTurns)).map (fun r => r.1) = some (none, false, true) ∧
    ∀ rest y, runGates 1 (startSys, healthyTurns ++ rest) ≠ some (none, y) := by
  have hbegin : gatesBegin (startSys, healthyTurns) =
      some (none, (idleSys emptyRing, still :: (oneBlock ++ still :: gateTwoTurns))) := rfl
  have hgate : (gateTwo ({ receivedSys with testActive := false }, gateTwoTurns)).map
      (fun r => r.1) = some true := by
    decide +kernel
  obtain ⟨⟨fail₂, y⟩, hgate, rfl⟩ := Option.map_eq_some_iff.1 hgate
  refine ⟨?_, fun rest y hrun => ?_⟩
  · rw [bind_run hbegin, bind_run (gateOne_one gateTwoTurns), bind_run hgate]
    rfl
  · exact (runGates_fails (by decide) startSys (healthyTurns ++ rest) none y.1 y.2
      (fun _ _ => trivial) trivial hrun).1 rfl

end Acceptance

end LeAudioReceiver
