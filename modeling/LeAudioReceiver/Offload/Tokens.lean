import LeAudioReceiver.Offload.Cores

/-!
# Tokens of the consume semaphore

The notifications from the remote core to the application core, beside the rings of
`Offload.Cores`: the main loop of the remote core counts what it consumes and sends one
`RING_CONSUMER` for all of it, stamped with the epoch at that moment (`ring_notify_cpuapp` of
`src/flpr/main.c`).  On the application core `on_ring_consumer` compares the epoch under `ring_lock`
and gives `consume_sem` after the unlock; a reset drains the semaphore before it publishes the new
epoch (`src/flpr_ring_mgr.c`).

Each token remembers the output slots that its notification was sent for: this is not in the
source, and no step depends on it.

* `TokenSys.machine` : every interleaving of both cores with the notifications;
* `TokenSys.Clean` : the steps after which a notification belongs to the epoch it carries.
-/

namespace LeAudioReceiver

namespace Offload

open FlprRing

/-- An output slot that the remote core has published. -/
structure Published where
  /-- The epoch under which its input was accepted. -/
  epoch : UInt32
  /-- How many resets the application core had completed. -/
  era : ℕ
  deriving DecidableEq, Repr

/-- `RING_CONSUMER`: the epoch in `data`, and the slots it was sent for. -/
structure Note where
  epoch : UInt32
  slots : List Published
  deriving DecidableEq, Repr

/-- The state of the notifications. -/
structure Tokens where
  /-- `consumed` of `ring_process_input`. -/
  consumed : ℕ
  /-- `ring_process_input` has returned. -/
  returned : Bool
  /-- The epoch under which the latest input was accepted. -/
  claimEpoch : UInt32
  /-- Published, and not notified yet. -/
  batch : List Published
  /-- In flight. -/
  notes : List Note
  /-- In `on_ring_consumer`, between the check and the give. -/
  passed : List Note
  /-- `consume_sem`. -/
  sem : List Note
  /-- The loop of a reset has found the semaphore empty. -/
  drained : Bool
  /-- How many resets the application core has completed. -/
  era : ℕ

/-- The limit of `consume_sem`. -/
def semLimit : ℕ := 1000001

/-- What a step of the cores does to the notifications. -/
def Tokens.after (t : Tokens) (c : Cores) : CoresStep → Tokens
  -- `break` on a full output ring, before any slot is consumed
  | .mainCheck => { t with returned := space c.out.producerIdx c.out.consumerIdx == 0 }
  | .mainConsumeBegin =>
    match (c.inp.consumeBegin c.flprEpoch).2 with
    | .slot _ => { t with consumed := t.consumed + 1, claimEpoch := c.flprEpoch }
    | .empty => { t with returned := true }
    | .stale => t
  -- `break` on a full output ring, with the slot counted as consumed
  | .mainProduceBegin => { t with returned := c.out.produceBegin.2.isNone }
  | .mainProduceCommit => { t with batch := t.batch ++ [⟨t.claimEpoch, t.era⟩] }
  | .cpuPublish => { t with drained := false, era := t.era + 1 }
  | _ => t

/-- A step of the main loop. -/
def CoresStep.isMain : CoresStep → Bool
  | .mainCheck | .mainConsumeBegin | .mainProduceBegin | .mainProcess _ | .mainProduceCommit
  | .mainConsumeDone => true
  | _ => false

/-- The publication of a new epoch. -/
def CoresStep.isPublish : CoresStep → Bool
  | .cpuPublish => true
  | _ => false

/-- The epoch that is published next, behind the resets of both rings. -/
def CpuPc.publishes : CpuPc → Option UInt32
  | .resetOut epoch => some epoch
  | _ => none

/-- Both cores with the notifications. -/
structure TokenSys where
  cores : Cores
  tok : Tokens

/-- The atomic steps. -/
inductive TokenAction where
  | cores (a : CoresStep)
  /-- `ring_notify_cpuapp`; the message may be lost. -/
  | notify (sent : Bool)
  /-- `on_ring_consumer` up to the unlock. -/
  | consumerCheck
  /-- The `k_sem_give` behind it. -/
  | consumerGive
  /-- A submit stops waiting with a token. -/
  | waitConsume
  /-- One round of the draining loop of a reset, and its end. -/
  | drainTake
  | drainEnd

namespace TokenSys

/-- The application core is in the draining loop of `flpr_ring_mgr_reset_locked`. -/
def draining (s : TokenSys) : Bool := s.cores.cpu.publishes.isSome && !s.tok.drained

/-- One step. -/
def next (s : TokenSys) : TokenAction → Option TokenSys
  | .cores a =>
    if (a.isMain && s.tok.returned) || (a.isPublish && !s.tok.drained) then none
    else (s.cores.next a).map fun c => ⟨c, s.tok.after s.cores a⟩
  | .notify sent =>
    match s.cores.callback, s.cores.main with
    | .idle, .idle =>
      if s.tok.returned then
        some { s with
          tok := { s.tok with
            consumed := 0
            returned := false
            batch := []
            notes :=
              if s.tok.consumed ≠ 0 ∧ sent then
                s.tok.notes ++ [⟨s.cores.flprEpoch, s.tok.batch⟩]
              else s.tok.notes } }
      else none
    | _, _ => none
  | .consumerCheck =>
    match s.tok.notes with
    | [] => none
    | n :: ns =>
      if n.epoch ≠ s.cores.cpuEpoch then some { s with tok := { s.tok with notes := ns } }
      else some { s with tok := { s.tok with notes := ns, passed := s.tok.passed ++ [n] } }
  | .consumerGive =>
    match s.tok.passed with
    | [] => none
    | n :: ns =>
      some { s with
        tok := { s.tok with
          passed := ns
          sem := if s.tok.sem.length < semLimit then s.tok.sem ++ [n] else s.tok.sem } }
  | .waitConsume =>
    match s.tok.sem with
    | [] => none
    | _ :: ns => some { s with tok := { s.tok with sem := ns } }
  | .drainTake =>
    match s.tok.sem with
    | [] => none
    | _ :: ns => if s.draining then some { s with tok := { s.tok with sem := ns } } else none
  | .drainEnd =>
    match s.tok.sem with
    | [] => if s.draining then some { s with tok := { s.tok with drained := true } } else none
    | _ :: _ => none

/-- Both cores after their initialisation. -/
def start : TokenSys := ⟨Cores.start, ⟨0, false, 0, [], [], [], [], false, 0⟩⟩

/-- The machine. -/
def machine : Machine TokenSys TokenAction where
  init s := s = start
  next := next

/-- The epoch that is about to be published is not on its way. -/
def Fresh (s : TokenSys) : Prop :=
  ∀ epoch ∈ s.cores.cpu.publishes, s.tok.consumed = 0 ∧ ∀ n ∈ s.tok.notes, n.epoch ≠ epoch

instance (s : TokenSys) : Decidable s.Fresh := Option.decidableForallMem _

/-- The interleavings in which every notification belongs to the epoch it carries. -/
def Clean (s : TokenSys) : TokenAction → Prop
  -- the callback changes the epoch when everything consumed has been notified
  | .cores (.callbackOutput _) => s.tok.consumed = 0
  -- the output ring has not become full since the main loop looked
  | .cores .mainProduceBegin => s.cores.out.produceBegin.2.isSome = true
  | .cores .cpuPublish => s.Fresh
  -- nobody is between the check and the give at the end of the drain
  | .drainEnd => s.tok.passed = []
  | _ => True

instance (s : TokenSys) (a : TokenAction) : Decidable (s.Clean a) :=
  match a with
  | .cores (.callbackOutput _) => inferInstanceAs (Decidable (s.tok.consumed = 0))
  | .cores .mainProduceBegin =>
    inferInstanceAs (Decidable (s.cores.out.produceBegin.2.isSome = true))
  | .cores .cpuPublish => inferInstanceAs (Decidable s.Fresh)
  | .drainEnd => inferInstanceAs (Decidable (s.tok.passed = []))
  | .cores .mainCheck | .cores .mainConsumeBegin | .cores (.mainProcess _)
  | .cores .mainProduceCommit | .cores .mainConsumeDone | .cores .callbackInput
  | .cores .cpuProduceBegin | .cores (.cpuFill _) | .cores .cpuProduceCommit
  | .cores .cpuConsumeBegin | .cores .cpuConsumeDone | .cores (.cpuRequest _ _)
  | .cores .cpuTimeout | .cores .cpuAck | .cores .cpuInvalidate | .cores .cpuResetIn
  | .cores .cpuResetOut | .notify _ | .consumerCheck | .consumerGive | .waitConsume
  | .drainTake => .isTrue trivial

end TokenSys

end Offload

end LeAudioReceiver
