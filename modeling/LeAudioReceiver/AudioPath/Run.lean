import LeAudioReceiver.AudioPath.Basic
import LeAudioReceiver.Offload.Lifecycle

/-!
# Opening and closing the audio path

The callbacks of `src/bt_bap.c` that open and close the audio path, on the one thread of the
Bluetooth stack, and the forced stop of the shell, on any number of other threads.  A step is one
section under a lock, or one call that takes no lock of this path.  The lock `lifecycle_lock` is
explicit, since an open keeps it while it waits for a stop of the sink.

The offload is the model of `Offload/Lifecycle.lean`: its work queue runs on, and submits and health
transitions happen at any time.  A Config that is rejected changes nothing and is left out.
-/

namespace LeAudioReceiver

namespace AudioPath

open Offload.Lifecycle (Api Call Result)

/-- The threads. -/
inductive Thread (κ : Type*) where
  | bt
  | shell (i : κ)
  deriving DecidableEq

/-- What the threads share. -/
structure Path (ι κ : Type*) where
  gate : Gate
  /-- `audio_path_generation`. -/
  generation : UInt32
  /-- The owner of `lifecycle_lock`. -/
  lock : Option (Thread κ)
  sink : Sink
  session : Session
  offload : Offload.Lifecycle.Sys ι

/-! ### The close -/

/-- `teardown_close_path`; `wasOpen` is what its first section found. -/
inductive ClosePc where
  | lock
  /-- `audio_sink_stream_close`, still under the lock. -/
  | sinkClose (wasOpen : Bool)
  | rxClose (wasOpen : Bool)
  | rxDrain (wasOpen : Bool)
  | stop (pc : StopPc)
  /-- `audio_offload_stream_stop`. -/
  | offload (call : Call)
  | startClear
  deriving DecidableEq

namespace Path

variable {ι κ : Type*} (p : Path ι κ)

/-- Only a normal close clears the assembler. -/
def afterClose (forced : Bool) : Option ClosePc := if forced then none else some .startClear

/-- `teardown_close_path`. -/
def close (forced : Bool) (t : Thread κ) (r : Result) :
    ClosePc → Option (Path ι κ × Option ClosePc)
  | .lock =>
    if p.lock.isSome then none
    else
      let g := if forced then p.gate.forceClose else p.gate.audioPathClose
      some ({ p with
        gate := g.1
        generation := if g.2 then p.generation + 1 else p.generation
        lock := some t }, some (.sinkClose g.2))
  | .sinkClose wasOpen =>
    some ({ p with sink := p.sink.streamClose, lock := none }, some (.rxClose wasOpen))
  | .rxClose wasOpen => some ({ p with session := p.session.rxClose }, some (.rxDrain wasOpen))
  | .rxDrain wasOpen =>
    if p.session.inFlight = 0 then
      some (p, if wasOpen then some (.stop .enter) else afterClose forced)
    else none
  | .stop pc =>
    (p.sink.stop pc).map fun s =>
      ({ p with sink := s.1 }, some (match s.2 with
        | some pc' => .stop pc'
        | none => .offload Api.streamStop.first))
  | .offload call =>
    (p.offload.core.call r call).map fun s =>
      ({ p with offload.core := s.1 }, match s.2 with
        | some call' => some (.offload call')
        | none => afterClose forced)
  | .startClear => some (p, none)

end Path

/-! ### The callbacks -/

/-- The events that close the path, with what they do afterwards. -/
inductive Teardown where
  /-- `lc3_stop`, `stream_stopped`. -/
  | close
  | disabled
  | release (idx : Fin maxSinkAse)
  | disconnect
  deriving DecidableEq

/-- The thread of the Bluetooth stack. -/
inductive BtPc where
  | idle
  /-- `lc3_config`, once it is accepted. -/
  | config (idx : Fin maxSinkAse)
  | configured (idx : Fin maxSinkAse)
  /-- `stream_started`; `gen` is its `open_gen`. -/
  | started (idx : Fin maxSinkAse)
  /-- `audio_sink_stream_open`, under the lock. -/
  | openSink (gen : UInt32)
  | openClear (gen : UInt32)
  | openRx (gen : UInt32)
  /-- `audio_offload_stream_start`. -/
  | openOffload (gen : UInt32) (call : Call)
  | recheck (gen : UInt32)
  | staleRx
  | staleDrain
  | staleOffload (call : Call)
  /-- `lc3_disable`. -/
  | disable
  /-- `lc3_release` looks at the slot. -/
  | release (idx : Fin maxSinkAse)
  | close (ev : Teardown) (pc : ClosePc)
  | releaseSession (idx : Fin maxSinkAse)
  | releaseGate (idx : Fin maxSinkAse)
  | resetGate
  | resetSession
  /-- `stream_recv` looks at the gate. -/
  | recv (idx : Fin maxSinkAse)
  | acquire (idx : Fin maxSinkAse)
  /-- `session_recv_path` pushes any number of blocks. -/
  | push
  | pushed
  | leave
  deriving DecidableEq

/-- The first step behind the close. -/
def Teardown.after : Teardown → BtPc
  | .close | .disabled => .idle
  | .release idx => .releaseSession idx
  | .disconnect => .resetGate

/-- Where a close on the Bluetooth thread goes on. -/
def Teardown.next (ev : Teardown) : Option ClosePc → BtPc
  | some pc => .close ev pc
  | none => ev.after

/-- Where the start of the offload goes on. -/
def BtPc.openNext (gen : UInt32) : Option Call → BtPc
  | some call => .openOffload gen call
  | none => .recheck gen

/-- Where the stop of a stale open goes on. -/
def BtPc.staleNext : Option Call → BtPc
  | some call => .staleOffload call
  | none => .idle

/-- The callbacks. -/
inductive Callback where
  | config (idx : Fin maxSinkAse)
  | started (idx : Fin maxSinkAse)
  | stopped
  | disable
  | disabled
  | release (idx : Fin maxSinkAse)
  | disconnected
  | recv (idx : Fin maxSinkAse)
  deriving DecidableEq

/-- The first step of a callback. -/
def Callback.first : Callback → BtPc
  | .config idx => .config idx
  | .started idx => .started idx
  | .stopped => .close .close .lock
  | .disable => .disable
  | .disabled => .close .disabled .lock
  | .release idx => .release idx
  | .disconnected => .close .disconnect .lock
  | .recv idx => .recv idx

namespace Path

variable {ι κ : Type*} (p : Path ι κ)

/-- A section that takes the lock and releases it. -/
def locked (next : Path ι κ × BtPc) : Option (Path ι κ × BtPc) :=
  if p.lock.isSome then none else some next

/-- A step of a callback. -/
def bt (r : Result) : BtPc → Option (Path ι κ × BtPc)
  | .idle => none
  | .config idx => some ({ p with session := p.session.config idx }, .configured idx)
  | .configured idx => p.locked ({ p with gate := p.gate.sinkConfigured idx }, .idle)
  | .started idx =>
    if p.lock.isSome then none
    else
      let g := p.gate.sinkStarted idx
      if g.2 then
        some ({ p with gate := g.1, generation := p.generation + 1, lock := some .bt },
          .openSink (p.generation + 1))
      else some ({ p with gate := g.1 }, .idle)
  | .openSink gen =>
    p.sink.streamOpen.map fun s =>
      if s.2 then ({ p with sink := s.1, lock := none }, .openClear gen)
      else
        -- the gate is rolled back
        ({ p with
          gate := p.gate.audioPathClose.1
          generation := p.generation + 1
          sink := s.1
          lock := none }, .idle)
  | .openClear gen => some (p, .openRx gen)
  | .openRx gen =>
    some ({ p with session := p.session.rxOpen }, .openOffload gen Api.streamStart.first)
  | .openOffload gen call =>
    (p.offload.core.call r call).map fun s =>
      ({ p with offload.core := s.1 }, BtPc.openNext gen s.2)
  | .recheck gen =>
    p.locked (p, if !p.gate.isOpen || p.generation != gen then .staleRx else .idle)
  | .staleRx => some ({ p with session := p.session.rxClose }, .staleDrain)
  | .staleDrain =>
    if p.session.inFlight = 0 then some (p, .staleOffload Api.streamStop.first) else none
  | .staleOffload call =>
    (p.offload.core.call r call).map fun s =>
      ({ p with offload.core := s.1 }, BtPc.staleNext s.2)
  | .disable => p.locked (p, .idle)
  | .release idx =>
    p.locked (p, if p.session.isConfigured idx then .close (.release idx) .lock else .idle)
  | .close ev pc =>
    (p.close false .bt r pc).map fun s => (s.1, ev.next s.2)
  | .releaseSession idx => some ({ p with session := p.session.release idx }, .releaseGate idx)
  | .releaseGate idx => p.locked ({ p with gate := p.gate.sinkRelease idx }, .idle)
  | .resetGate => p.locked ({ p with gate := .reset }, .resetSession)
  | .resetSession => some ({ p with session := p.session.resetAll }, .idle)
  | .recv idx => p.locked (p, if p.gate.isOpen then .acquire idx else .idle)
  | .acquire idx =>
    match p.session.acquire idx with
    | some session => some ({ p with session := session }, .push)
    | none => some (p, .idle)
  | .push =>
    match r with
    | .fail => some (p, .leave)
    | .ok _ =>
      match p.sink.pushEnter with
      | some sink => some ({ p with sink := sink }, .pushed)
      | none => some (p, .push)
  | .pushed => some ({ p with sink := p.sink.pushExit }, .push)
  | .leave => some ({ p with session := p.session.leave }, .idle)

end Path

/-! ### The machine -/

/-- The shared state and the threads. -/
structure Sys (ι κ : Type*) where
  path : Path ι κ
  bt : BtPc
  shell : κ → Option ClosePc

/-- What can happen next. -/
inductive Action (ι κ : Type*) where
  /-- The Bluetooth stack makes a callback. -/
  | callback (cb : Callback)
  | bt (r : Result)
  /-- A shell runs `bt_bap_audio_path_stop`. -/
  | shellStop (i : κ)
  | shell (i : κ) (r : Result)
  /-- The work queue of the offload, a health transition or a submit. -/
  | offload (a : Offload.Lifecycle.Action ι)

/-- The action enters a call that only the audio path makes. -/
def entersStream {ι : Type*} : Offload.Lifecycle.Action ι → Bool
  | .enter _ .streamStart | .enter _ .streamStop => true
  | _ => false

namespace Sys

variable {ι κ : Type*} [DecidableEq ι] [DecidableEq κ]

/-- One step. -/
def next (s : Sys ι κ) : Action ι κ → Option (Sys ι κ)
  | .callback cb => if s.bt = .idle then some { s with bt := cb.first } else none
  | .bt r => (s.path.bt r s.bt).map fun t => { s with path := t.1, bt := t.2 }
  | .shellStop i =>
    if s.shell i = none then some { s with shell := Function.update s.shell i (some .lock) }
    else none
  | .shell i r =>
    match s.shell i with
    | none => none
    | some pc =>
      (s.path.close true (.shell i) r pc).map fun t =>
        { s with path := t.1, shell := Function.update s.shell i t.2 }
  | .offload a =>
    if entersStream a then none
    else (s.path.offload.next a).map fun o => { s with path.offload := o }

/-- After the initialisation; the sink and the rings of the offload may be missing. -/
def start (configured ringsReady : Bool) : Sys ι κ where
  path := ⟨.reset, 0, none, .init configured, .init, .start ringsReady⟩
  bt := .idle
  shell := fun _ => none

/-- The machine. -/
def machine (ι κ : Type*) [DecidableEq ι] [DecidableEq κ] : Machine (Sys ι κ) (Action ι κ) where
  init s := ∃ configured ringsReady, s = start configured ringsReady
  next := next

end Sys

end AudioPath

end LeAudioReceiver
