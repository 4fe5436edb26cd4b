import LeAudioReceiver.Machine.Basic
import Mathlib.Algebra.Ring.Nat
import Mathlib.Data.UInt

/-!
# The BAP source endpoint of the central

A model of `BAPSourceEndpoint`, `acquire_transports` and `release_transports` in
`scripts/bap_central_endpoint.py`, driven as by `bap_central.py`: one acquire for a run, with the
callbacks of BlueZ and the replies of its transports in any order around it.

A descriptor is the number of the reply that it came with, so it differs from a later one that
reuses its place in the table.  `configured` notes the paths that BlueZ has configured and not
cleared, beside what the endpoint records.  Prints, and the D-Bus calls that release a transport,
are left out.
-/

namespace LeAudioReceiver

namespace BapEndpoint

/-- A record of a transport; one that is acquired has a descriptor. -/
structure Transport where
  path : String
  fd : Option ℕ
  writeMtu : ℕ
  channelAlloc : ℕ
  deriving DecidableEq

/-- What `SelectProperties` returns: the codec configuration and the parts of its QoS. -/
structure Selection where
  capabilities : List ℕ
  framing : ℕ
  phy : ℕ
  interval : ℕ
  sdu : ℕ
  retransmissions : ℕ
  latency : ℕ
  presentationDelay : ℕ
  targetLatency : ℕ
  deriving DecidableEq

/-- `LC3_CONFIG_STEREO`. -/
def lc3ConfigStereo : List ℕ :=
  [0x02, 0x01, 0x08, 0x02, 0x02, 0x01, 0x03, 0x04, 0x78, 0x00, 0x05, 0x03, 0x03, 0x00, 0x00, 0x00]

/-- The configuration of one channel. -/
def lc3ConfigFor (channels : ℕ) : List ℕ :=
  [0x02, 0x01, 0x08, 0x02, 0x02, 0x01, 0x03, 0x04, 0x78, 0x00, 0x05, 0x03, channels % 256, 0x00,
    0x00, 0x00]

/-- `FRAME_BYTES`. -/
def frameBytes : ℕ := 120

/-- The loop of `SetConfiguration` over the LTV entries; the default is `0x03`. -/
def parseChannelAlloc (b : List UInt8) : ℕ → ℕ
  | 0 => 0x03
  | fuel + 1 =>
    match b with
    | len :: type :: rest =>
      match rest with
      | b₀ :: b₁ :: b₂ :: b₃ :: _ =>
        if type = 0x03 ∧ len = 5 then
          b₀.toNat ||| b₁.toNat <<< 8 ||| b₂.toNat <<< 16 ||| b₃.toNat <<< 24
        else parseChannelAlloc (b.drop (if len > 0 then len.toNat else 1)) fuel
      | _ => parseChannelAlloc (b.drop (if len > 0 then len.toNat else 1)) fuel
    | _ => 0x03

/-- The allocation of a configuration: each entry takes a byte at least. -/
def channelAllocOf (configuration : List UInt8) : ℕ :=
  parseChannelAlloc configuration configuration.length

/-- `BAPSourceEndpoint`. -/
structure Endpoint where
  mono : Bool
  monoSelectedChannel : Option ℕ
  transports : List Transport
  pendingTransports : List Transport
  configDone : Bool
  deriving DecidableEq

namespace Endpoint

/-- `BAPSourceEndpoint.__init__`. -/
def init (mono : Bool) : Endpoint := ⟨mono, none, [], [], false⟩

/-- All records. -/
def records (e : Endpoint) : List Transport := e.transports ++ e.pendingTransports

/-- `SelectProperties`; an error is the text of the rejection. -/
def selectProperties (e : Endpoint) (channels : ℕ) : Except String (Selection × Endpoint) :=
  if e.mono ∧ (e.pendingTransports.length + e.transports.length ≥ 1 ∨
      (e.monoSelectedChannel ≠ none ∧ e.monoSelectedChannel ≠ some channels)) then
    .error "org.bluez.Error.Rejected: mono transport limit reached"
  else if e.mono ∧ ¬(channels = 0x01 ∨ channels = 0x02) then
    .error "org.bluez.Error.Rejected: mono requires FL or FR allocation"
  else
    let caps := if channels = 0x03 then lc3ConfigStereo else lc3ConfigFor channels
    let sdu := if channels = 0x03 then 240 else 120
    .ok (⟨caps, 0, 0x02, 10000, sdu, 5, 20, 40000, 0x02⟩,
      { e with
          monoSelectedChannel := if e.mono then some channels else e.monoSelectedChannel })

/-- `SetConfiguration`. -/
def setConfiguration (e : Endpoint) (path : String) (configuration : List UInt8) :
    Except String Endpoint :=
  if e.mono ∧ e.pendingTransports.length + e.transports.length ≥ 1 then
    .error "org.bluez.Error.Rejected: mono transport limit reached"
  else
    let channelAlloc := channelAllocOf configuration
    if e.mono ∧ ¬(channelAlloc = 0x01 ∨ channelAlloc = 0x02) then
      .error "org.bluez.Error.Rejected: mono requires FL or FR allocation"
    else if e.mono ∧ e.monoSelectedChannel ≠ none ∧
        some channelAlloc ≠ e.monoSelectedChannel then
      .error "org.bluez.Error.Rejected: mono reservation mismatch"
    else
      .ok { e with
        pendingTransports := e.pendingTransports ++ [⟨path, none, 0, channelAlloc⟩]
        configDone := true
        monoSelectedChannel := if e.mono then none else e.monoSelectedChannel }

/-- The descriptors of some records. -/
def fds (ts : List Transport) : List ℕ := ts.filterMap (·.fd)

/-- `ClearConfiguration`, and the descriptors that it closes: the first record of the path goes. -/
def clearConfiguration (e : Endpoint) (path : String) : Endpoint × List ℕ :=
  match e.records.find? fun t => t.path = path with
  | none => (e, [])
  | some t =>
    ({ e with
        transports := if t ∈ e.transports then e.transports.erase t else e.transports
        pendingTransports :=
          if t ∈ e.pendingTransports then e.pendingTransports.erase t else e.pendingTransports },
      t.fd.toList)

/-- `Release`, and the descriptors that it closes. -/
def release (e : Endpoint) : Endpoint × List ℕ :=
  ({ e with
      transports := [], pendingTransports := [], configDone := false, monoSelectedChannel := none },
    fds e.records)

end Endpoint

/-! ### The run -/

/-- The stream modes. -/
inductive StreamMode where
  | stereoB
  | stereoA
  | mono
  deriving DecidableEq

/-- The mode and the SDU size for the acquired transports. -/
def streamModeOf (ts : List Transport) : StreamMode × ℕ :=
  if ts.length = 1 ∧ ts.head?.map (·.channelAlloc) = some 0x03 then (.stereoB, frameBytes * 2)
  else if ts.length = 2 then (.stereoA, frameBytes)
  else (.mono, frameBytes)

/-- Where the main thread is. -/
inductive Phase where
  /-- Waiting for `config_done`. -/
  | waitConfig
  /-- Waiting for a second ASE. -/
  | grace
  /-- Servicing the replies. -/
  | acquiring
  | streaming (mode : StreamMode) (sduSize : ℕ)
  /-- `CentralError` was raised. -/
  | failed (message : String)
  /-- `release_transports` has run. -/
  | released
  deriving DecidableEq

/-- An Acquire without an answer. -/
structure Request where
  path : String
  channelAlloc : ℕ
  deriving DecidableEq

/-- The endpoint, the locals of `acquire_transports`, and what was opened and closed. -/
structure Central where
  endpoint : Endpoint
  phase : Phase
  nPending : ℕ
  requests : List Request
  acquired : List Transport
  acquireErrors : List String
  acquireDone : Bool
  configured : List String
  /-- How many descriptors the replies have brought. -/
  obtained : ℕ
  closed : List ℕ
  deriving DecidableEq

/-- What happens next. -/
inductive Input where
  | selectProperties (channels : ℕ)
  | setConfiguration (path : String) (configuration : List UInt8)
  | clearConfiguration (path : String)
  | release
  /-- The main thread looks at `config_done`. -/
  | checkConfig (expired : Bool)
  | graceOver
  /-- The Acquire at a position of `requests` is answered. -/
  | acquireOk (k writeMtu : ℕ)
  | acquireErr (k : ℕ)
  /-- The main thread looks at `acquire_done`. -/
  | checkAcquire (expired : Bool)
  /-- The owner of the run releases the transports. -/
  | cleanup
  deriving DecidableEq

namespace Central

/-- Before the first callback. -/
def init (mono : Bool) : Central :=
  ⟨.init mono, .waitConfig, 0, [], [], [], false, [], 0, []⟩

/-- The requests for all pending transports. -/
def startAcquire (c : Central) : Central :=
  { c with
      phase := .acquiring
      nPending := c.endpoint.pendingTransports.length
      requests := c.endpoint.pendingTransports.map fun t => ⟨t.path, t.channelAlloc⟩ }

/-- Behind the wait for `SetConfiguration`. -/
def checkConfig (c : Central) (expired : Bool) : Central :=
  if c.endpoint.configDone = false then
    if expired then { c with phase := .failed "SetConfiguration timeout" } else c
  else if c.endpoint.pendingTransports = [] then { c with phase := .failed "no pending transports" }
  else if c.endpoint.pendingTransports.length = 1 then { c with phase := .grace }
  else c.startAcquire

/-- Whether the last answer is there. -/
def isDone (c : Central) : Bool :=
  c.acquireDone || c.acquired.length + c.acquireErrors.length ≥ c.nPending

/-- `_on_acquire_ok`. -/
def onAcquireOk (c : Central) (r : Request) (writeMtu : ℕ) : Central :=
  let t : Transport := ⟨r.path, some c.obtained, writeMtu, r.channelAlloc⟩
  let c : Central := { c with acquired := c.acquired ++ [t], obtained := c.obtained + 1 }
  { c with acquireDone := c.isDone }

/-- `_on_acquire_err`. -/
def onAcquireErr (c : Central) (r : Request) : Central :=
  let c : Central := { c with acquireErrors := c.acquireErrors ++ [r.path] }
  { c with acquireDone := c.isDone }

/-- An acquire that fails closes what it has taken. -/
def failAcquire (c : Central) (message : String) : Central :=
  { c with phase := .failed message, closed := c.closed ++ Endpoint.fds c.acquired }

/-- `endpoint.transports = acquired`. -/
def install (c : Central) : Central :=
  { c with
      endpoint := { c.endpoint with transports := c.acquired }
      phase := .streaming (streamModeOf c.acquired).1 (streamModeOf c.acquired).2 }

/-- Behind the wait for the replies. -/
def checkAcquire (c : Central) (expired : Bool) : Central :=
  if c.acquireDone = false then
    if expired then c.failAcquire "Acquire timed out" else c
  else if c.acquireErrors ≠ [] ∨ c.acquired.length ≠ c.nPending then
    c.failAcquire "all-or-nothing acquire failed"
  else if c.acquired = [] then { c with phase := .failed "no transports acquired" }
  else c.install

/-- `release_transports`, for the transports that the endpoint has. -/
def releaseTransports (c : Central) : Central :=
  { c with
      endpoint := { c.endpoint with transports := [] }
      phase := .released
      closed := c.closed ++ Endpoint.fds c.endpoint.transports }

/-- One step. -/
def next (c : Central) : Input → Option Central
  | .selectProperties channels =>
    match c.endpoint.selectProperties channels with
    | .ok r => some { c with endpoint := r.2 }
    | .error _ => some c
  | .setConfiguration path configuration =>
    match c.endpoint.setConfiguration path configuration with
    | .ok e => some { c with endpoint := e, configured := c.configured ++ [path] }
    | .error _ => some c
  | .clearConfiguration path =>
    let r := c.endpoint.clearConfiguration path
    some { c with
      endpoint := r.1, closed := c.closed ++ r.2
      configured := c.configured.filter (· ≠ path) }
  | .release =>
    let r := c.endpoint.release
    some { c with endpoint := r.1, closed := c.closed ++ r.2, configured := [] }
  | .checkConfig expired => if c.phase = .waitConfig then some (c.checkConfig expired) else none
  | .graceOver => if c.phase = .grace then some c.startAcquire else none
  | .acquireOk k writeMtu =>
    (c.requests[k]?).map fun r =>
      { c with requests := c.requests.eraseIdx k }.onAcquireOk r writeMtu
  | .acquireErr k =>
    (c.requests[k]?).map fun r => { c with requests := c.requests.eraseIdx k }.onAcquireErr r
  | .checkAcquire expired => if c.phase = .acquiring then some (c.checkAcquire expired) else none
  | .cleanup =>
    match c.phase with
    | .streaming _ _ => some c.releaseTransports
    | _ => none

/-- All runs. -/
def machine : Machine Central Input where
  init c := ∃ mono, c = init mono
  next := next

end Central

end BapEndpoint

end LeAudioReceiver
