import LeAudioReceiver.Resample.Basic
import LeAudioReceiver.Asrc.Basic
import LeAudioReceiver.Asrc.Split
import LeAudioReceiver.Offload.Process
import LeAudioReceiver.Offload.Submit
import LeAudioReceiver.Offload.Fill
import LeAudioReceiver.FlprRing.Basic
import LeAudioReceiver.Machine.Basic
import LeAudioReceiver.FlprRing.Fifo
import LeAudioReceiver.Offload.Cores
import LeAudioReceiver.Pairing.Basic
import LeAudioReceiver.Pairing.Run
import LeAudioReceiver.Pairing.Disconnect
import LeAudioReceiver.Pairing.Bonds
import LeAudioReceiver.Pairing.Adapter
import LeAudioReceiver.Pairing.Moves
import LeAudioReceiver.Pairing.Delayed
import LeAudioReceiver.Pairing.Access
import LeAudioReceiver.Pairing.Terminal
import LeAudioReceiver.Pairing.SyncReset
import LeAudioReceiver.Pairing.SyncSound
import LeAudioReceiver.Iso.Basic
import LeAudioReceiver.Iso.Conceal
import LeAudioReceiver.Offload.Lifecycle
import LeAudioReceiver.Offload.Stuck
import LeAudioReceiver.AudioPath.Basic
import LeAudioReceiver.AudioPath.Run
import LeAudioReceiver.AudioPath.Coherence
import LeAudioReceiver.Circular.Basic
import LeAudioReceiver.ModeA.Basic
import LeAudioReceiver.ModeA.Conserve
import LeAudioReceiver.ModeA.Lossless
import LeAudioReceiver.Offload.Capacity
import LeAudioReceiver.ControlAck.Basic
import LeAudioReceiver.ControlAck.Correlate
import LeAudioReceiver.AudioPath.SinkThreads
import LeAudioReceiver.AudioPath.SinkSafety
import LeAudioReceiver.Threads.Basic
import LeAudioReceiver.Offload.Policy
import LeAudioReceiver.Offload.Accounting
import LeAudioReceiver.Offload.Recovery
import LeAudioReceiver.Offload.Epoch
import LeAudioReceiver.Offload.Transaction
import LeAudioReceiver.Offload.TxnSafety
import LeAudioReceiver.Offload.Tokens
import LeAudioReceiver.Offload.TokenSafety
import LeAudioReceiver.Asrc.Exact
import LeAudioReceiver.Asrc.Checked
import LeAudioReceiver.FlprRing.Pending
import LeAudioReceiver.Offload.Drain
import LeAudioReceiver.H4.Basic
import LeAudioReceiver.H4.Framing
import LeAudioReceiver.H4.Bridge
import LeAudioReceiver.H4.Lossless
import LeAudioReceiver.Hil.State
import LeAudioReceiver.Hil.Pass
import LeAudioReceiver.Hil.Tracker
import LeAudioReceiver.Hil.Follow
import LeAudioReceiver.Hil.Legal
import LeAudioReceiver.Hil.Ownership
import LeAudioReceiver.Hil.Verdict
import LeAudioReceiver.Handshake.System
import LeAudioReceiver.Handshake.Ready
import LeAudioReceiver.Handshake.Callback
import LeAudioReceiver.Handshake.Health
import LeAudioReceiver.StreamSession.Slots
import LeAudioReceiver.AudioPath.Started
import LeAudioReceiver.StreamSession.Lease
import LeAudioReceiver.Pool.Basic
import LeAudioReceiver.RateConvert.Basic
import LeAudioReceiver.I2s.Basic
import LeAudioReceiver.I2s.Ownership
import LeAudioReceiver.ModeA.Picks
import LeAudioReceiver.ModeA.Order
import LeAudioReceiver.ModeA.Mirror
import LeAudioReceiver.Drift.Isolation
import LeAudioReceiver.FlprRuntime.Basic
import LeAudioReceiver.Drift.System
import LeAudioReceiver.FlprRuntime.FailSafe
import LeAudioReceiver.FlprRuntime.Retry
import LeAudioReceiver.Hil.Record
import LeAudioReceiver.Hil.Hil1
import LeAudioReceiver.Hil.RecordTrip
import LeAudioReceiver.Hil.CommandLine
import LeAudioReceiver.Hil.Protocol
import LeAudioReceiver.Hil.CommandTrip
import LeAudioReceiver.Iso.Exact
import LeAudioReceiver.Acceptance.Report
import LeAudioReceiver.Acceptance.Rings
import LeAudioReceiver.Acceptance.RingTest
import LeAudioReceiver.Hil.Signal
import LeAudioReceiver.Hil.Envelope
import LeAudioReceiver.Hil.Rendered
import LeAudioReceiver.Hil.Partition
import LeAudioReceiver.Hil.CaptureSignal
import LeAudioReceiver.HciConnect.Basic
import LeAudioReceiver.HciConnect.Links
import LeAudioReceiver.Stress.Basic
import LeAudioReceiver.Stress.Accounting
import LeAudioReceiver.BapEndpoint.Basic
import LeAudioReceiver.BapEndpoint.Ownership
import LeAudioReceiver.Fault.Program
import LeAudioReceiver.Evidence.Basic
import LeAudioReceiver.Evidence.Steps
import LeAudioReceiver.Evidence.Transaction
import LeAudioReceiver.Scheduled.Program
import LeAudioReceiver.Drift.Bounds
import LeAudioReceiver.Timing.Anchor
import LeAudioReceiver.Rounding.Smoothing
import LeAudioReceiver.Iso.Accounting
import LeAudioReceiver.FlprRing.Payload
import LeAudioReceiver.Ltv.Guard
import LeAudioReceiver.UserPairingIo.Basic
import LeAudioReceiver.UserPairingIo.Isolation
import LeAudioReceiver.Asrc.Transaction
import LeAudioReceiver.Buffer.Basic
import LeAudioReceiver.Offload.Memory
import LeAudioReceiver.Offload.Response
import LeAudioReceiver.Acceptance.Loopback
import LeAudioReceiver.Acceptance.Intact
import LeAudioReceiver.Acceptance.Gates
import LeAudioReceiver.AudioDecode.Basic
import LeAudioReceiver.Crc.Basic
import LeAudioReceiver.FlprRing.Crc
import LeAudioReceiver.BapEndpoint.Allocation
import LeAudioReceiver.Bytes.LittleEndian
import LeAudioReceiver.Hil.Wav
import LeAudioReceiver.PcmOracle.Basic
import LeAudioReceiver.PcmOracle.Exact
import LeAudioReceiver.PcmOracle.Correlation
import LeAudioReceiver.Hil.Grammar
import LeAudioReceiver.Hil.Lexer
import LeAudioReceiver.Hil.Selected
import LeAudioReceiver.Hil.Accepts
import LeAudioReceiver.Hil.Cursor
import LeAudioReceiver.Hil.CursorRefines
import LeAudioReceiver.Hil.Nesting
import LeAudioReceiver.Hil.Status
import LeAudioReceiver.Hil.StatusLine
import LeAudioReceiver.Hil.Pins
import LeAudioReceiver.Hil.TransmitLog
import LeAudioReceiver.Hil.TransmitSteps
import LeAudioReceiver.Hil.TransmitAccount
import LeAudioReceiver.Hil.LateStatus
import LeAudioReceiver.Hil.TransmitTrace
import LeAudioReceiver.Hil.TransmitWake
import LeAudioReceiver.Hil.TransmitKept
import LeAudioReceiver.Hil.TransmitComplete
import LeAudioReceiver.Hil.TransmitTold
import LeAudioReceiver.Hil.TransmitPass
import LeAudioReceiver.Framing.Basic
import LeAudioReceiver.Hil.Console
import LeAudioReceiver.Hil.Output
import LeAudioReceiver.Hil.SerialLink
import LeAudioReceiver.Hil.StreamConnect
import LeAudioReceiver.Hil.Backend
