import ChronosX.Allocator.Basic
import ChronosX.Allocator.FreePool
import ChronosX.Allocator.Properties
import ChronosX.Bpf.XdpRedirect
import ChronosX.Chaos.Basic
import ChronosX.Chaos.Decision
import ChronosX.Chaos.Flow
import ChronosX.Chaos.Hash
import ChronosX.Chaos.Padding
import ChronosX.Client.Agreement
import ChronosX.Client.Basic
import ChronosX.Client.Call
import ChronosX.Client.Framing
import ChronosX.Client.RulePayload
import ChronosX.Client.StatsPayload
import ChronosX.ControlPlane.Answers
import ChronosX.ControlPlane.Connection
import ChronosX.ControlPlane.Connections
import ChronosX.ControlPlane.Core
import ChronosX.ControlPlane.Delivery
import ChronosX.ControlPlane.Descriptors
import ChronosX.ControlPlane.EventLoop
import ChronosX.ControlPlane.Progress
import ChronosX.ControlPlane.Reassembly
import ChronosX.ControlPlane.Replies
import ChronosX.ControlPlane.RuleList
import ChronosX.ControlPlane.Segmentation
import ChronosX.ControlPlane.Sending
import ChronosX.ControlPlane.Server
import ChronosX.ControlPlane.Service
import ChronosX.ControlPlane.Shutdown
import ChronosX.ControlPlane.Snapshot
import ChronosX.DataPlane.Accounting
import ChronosX.DataPlane.Basic
import ChronosX.DataPlane.Bounds
import ChronosX.DataPlane.Delay
import ChronosX.DataPlane.Effect
import ChronosX.DataPlane.Forwarding
import ChronosX.DataPlane.HashChange
import ChronosX.DataPlane.Permutation
import ChronosX.DataPlane.SameFate
import ChronosX.DataPlane.TurnAround
import ChronosX.DataPlane.Verdict
import ChronosX.Demo.Packets
import ChronosX.Demo.Run
import ChronosX.Library.BoundedQueue
import ChronosX.Library.ByteHash
import ChronosX.Library.ByteLayout
import ChronosX.Library.Crc
import ChronosX.Library.DelayQueue
import ChronosX.Library.Framing
import ChronosX.Library.Ledger
import ChronosX.Library.Machine
import ChronosX.Library.MemProg
import ChronosX.Library.Publication
import ChronosX.Library.RingLog
import ChronosX.Live.Conservation
import ChronosX.Live.Custody
import ChronosX.Live.Fill
import ChronosX.Live.Headroom
import ChronosX.Live.Kernel
import ChronosX.Live.Libxdp
import ChronosX.Live.Loop
import ChronosX.Live.Reflector
import ChronosX.Live.Socket
import ChronosX.Parser.Basic
import ChronosX.Parser.Grammar
import ChronosX.Parser.Properties
import ChronosX.Protocol.Basic
import ChronosX.Protocol.Checksum
import ChronosX.Protocol.Codec
import ChronosX.Protocol.Control
import ChronosX.Protocol.ErrorDetection
import ChronosX.Protocol.RoundTrip
import ChronosX.Protocol.RuleTable
import ChronosX.Runtime.Basic
import ChronosX.Runtime.Conservation
import ChronosX.Runtime.Counters
import ChronosX.Runtime.Custody
import ChronosX.Runtime.Init
import ChronosX.Runtime.Isolation
import ChronosX.Runtime.Kernel
import ChronosX.Runtime.Moves
import ChronosX.Runtime.OnTime
import ChronosX.Runtime.OwnerTags
import ChronosX.Runtime.Refinement
import ChronosX.Runtime.Relay
import ChronosX.Runtime.RxOwnership
import ChronosX.Runtime.Settling
import ChronosX.Runtime.Stages
import ChronosX.Runtime.TurnAround
import ChronosX.Socket.Refinement
import ChronosX.Socket.Ring
import ChronosX.Socket.TxSlots
import ChronosX.Socket.Xsk
import ChronosX.Spsc.Basic
import ChronosX.Spsc.Fifo
import ChronosX.Spsc.Observer
import ChronosX.Tui.Dashboard
import ChronosX.Tui.Histogram
import ChronosX.Tui.Sparkline
import ChronosX.Types
import ChronosX.Wheel.Basic
import ChronosX.Wheel.Pending
import ChronosX.Wheel.Refinement
