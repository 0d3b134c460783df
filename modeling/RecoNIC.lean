import RecoNIC.Arithmetic.Pieces
import RecoNIC.Arithmetic.SplitAdd
import RecoNIC.Arithmetic.ByteLanes
import RecoNIC.Arithmetic.Words
import RecoNIC.Arithmetic.BitFormat
import RecoNIC.Arithmetic.Crc
import RecoNIC.Arithmetic.Tiling
import RecoNIC.Arithmetic.Sweep
import RecoNIC.Arithmetic.Bump
import RecoNIC.Arithmetic.Paged
import RecoNIC.Arithmetic.SlotMap
import RecoNIC.Arithmetic.Assign
import RecoNIC.Arithmetic.Framing
import RecoNIC.Synchronous.Machine
import RecoNIC.Synchronous.Conservation
import RecoNIC.Synchronous.Simulation
import RecoNIC.Synchronous.Fifo
import RecoNIC.Synchronous.FallThrough
import RecoNIC.Synchronous.AsyncFifo
import RecoNIC.Synchronous.Bram
import RecoNIC.Synchronous.RingFifo
import RecoNIC.RoceTypes
import RecoNIC.RoceStack.RequestHandler
import RecoNIC.RoceStack.RegisterFile
import RecoNIC.RoceStack.Vtp
import RecoNIC.RoceStack.Side
import RecoNIC.RoceStack.Handshake
import RecoNIC.RoceStack.MemoryProtection
import RecoNIC.RoceStack.Commands
import RecoNIC.RoceStack.RegisterPort
import RecoNIC.RoceStack.AxilPort
import RecoNIC.RoceStack.Csr
import RecoNIC.RoceStack.HostRegisters
import RecoNIC.RoceStack.ReadBack
import RecoNIC.RoceStack.Decoder
import RecoNIC.RoceStack.WriteBack
import RecoNIC.RoceStack.Settled
import RecoNIC.RoceStack.Translation
import RecoNIC.RoceStack.Isolation
import RecoNIC.RoceStack.Receiving
import RecoNIC.RoceStack.ProducerIndex
import RecoNIC.RoceStack.ReceiveBuffers
import RecoNIC.RoceStack.RdmaFlow
import RecoNIC.RoceStack.AckQueue
import RecoNIC.RoceStack.CreditWindow
import RecoNIC.RoceStack.RequestWord
import RecoNIC.RoceStack.WqManager
import RecoNIC.RoceStack.Handover
import RecoNIC.RoceStack.Configuration
import RecoNIC.RoceStack.Lane
import RecoNIC.RoceStack.WqLedger
import RecoNIC.RoceStack.WqLanes
import RecoNIC.RoceStack.WqCycle
import RecoNIC.RoceStack.BusyMarker
import RecoNIC.RoceStack.InOrder
import RecoNIC.RoceStack.Doorbell
import RecoNIC.RoceStack.SendPsn
import RecoNIC.RoceStack.Announce
import RecoNIC.RoceStack.MacPairing
import RecoNIC.RoceStack.Segmentation
import RecoNIC.RoceStack.ContextFirst
import RecoNIC.RoceStack.Completion
import RecoNIC.RoceStack.Fetch
import RecoNIC.Driver.RdmaApi
import RecoNIC.Driver.SendQueue
import RecoNIC.Driver.SendCompletion
import RecoNIC.Driver.WqeFormat
import RecoNIC.Driver.Receive
import RecoNIC.Driver.ReceiveQueue
import RecoNIC.Driver.Destroy
import RecoNIC.Driver.MemoryRegion
import RecoNIC.Driver.Setup
import RecoNIC.Driver.Connect
import RecoNIC.Driver.Allocator
import RecoNIC.Driver.HugePages
import RecoNIC.Driver.Bridge
import RecoNIC.Driver.MemoryApi
import RecoNIC.Driver.Teardown
import RecoNIC.Driver.QueuePair
import RecoNIC.PacketClassification.PacketFilter
import RecoNIC.PacketClassification.Steering
import RecoNIC.PacketClassification.PacketParser
import RecoNIC.PacketClassification.RoundTrip
import RecoNIC.PacketClassification.Classification
import RecoNIC.PacketClassification.ReceivePath
import RecoNIC.PacketClassification.PacketMatcher
import RecoNIC.PacketClassification.TableConfig
import RecoNIC.PacketClassification.MatchTable
import RecoNIC.Icrc.Tables
import RecoNIC.Icrc.BufferFifo
import RecoNIC.Icrc.Pipeline
import RecoNIC.Icrc.BackPressure
import RecoNIC.Icrc.Frames
import RecoNIC.Icrc.Flow
import RecoNIC.Icrc.Output
import RecoNIC.Icrc.Undisturbed
import RecoNIC.Icrc.Packet
import RecoNIC.Icrc.Networks
import RecoNIC.Compute.ControlCommand
import RecoNIC.Compute.Mmult
import RecoNIC.Compute.WritePort
import RecoNIC.Compute.CommandQueue
import RecoNIC.Compute.KernelStatus
import RecoNIC.Compute.Dispatch
import RecoNIC.Compute.MatrixProduct
import RecoNIC.Compute.Accelerator
import RecoNIC.RnRegControl.Counters
import RecoNIC.RnRegControl.ReadClear
