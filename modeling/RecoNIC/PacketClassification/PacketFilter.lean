import RecoNIC.Synchronous.FallThrough
import RecoNIC.Synchronous.Machine

/-!
# The packet filter

`packet_filter.sv` sends the packets that come from the network to the RDMA engine or to
the host.  Bit 0 of the metadata at the first beat decides, and the decision is held until
`tlast`.  The beats of RDMA packets and their metadata go through two FIFOs of their own,
the other packets through a third one.  The filter takes a beat in every cycle and does not
look at `full`, so a FIFO that is full loses the beat.

What the RDMA engine sees is put together from two FIFOs.  `Pairs` is that reading: which
words come out of so many beats and so many metadata words.  It composes, so a write is one
more word at its end and a read one less at its start, and this is all the invariant needs.
-/

namespace RecoNIC
namespace PacketFilter

open Synchronous

/-! ## The source -/

/-- One beat: the word that the packet FIFOs hold. -/
structure Beat where
  tdata : BitVec 512
  tkeep : BitVec 64
  tuserSize : BitVec 16
  tlast : Bool
  deriving DecidableEq

/-- `METADATA_WIDTH`. -/
abbrev Metadata := BitVec 263

/-- `metadata_in[0]`. -/
def isRdma (m : Metadata) : Bool := m.getLsbD 0

/-- `filter_state`. -/
inductive FilterState
  | idle
  | wrRoce
  | wrNonRoce
  deriving DecidableEq

/-- `filter_rd_rdma_state` and `filter_rd_nonrdma_state`. -/
inductive ReadState
  | idle
  | reading
  deriving DecidableEq

/-- The state of a reader behind a beat. -/
def ReadState.after (b : Beat) : ReadState := if b.tlast then .idle else .reading

/-- The inputs of one cycle. -/
structure Input where
  tvalid : Bool
  beat : Beat
  metadataIn : Metadata
  roceTready : Bool
  nonRoceTready : Bool

/-- A word at the output for RDMA: a beat, and `metadata_out` if it is valid. -/
structure RoceWord where
  beat : Beat
  metadata : Option Metadata
  deriving DecidableEq

/-- `FIFO_WRITE_DEPTH`. -/
def fifoWriteDepth : Nat := 512

/-- The packet FIFOs with their parameters, for an implementation that shows an entry at
once. -/
def pktFifo : FallThrough Beat :=
  Queue.fallThrough fifoWriteDepth (fifoWriteDepth - 5) ⟨0, 0, 0, false⟩

/-- `filter_metadata_fifo` with its parameters. -/
def metaFifo : FallThrough Metadata := Queue.fallThrough fifoWriteDepth (fifoWriteDepth - 5) 0

variable (D : FallThrough Beat) (E : FallThrough Metadata)

/-- The registers of the filter.  The two packet FIFOs have the same parameters. -/
structure State where
  filterState : FilterState
  filterRdRdmaState : ReadState
  filterRdNonRdmaState : ReadState
  rdmaPktFifo : D.State
  metadataFifo : E.State
  nonRdmaPktFifo : D.State
  /-- `pkt_filter_err[0]`. -/
  nonRdmaErr : Bool
  /-- `pkt_filter_err[1]`. -/
  rdmaErr : Bool

variable {D E}

namespace State

/-- After reset. -/
def reset : State D E where
  filterState := .idle
  filterRdRdmaState := .idle
  filterRdNonRdmaState := .idle
  rdmaPktFifo := D.reset
  metadataFifo := E.reset
  nonRdmaPktFifo := D.reset
  nonRdmaErr := false
  rdmaErr := false

variable (s : State D E) (i : Input)

/-- `meta_wr_en`. -/
def metaWrEn : Bool :=
  match s.filterState with
  | .idle => i.tvalid && isRdma i.metadataIn
  | .wrRoce => false
  | .wrNonRoce => false

/-- `rdma_pkt_wr_en`. -/
def rdmaPktWrEn : Bool :=
  match s.filterState with
  | .idle => i.tvalid && isRdma i.metadataIn
  | .wrRoce => i.tvalid
  | .wrNonRoce => false

/-- `non_rdma_pkt_wr_en`. -/
def nonRdmaPktWrEn : Bool :=
  match s.filterState with
  | .idle => i.tvalid && !isRdma i.metadataIn
  | .wrRoce => false
  | .wrNonRoce => i.tvalid

/-- `filter_nextstate`. -/
def filterNextstate : FilterState :=
  if i.tvalid then
    if i.beat.tlast then .idle
    else
      match s.filterState with
      | .idle => if isRdma i.metadataIn then .wrRoce else .wrNonRoce
      | .wrRoce => .wrRoce
      | .wrNonRoce => .wrNonRoce
  else s.filterState

/-- `meta_rd_en`. -/
def metaRdEn : Bool :=
  match s.filterRdRdmaState with
  | .idle => i.roceTready && !E.empty s.metadataFifo && !D.empty s.rdmaPktFifo
  | .reading => false

/-- `rdma_pkt_rd_en`. -/
def rdmaPktRdEn : Bool :=
  match s.filterRdRdmaState with
  | .idle => i.roceTready && !E.empty s.metadataFifo && !D.empty s.rdmaPktFifo
  | .reading => i.roceTready && !D.empty s.rdmaPktFifo

/-- `non_rdma_pkt_rd_en`.  The two states of the reader do not differ. -/
def nonRdmaPktRdEn : Bool :=
  match s.filterRdNonRdmaState with
  | .idle => i.nonRoceTready && !D.empty s.nonRdmaPktFifo
  | .reading => i.nonRoceTready && !D.empty s.nonRdmaPktFifo

/-- What is offered, and taken, at `m_axis_roce` and `metadata_out`. -/
def roceOut : Option RoceWord :=
  if s.rdmaPktRdEn i then
    some ⟨D.dout s.rdmaPktFifo, if s.metaRdEn i then some (E.dout s.metadataFifo) else none⟩
  else none

/-- What is offered, and taken, at `m_axis_non_roce`. -/
def nonRoceOut : Option Beat :=
  if s.nonRdmaPktRdEn i then some (D.dout s.nonRdmaPktFifo) else none

/-- One clock edge. -/
def step : State D E where
  filterState := s.filterNextstate i
  filterRdRdmaState :=
    if s.rdmaPktRdEn i then .after (D.dout s.rdmaPktFifo) else s.filterRdRdmaState
  filterRdNonRdmaState :=
    if s.nonRdmaPktRdEn i then .after (D.dout s.nonRdmaPktFifo) else s.filterRdNonRdmaState
  rdmaPktFifo := D.step s.rdmaPktFifo (s.rdmaPktRdEn i) (s.rdmaPktWrEn i) i.beat
  metadataFifo := E.step s.metadataFifo (s.metaRdEn i) (s.metaWrEn i) i.metadataIn
  nonRdmaPktFifo := D.step s.nonRdmaPktFifo (s.nonRdmaPktRdEn i) (s.nonRdmaPktWrEn i) i.beat
  nonRdmaErr := s.nonRdmaErr || D.progFull s.nonRdmaPktFifo
  rdmaErr := s.rdmaErr || D.progFull s.rdmaPktFifo

end State

/-! ## The ledger -/

/-- A packet that was received. -/
structure Packet where
  /-- The metadata at its first beat. -/
  metadata : Metadata
  first : Beat
  later : List Beat
  /-- There was room for its first beat. -/
  stored : Bool
  deriving DecidableEq

namespace Packet

variable (p : Packet)

/-- All beats. -/
def beats : List Beat := p.first :: p.later

/-- The packet as the RDMA engine is meant to see it. -/
def roceWords : List RoceWord :=
  ⟨p.first, some p.metadata⟩ :: p.later.map fun b => ⟨b, none⟩

end Packet

/-- What came in and what went out. -/
structure Ledger where
  /-- The packets that have come to their last beat. -/
  finished : List Packet
  /-- The packet that is being received. -/
  current : Option Packet
  /-- The words taken by the RDMA engine. -/
  roce : List RoceWord
  /-- The beats taken by the host. -/
  nonRoce : List Beat

namespace Ledger

/-- Nothing has happened. -/
def empty : Ledger := ⟨[], none, [], []⟩

variable (l : Ledger)

/-- All packets, in the order they came. -/
def received : List Packet := l.finished ++ l.current.toList

/-- The packet with one more beat. -/
def extend (m : Metadata) (b : Beat) (room : Bool) : Packet :=
  match l.current with
  | none => ⟨m, b, [], room⟩
  | some p => { p with later := p.later ++ [b] }

/-- A beat comes. -/
def arrive (m : Metadata) (b : Beat) (room : Bool) : Ledger :=
  let p := l.extend m b room
  if b.tlast then { l with finished := l.finished ++ [p], current := none }
  else { l with current := some p }

end Ledger

namespace State

variable (s : State D E)

/-- The packet FIFO for packets with this metadata is full. -/
def pktFull (m : Metadata) : Bool :=
  if isRdma m then D.full s.rdmaPktFifo else D.full s.nonRdmaPktFifo

end State

/-- One cycle. -/
def note (l : Ledger) (s : State D E) (i : Input) : Ledger :=
  let l' := if i.tvalid then l.arrive i.metadataIn i.beat (!s.pktFull i.metadataIn) else l
  { l' with
    roce := l.roce ++ (s.roceOut i).toList
    nonRoce := l.nonRoce ++ (s.nonRoceOut i).toList }

variable (D E) in
/-- The filter, watched. -/
def packetFilter : Machine (State D E × Ledger) Input :=
  Machine.watch ⟨State.reset, State.step⟩ Ledger.empty note

end PacketFilter
end RecoNIC
