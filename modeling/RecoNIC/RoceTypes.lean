import Mathlib.Algebra.Ring.Nat

/-!
# The package `roceTypes`

The structs and constants of `roce_pkg.sv` that the modelled modules use.  A
packed struct is a structure with one bit vector per member, of the member's
width; a one-bit member is a `Bool`.  Register numbers keep the seven-bit type
of `bram_idx`, so that `NUM_QP_REGS` --- one past the last register, which the
design uses as a tag of its own --- is a value of the type.
-/

namespace RecoNIC

/-! ## Opcodes -/

def rcSendFirst : BitVec 5 := 0x0
def rcSendMiddle : BitVec 5 := 0x1
def rcSendLast : BitVec 5 := 0x2
def rcSendOnly : BitVec 5 := 0x4
def rcRdmaWriteFirst : BitVec 5 := 0x6
def rcRdmaWriteMiddle : BitVec 5 := 0x7
def rcRdmaWriteLast : BitVec 5 := 0x8
def rcRdmaWriteOnly : BitVec 5 := 0xA
def rcRdmaReadRequest : BitVec 5 := 0xC
def rcRdmaReadRespFirst : BitVec 5 := 0xD
def rcRdmaReadRespMiddle : BitVec 5 := 0xE
def rcRdmaReadRespLast : BitVec 5 := 0xF
def rcRdmaReadRespOnly : BitVec 5 := 0x10

/-- `is_opcode_rd_req`. -/
def isOpcodeRdReq (opcode : BitVec 5) : Bool := opcode == rcRdmaReadRequest

/-- `is_opcode_rd_resp`. -/
def isOpcodeRdResp (opcode : BitVec 5) : Bool :=
  opcode == rcRdmaReadRespFirst || opcode == rcRdmaReadRespMiddle ||
    opcode == rcRdmaReadRespLast || opcode == rcRdmaReadRespOnly

/-! ## Register numbers -/

/-- The number of a register inside its region, the type of `bram_idx`. -/
abbrev RegIdx := BitVec 7

def pdpdnumIdx : RegIdx := 0
def virtaddrlsbIdx : RegIdx := 1
def virtaddrmsbIdx : RegIdx := 2
def bufbaseaddrlsbIdx : RegIdx := 3
def bufbaseaddrmsbIdx : RegIdx := 4
def bufrkeyIdx : RegIdx := 5
def wrrdbuflenIdx : RegIdx := 6
def accessdescIdx : RegIdx := 7

def qpconfiIdx : RegIdx := 0
def qpadvconfiIdx : RegIdx := 1
def rqbaiIdx : RegIdx := 2
def rqbamsbiIdx : RegIdx := 3
def sqbaiIdx : RegIdx := 4
def sqbamsbiIdx : RegIdx := 5
def cqbaiIdx : RegIdx := 6
def cqbamsbiIdx : RegIdx := 7
def rqwptrdbaddiIdx : RegIdx := 8
def rqwptrdbaddmsbiIdx : RegIdx := 9
def cqdbaddiIdx : RegIdx := 10
def cqdbaddmsbiIdx : RegIdx := 11
def cqheadiIdx : RegIdx := 12
def rqciiIdx : RegIdx := 13
def sqpiiIdx : RegIdx := 14
def qdepthiIdx : RegIdx := 15
def sqpsniIdx : RegIdx := 16
def lstrqreqiIdx : RegIdx := 17
def destqpconfiIdx : RegIdx := 18
def macdesaddlsbiIdx : RegIdx := 19
def macdesaddmsbiIdx : RegIdx := 20
def ipdesaddr1iIdx : RegIdx := 21
def ipdesaddr2iIdx : RegIdx := 22
def ipdesaddr3iIdx : RegIdx := 23
def ipdesaddr4iIdx : RegIdx := 24
def timeoutconfiIdx : RegIdx := 25
def statssniIdx : RegIdx := 26
def statmsniIdx : RegIdx := 27
def statqpiIdx : RegIdx := 28
def statcursqptriIdx : RegIdx := 29
def statrespsniIdx : RegIdx := 30
def statrqbufcaiIdx : RegIdx := 31
def statrqbufcamsbiIdx : RegIdx := 32
def statwqeiIdx : RegIdx := 33
def statrqpidbiIdx : RegIdx := 34
def pdnumiIdx : RegIdx := 35

/-- `NUM_QP_REGS`. -/
def numQpRegs : RegIdx := 36

/-! ## Structs -/

/-- `req_t`. -/
structure Req where
  opcode : BitVec 5
  strm : BitVec 2
  mode : Bool
  rdma : Bool
  remote : Bool
  vfid : BitVec 4
  pid : BitVec 6
  dest : BitVec 4
  qpn : BitVec 16
  last : Bool
  vaddr : BitVec 64
  tag : BitVec 32
  len : BitVec 28
  actv : Bool
  host : Bool
  offs : BitVec 6
  rsrvd : BitVec 3
  deriving DecidableEq

instance : Inhabited Req :=
  ⟨⟨0, 0, false, false, false, 0, 0, 0, 0, false, 0, 0, 0, false, false, 0, 0⟩⟩

/-- `dreq_t`: the two halves of a request to the stack. -/
structure Dreq where
  req1 : Req
  req2 : Req
  deriving DecidableEq, Inhabited

/-- `ack_t`. -/
structure Ack where
  opcode : BitVec 5
  strm : BitVec 2
  remote : Bool
  host : Bool
  dest : BitVec 4
  pid : BitVec 6
  vfid : BitVec 4
  qpNum : BitVec 16
  rsrvd : BitVec 9
  deriving DecidableEq

instance : Inhabited Ack := ⟨⟨0, 0, false, false, 0, 0, 0, 0, 0⟩⟩

/-- `dack_t`. -/
structure Dack where
  ack : Ack
  last : Bool
  deriving DecidableEq, Inhabited

/-- `SQdata_struct`: what a doorbell of a queue pair carries, and what the two
caches of the work-queue manager hold. -/
structure SQdata where
  sqIdx : BitVec 8
  cqBaseAddr : BitVec 64
  sqBaseAddr : BitVec 64
  sqProdIdx : BitVec 32
  cqHeadIdx : BitVec 32
  qpConf : BitVec 32
  deriving DecidableEq

instance : Inhabited SQdata := ⟨⟨0, 0, 0, 0, 0, 0⟩⟩

/-- `rd_cmd_t`.  Region 0 is global, 1 the protection domains, 2 the queue
pairs. -/
structure RdCmd where
  region : BitVec 2
  readAll : Bool
  bramIdx : RegIdx
  address : BitVec 8
  deriving DecidableEq

instance : Inhabited RdCmd := ⟨⟨0, false, 0, 0⟩⟩

/-- `wr_cmd_t`. -/
structure WrCmd where
  region : BitVec 2
  bramIdx : RegIdx
  address : BitVec 8
  wstrb : BitVec 4
  data : BitVec 32
  deriving DecidableEq

instance : Inhabited WrCmd := ⟨⟨0, 0, 0, 0, 0⟩⟩

/-- `dma_req_t`: the answer to an address lookup. -/
structure DmaReq where
  buflen : BitVec 48
  baseVaddr : BitVec 64
  accesdesc : BitVec 4
  paddr : BitVec 64
  rkey : BitVec 32
  deriving DecidableEq

instance : Inhabited DmaReq := ⟨⟨0, 0, 0, 0, 0⟩⟩

/-- `rdma_qp_ctx_t`. -/
structure RdmaQpCtx where
  vaddr : BitVec 64
  rKey : BitVec 32
  remotePsn : BitVec 24
  localPsn : BitVec 24
  qpNum : BitVec 24
  newState : BitVec 32
  deriving DecidableEq

instance : Inhabited RdmaQpCtx := ⟨⟨0, 0, 0, 0, 0, 0⟩⟩

/-- `rdma_qp_conn_t`. -/
structure RdmaQpConn where
  destMacAddr : BitVec 48
  remoteUdpPort : BitVec 16
  remoteIpAddress : BitVec 128
  remoteQpn : BitVec 24
  localQpn : BitVec 16
  deriving DecidableEq

instance : Inhabited RdmaQpConn := ⟨⟨0, 0, 0, 0, 0⟩⟩

end RecoNIC
