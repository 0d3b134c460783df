import RecoNIC.RoceTypes
import RecoNIC.Synchronous.Bram
import RecoNIC.Synchronous.Fifo
import RecoNIC.Synchronous.Machine

/-!
# The work-queue manager

`roce_stack_wq_manager.sv`.  A doorbell is captured with a snapshot of the registers
of its queue pair and queued; the `SQ_*` machine takes it, looks up the send-queue
cache, and, if the queue pair is not busy, has the `AR_*` machine fetch a work-queue
element and the `QP_*` machine update the context of the queue pair, and issues the
element as one request or several.  The `ACK_*` machine takes an acknowledgement,
advances the head of the queue pair in the cache, and queues the queue pair again
in the batch FIFO while its head is behind its producer index.

One definition is one `always_comb` block; the flags that one block drives for
another have definitions of their own, before the blocks.  The outputs that no
other part of the design reads (the constant wires of the AXI channels) are left
out.
-/

namespace RecoNIC
namespace WqManager

open Synchronous

/-! ## Registers -/

/-- `conn_state`. -/
inductive ConnState where
  | idle | ifValid | valid
  deriving DecidableEq

/-- `qp_state`. -/
inductive QpState where
  | idle | ifValid | valid | sqRdQp | sqValid | sqDone
  deriving DecidableEq

/-- `sq_fifo_st`. -/
inductive SqFifoState where
  | idle | valid
  deriving DecidableEq

/-- `sq_state`. -/
inductive SqState where
  | idle | getQueue | readCache | checkQueueBusy | ifReady | waitQp | write | send | read
  | valid | writeCqCache
  deriving DecidableEq

/-- `cq_state`. -/
inductive AckState where
  | idle | getCaches | readCaches | updateCqhead | writeCompletion | wbFifoCache | finish
  deriving DecidableEq

/-- `aw_state`. -/
inductive AwState where
  | idle | calcAddr | valid | writing | bresp | done
  deriving DecidableEq

/-- `ar_state`. -/
inductive ArState where
  | idle | calcAddr | valid | reading | done
  deriving DecidableEq

/-- The registers of the connection interface. -/
structure ConnIf where
  st : ConnState
  ctx : RdmaQpConn

/-- The registers of the queue-pair interface. -/
structure QpIf where
  st : QpState
  rdQp : RdCmd
  ctx : RdmaQpCtx
  intfDone : Bool

/-- The registers that capture a doorbell. -/
structure SqFifoIf where
  st : SqFifoState
  input : SQdata

/-- The registers of the send-queue interface. -/
structure SqIf where
  st : SqState
  output : SQdata
  cDouta : SQdata
  localidx : BitVec 32
  mtu : BitVec 32
  logMtu : BitVec 4
  transferLength : BitVec 32
  currLocalPaddr : BitVec 64
  currRemoteVaddr : BitVec 64
  req : Dreq
  cqReg : BitVec 32
  last : Bool
  first : Bool
  fetchWqe : Bool

/-- The registers of the acknowledgement interface. -/
structure AckIf where
  st : AckState
  currAck : Ack
  sqCDoutb : SQdata
  cqCDoutb : BitVec 32

/-- The registers of the AXI write master. -/
structure AwIf where
  st : AwState
  wrAddr : BitVec 64

/-- The registers of the AXI read master. -/
structure ArIf where
  st : ArState
  rdAddr : BitVec 64
  wqe : BitVec 512
  newWqeFetched : Bool

/-- The whole state. -/
structure State where
  conn : ConnIf
  qp : QpIf
  sqFifoIf : SqFifoIf
  sq : SqIf
  ack : AckIf
  aw : AwIf
  ar : ArIf
  sqFifo : Fifo SQdata 3
  sqFifoBatch : Fifo SQdata 3
  sqCache : Bram (BitVec 8) SQdata
  cqCache : Bram (BitVec 8) (BitVec 32)

/-- After reset, with both caches zeroed. -/
def State.reset : State where
  conn := ⟨.idle, default⟩
  qp := ⟨.idle, default, default, false⟩
  sqFifoIf := ⟨.idle, default⟩
  sq := ⟨.idle, default, default, 0, 0, 0, 0, 0, 0, default, 0, false, true, false⟩
  ack := ⟨.idle, default, default, 0⟩
  aw := ⟨.idle, 0⟩
  ar := ⟨.idle, 0, 0, false⟩
  sqFifo := Fifo.reset default
  sqFifoBatch := Fifo.reset default
  sqCache := Bram.reset (fun _ => default) default
  cqCache := Bram.reset (fun _ => 0) 0

/-- The inputs of one cycle. -/
structure Input where
  qpIdx : BitVec 8
  connConfigured : Bool
  qpConfigured : Bool
  sqUpdated : Bool
  conf : BitVec 32
  qpConf : BitVec 32
  destQpConf : BitVec 24
  ipDesAddr1 : BitVec 32
  macDesAdd : BitVec 48
  sqPsn : BitVec 24
  lstRqReq : BitVec 32
  sqBa : BitVec 64
  cqBa : BitVec 64
  sqPi : BitVec 32
  cqHead : BitVec 32
  rdQpReady : Bool
  connReady : Bool
  qpReady : Bool
  sqReady : Bool
  /-- `s_rdma_ack_data_i`, where it is valid. -/
  ack : Option Ack
  awReady : Bool
  wReady : Bool
  bValid : Bool
  arReady : Bool
  /-- `rdata` and `rlast`, where they are valid. -/
  rData : Option (BitVec 512 × Bool)
  /-- Of two writes to one entry of a cache, the one of the second port stays. -/
  bLast : Bool

/-! ## Handshakes between the machines -/

/-- The opcode of a work-queue element. -/
def wqeOpcode (wqe : BitVec 512) : BitVec 8 := wqe.extractLsb' 128 8

/-- The queue pair is enabled, and its MTU field is one of the five defined ones. -/
def qpEnabled (qpConf : BitVec 32) : Bool :=
  qpConf.getLsbD 0 && decide (qpConf.extractLsb' 8 3 ≤ 4#3)

namespace State

variable (s : State) (i : Input)

/-- `fetch_wqe_ack`. -/
def fetchWqeAck : Bool := s.ar.st == .idle && s.sq.fetchWqe

/-- `new_wqe_fetched_ack`. -/
def newWqeFetchedAck : Bool := s.qp.st == .idle && !i.qpConfigured && s.ar.newWqeFetched

/-- `qp_intf_done_ack`. -/
def qpIntfDoneAck : Bool := s.sq.st == .waitQp && s.qp.intfDone

/-- `write_completion`. -/
def writeCompletion : Bool := s.ack.st == .updateCqhead && s.ack.sqCDoutb.qpConf.getLsbD 5

/-- `completion_written`. -/
def completionWritten : Bool := s.aw.st == .done

/-- `sq_fifo_wr`. -/
def sqFifoWr : Bool := s.sqFifoIf.st == .valid

/-- `sq_fifo_rd`. -/
def sqFifoRd : Bool := s.sq.st == .idle && s.sqFifo.readyRd

/-- `sq_fifo_batch_rd`. -/
def sqFifoBatchRd : Bool := s.sq.st == .idle && !s.sqFifo.readyRd && s.sqFifoBatch.readyRd

/-- `sq_fifo_batch_wr`. -/
def sqFifoBatchWr : Bool :=
  s.ack.st == .finish && s.ack.sqCDoutb.sqProdIdx != 0#32 && s.sqFifoBatch.readyWr

/-- The first port of the send-queue cache. -/
def sqCacheA : Access (BitVec 8) SQdata where
  en := s.sq.st == .getQueue || s.sq.st == .checkQueueBusy
  we := s.sq.st == .checkQueueBusy
  addr := s.sq.output.sqIdx
  di := s.sq.output

/-- The queue pair of the acknowledgement, as the caches are addressed. -/
def ackQp : BitVec 8 := s.ack.currAck.qpNum.setWidth 8

/-- The second port of the send-queue cache. -/
def sqCacheB : Access (BitVec 8) SQdata where
  en := s.ack.st == .getCaches || s.ack.st == .finish
  we := s.ack.st == .finish
  addr := s.ackQp
  di := s.ack.sqCDoutb

/-- The first port of the completion-queue cache. -/
def cqCacheA : Access (BitVec 8) (BitVec 32) where
  en := s.sq.st == .writeCqCache
  we := s.sq.st == .writeCqCache
  addr := s.sq.output.sqIdx
  di := s.sq.cqReg

/-- The second port of the completion-queue cache. -/
def cqCacheB : Access (BitVec 8) (BitVec 32) where
  en := s.ack.st == .getCaches
  we := false
  addr := s.ackQp
  di := 0

/-- `WB_CQHEADi_o`, where it is valid: a queue pair and its head. -/
def wbCqhead : Option (BitVec 8 × BitVec 32) :=
  if s.ack.st = .updateCqhead then some (s.ack.sqCDoutb.sqIdx, s.ack.sqCDoutb.cqHeadIdx)
  else none

/-- `rd_qp_o`, where it is valid. -/
def rdQpOut : Option RdCmd := if s.qp.st = .sqRdQp then some s.qp.rdQp else none

/-! ## The blocks -/

/-- The connection interface. -/
def connStep : ConnIf :=
  match s.conn.st with
  | .idle =>
    if i.connConfigured && i.ipDesAddr1 != 0#32 then
      { st := .valid
        ctx :=
          { destMacAddr := i.macDesAdd
            remoteUdpPort := i.conf.extractLsb' 16 16
            remoteIpAddress := i.ipDesAddr1 ++ i.ipDesAddr1 ++ i.ipDesAddr1 ++ i.ipDesAddr1
            remoteQpn := i.destQpConf
            localQpn := 0#8 ++ i.qpIdx } }
    else s.conn
  | .valid => if i.connReady then { s.conn with st := .idle } else s.conn
  | .ifValid => s.conn

/-- The context of the queue pair on the register wires. -/
def qpCtx (vaddr : BitVec 64) (rKey : BitVec 32) : RdmaQpCtx where
  vaddr := vaddr
  rKey := rKey
  localPsn := i.sqPsn
  remotePsn := i.lstRqReq.setWidth 24 + 1
  qpNum := 0#16 ++ i.qpIdx
  newState := 0

/-- The queue-pair interface. -/
def qpStep : QpIf :=
  match s.qp.st with
  | .idle =>
    if i.qpConfigured then
      if qpEnabled i.qpConf then
        { s.qp with st := .valid, ctx := qpCtx i 0 0, intfDone := false }
      else { s.qp with intfDone := false }
    else if s.ar.newWqeFetched then
      { s.qp with
        st := .sqRdQp, rdQp := ⟨2, true, numQpRegs, s.sq.output.sqIdx⟩, intfDone := false }
    else { s.qp with intfDone := false }
  | .sqRdQp =>
    if i.rdQpReady then
      if qpEnabled i.qpConf then
        { s.qp with
          st := .sqValid
          ctx := qpCtx i (s.ar.wqe.extractLsb' 160 64) (s.ar.wqe.extractLsb' 224 32)
          intfDone := false }
      else { s.qp with st := .idle, intfDone := false }
    else { s.qp with intfDone := false }
  | .valid => { s.qp with st := if i.qpReady then .idle else .valid, intfDone := false }
  | .sqValid =>
    if i.qpReady then { s.qp with st := .sqDone, intfDone := true }
    else { s.qp with intfDone := false }
  | .sqDone =>
    if s.qpIntfDoneAck then { s.qp with st := .idle, intfDone := false }
    else { s.qp with intfDone := true }
  | .ifValid => { s.qp with intfDone := false }

/-- The capture of a doorbell. -/
def sqFifoStep : SqFifoIf :=
  match s.sqFifoIf.st with
  | .idle =>
    if i.sqUpdated && s.sqFifo.readyWr then
      { st := .valid
        input :=
          { sqIdx := i.qpIdx
            cqBaseAddr := i.cqBa
            sqBaseAddr := i.sqBa
            sqProdIdx := i.sqPi
            cqHeadIdx := i.cqHead
            qpConf := i.qpConf } }
    else s.sqFifoIf
  | .valid => { s.sqFifoIf with st := .idle }

end State

/-! ### The packets of a work-queue element -/

namespace SqIf

variable (s : SqIf) (wqe : BitVec 512)

/-- Load `sq_req` with one packet; the members that no branch sets keep their value. -/
def packet (opcode : BitVec 5) (last : Bool) (vaddr : BitVec 64) (len : BitVec 32)
    (paddr : BitVec 64) : SqIf :=
  { s with
    st := .valid
    last := last
    req :=
      { req1 :=
          { s.req.req1 with
            opcode := opcode
            qpn := 0#8 ++ s.output.sqIdx
            last := last
            offs := 0
            vaddr := vaddr
            len := len.setWidth 28
            rsrvd := 0 }
        req2 :=
          { s.req.req2 with
            vaddr := paddr
            offs := 0
            len := len.setWidth 28
            rsrvd := 0 } } }

/-- The length of the transfer. -/
def wqeLen : BitVec 32 := wqe.extractLsb' 96 32

/-- The address of the local buffer. -/
def wqeLocal : BitVec 64 := wqe.extractLsb' 32 64

/-- The remote address. -/
def wqeRemote : BitVec 64 := wqe.extractLsb' 160 64

/-- `SQ_WRITE`. -/
def writeStep : SqIf :=
  if s.first then
    if wqeLen wqe ≤ s.mtu then
      s.packet rcRdmaWriteOnly true (wqeRemote wqe) (wqeLen wqe) (wqeLocal wqe)
    else
      { s.packet rcRdmaWriteFirst false (wqeRemote wqe) s.mtu (wqeLocal wqe) with
        transferLength := wqeLen wqe - s.mtu
        currLocalPaddr := wqeLocal wqe + s.mtu.setWidth 64
        currRemoteVaddr := wqeRemote wqe + s.mtu.setWidth 64
        first := false }
  else if s.transferLength ≤ s.mtu then
    s.packet rcRdmaWriteLast true s.currRemoteVaddr s.transferLength s.currLocalPaddr
  else
    { s.packet rcRdmaWriteMiddle false s.currRemoteVaddr s.mtu s.currLocalPaddr with
      transferLength := s.transferLength - s.mtu
      currLocalPaddr := s.currLocalPaddr + s.mtu.setWidth 64
      currRemoteVaddr := s.currRemoteVaddr + s.mtu.setWidth 64
      first := false }

/-- `SQ_SEND`. -/
def sendStep : SqIf :=
  if s.first then
    if wqeLen wqe ≤ s.mtu then
      s.packet rcSendOnly true 0 (wqeLen wqe) (wqeLocal wqe)
    else
      { s.packet rcSendFirst false 0 s.mtu (wqeLocal wqe) with
        transferLength := wqeLen wqe - s.mtu
        currLocalPaddr := wqeLocal wqe + s.mtu.setWidth 64
        first := false }
  else if s.transferLength ≤ s.mtu then
    s.packet rcSendLast true 0 s.transferLength s.currLocalPaddr
  else
    { s.packet rcSendMiddle false 0 s.mtu s.currLocalPaddr with
      transferLength := s.transferLength - s.mtu
      currLocalPaddr := s.currLocalPaddr + s.mtu.setWidth 64
      first := false }

/-- `SQ_READ`. -/
def readStep : SqIf :=
  s.packet rcRdmaReadRequest true (wqeRemote wqe) (wqeLen wqe) (wqeLocal wqe)

end SqIf

namespace State

variable (s : State) (i : Input)

/-- The send-queue interface, apart from `fetch_wqe`. -/
def sqNext : SqIf :=
  match s.sq.st with
  | .idle =>
    if s.sqFifo.readyRd then { s.sq with output := s.sqFifo.dataOut, st := .getQueue }
    else if s.sqFifoBatch.readyRd then
      { s.sq with output := s.sqFifoBatch.dataOut, st := .ifReady }
    else s.sq
  | .getQueue => { s.sq with st := .readCache }
  | .readCache =>
    { s.sq with
      cDouta := s.sqCache.douta
      output :=
        if s.sqCache.douta.sqProdIdx ≠ 0#32 then
          { s.sq.output with cqHeadIdx := s.sqCache.douta.cqHeadIdx }
        else s.sq.output
      st := .checkQueueBusy }
  | .checkQueueBusy =>
    { s.sq with st := if s.sq.cDouta.sqProdIdx = 0#32 then .ifReady else .idle }
  | .ifReady =>
    if s.sq.output.sqProdIdx ≤ s.sq.output.cqHeadIdx then { s.sq with st := .idle }
    else
      { s.sq with
        localidx := s.sq.output.cqHeadIdx
        mtu := 4096
        logMtu := 12
        st := if s.fetchWqeAck then .waitQp else .ifReady }
  | .waitQp =>
    if s.qp.intfDone then
      if wqeOpcode s.ar.wqe = 0x00#8 then { s.sq with st := .write }
      else if wqeOpcode s.ar.wqe = 0x02#8 then { s.sq with st := .send }
      else if wqeOpcode s.ar.wqe = 0x04#8 then { s.sq with st := .read }
      else s.sq
    else s.sq
  | .write => s.sq.writeStep s.ar.wqe
  | .send => s.sq.sendStep s.ar.wqe
  | .read => s.sq.readStep s.ar.wqe
  | .valid =>
    if i.sqReady then
      if s.sq.last then
        { s.sq with
          last := false
          first := true
          cqReg := 0#8 ++ wqeOpcode s.ar.wqe ++ s.ar.wqe.setWidth 16
          st := .writeCqCache }
      else if wqeOpcode s.ar.wqe = 0x00#8 then { s.sq with st := .write }
      else if wqeOpcode s.ar.wqe = 0x02#8 then { s.sq with st := .send }
      else s.sq
    else s.sq
  | .writeCqCache => { s.sq with st := .idle }

/-- `fetch_wqe_d`. -/
def fetchWqeNext : Bool :=
  s.sq.st == .ifReady && decide (s.sq.output.cqHeadIdx < s.sq.output.sqProdIdx) &&
    !s.fetchWqeAck

/-- The send-queue interface. -/
def sqStep : SqIf := { s.sqNext i with fetchWqe := s.fetchWqeNext }

/-- The acknowledgement interface. -/
def ackStep : AckIf :=
  match s.ack.st with
  | .idle =>
    match i.ack with
    | some a => { s.ack with currAck := a, st := .getCaches }
    | none => s.ack
  | .getCaches => { s.ack with st := .readCaches }
  | .readCaches =>
    { s.ack with
      sqCDoutb := { s.sqCache.doutb with cqHeadIdx := s.sqCache.doutb.cqHeadIdx + 1 }
      cqCDoutb := s.cqCache.doutb
      st := .updateCqhead }
  | .updateCqhead =>
    { s.ack with
      st := if s.ack.sqCDoutb.qpConf.getLsbD 5 then .writeCompletion else .wbFifoCache }
  | .writeCompletion => if s.completionWritten then { s.ack with st := .wbFifoCache } else s.ack
  | .wbFifoCache =>
    { s.ack with
      sqCDoutb :=
        if s.ack.sqCDoutb.sqProdIdx ≤ s.ack.sqCDoutb.cqHeadIdx then
          { s.ack.sqCDoutb with sqProdIdx := 0 }
        else s.ack.sqCDoutb
      st := .finish }
  | .finish =>
    if s.ack.sqCDoutb.sqProdIdx ≠ 0#32 then
      if s.sqFifoBatch.readyWr then { s.ack with st := .idle } else s.ack
    else { s.ack with st := .idle }

/-- The AXI write master. -/
def awStep : AwIf :=
  match s.aw.st with
  | .idle => if s.writeCompletion then { s.aw with st := .calcAddr } else s.aw
  | .calcAddr =>
    { st := .valid
      wrAddr := s.ack.sqCDoutb.cqBaseAddr.extractLsb' 34 30 ++
        (s.ack.sqCDoutb.cqBaseAddr.extractLsb' 2 32 + (s.ack.sqCDoutb.cqHeadIdx - 1)) ++
        s.ack.sqCDoutb.cqBaseAddr.setWidth 2 }
  | .valid => if i.awReady then { s.aw with st := .writing } else s.aw
  | .writing => if i.wReady then { s.aw with st := .done } else s.aw
  | .bresp => if i.bValid then { s.aw with st := .done } else s.aw
  | .done => { s.aw with st := .idle }

/-- The AXI read master. -/
def arStep : ArIf :=
  match s.ar.st with
  | .idle =>
    if s.sq.fetchWqe then { s.ar with st := .calcAddr, newWqeFetched := false }
    else { s.ar with newWqeFetched := false }
  | .calcAddr =>
    { s.ar with
      rdAddr := s.sq.output.sqBaseAddr.extractLsb' 38 26 ++
        (s.sq.output.sqBaseAddr.extractLsb' 6 32 + s.sq.localidx) ++
        s.sq.output.sqBaseAddr.setWidth 6
      st := .valid
      newWqeFetched := false }
  | .valid => { s.ar with st := if i.arReady then .reading else .valid, newWqeFetched := false }
  | .reading =>
    match i.rData with
    | some (rdata, rlast) =>
      if rlast then { s.ar with wqe := rdata, st := .done, newWqeFetched := true }
      else { s.ar with wqe := rdata, newWqeFetched := false }
    | none => { s.ar with newWqeFetched := false }
  | .done =>
    if s.newWqeFetchedAck i then { s.ar with st := .idle, newWqeFetched := false }
    else { s.ar with newWqeFetched := true }

/-- One clock edge. -/
def step : State where
  conn := s.connStep i
  qp := s.qpStep i
  sqFifoIf := s.sqFifoStep i
  sq := s.sqStep i
  ack := s.ackStep i
  aw := s.awStep i
  ar := s.arStep i
  sqFifo := s.sqFifo.step s.sqFifoRd s.sqFifoWr s.sqFifoIf.input
  sqFifoBatch := s.sqFifoBatch.step s.sqFifoBatchRd s.sqFifoBatchWr s.ack.sqCDoutb
  sqCache := s.sqCache.step s.sqCacheA s.sqCacheB i.bLast
  cqCache := s.cqCache.step s.cqCacheA s.cqCacheB i.bLast

end State

/-- The work-queue manager as a machine. -/
def wqManager : Machine State Input := ⟨State.reset, State.step⟩

/-! ## What no branch sets -/

/-- `pid` and `vfid` of `sq_req_d.req_1` are what they are after reset. -/
structure Unnumbered (s : SqIf) : Prop where
  pid : s.req.req1.pid = 0
  vfid : s.req.req1.vfid = 0

section Unnumbered

variable {s : SqIf}

theorem Unnumbered.writeStep (h : Unnumbered s) (wqe : BitVec 512) :
    Unnumbered (s.writeStep wqe) := by
  unfold SqIf.writeStep
  split_ifs <;> exact ⟨h.pid, h.vfid⟩

theorem Unnumbered.sendStep (h : Unnumbered s) (wqe : BitVec 512) :
    Unnumbered (s.sendStep wqe) := by
  unfold SqIf.sendStep
  split_ifs <;> exact ⟨h.pid, h.vfid⟩

theorem Unnumbered.step {s : State} (h : Unnumbered s.sq) (i : Input) :
    Unnumbered (s.step i).sq := by
  have hnext : Unnumbered (s.sqNext i) := by
    unfold State.sqNext
    cases s.sq.st
    case write => exact h.writeStep s.ar.wqe
    case send => exact h.sendStep s.ar.wqe
    case read => exact ⟨h.pid, h.vfid⟩
    all_goals dsimp only; (try split_ifs) <;> exact ⟨h.pid, h.vfid⟩
  exact ⟨hnext.pid, hnext.vfid⟩

/-- **No request has a number of a process or of a virtual function.** -/
theorem unnumbered_run (is : List Input) : Unnumbered (wqManager.run is).sq :=
  (Machine.always_of_step (P := fun s : State => Unnumbered s.sq) (fun _ i h => h.step i)
    ⟨rfl, rfl⟩ is).last

end Unnumbered

end WqManager
end RecoNIC
