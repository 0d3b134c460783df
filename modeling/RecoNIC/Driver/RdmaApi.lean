import RecoNIC.Arithmetic.Words

/-!
# The user-space driver

What `rdma_api.c` does with the queues of a queue pair, and what `reconic.c` does to
allocate their buffers.  A C integer is a bit vector of its width, and an `int` is read
as signed where the source compares it.  A register read is an argument: `reads` is what
the device answers, one read after the other, and a function that polls says `waiting`
when the answers end before it does.  The prints, and the registers that no other part
of this development reads, are left out.
-/

namespace RecoNIC
namespace RdmaApi

/-! ## Buffers -/

/-- `DEVICE_MEM_OFFSET`. -/
def deviceMemOffset : BitVec 64 := 0xa350000000000000

/-- `DEVICE_MEM_SIZE`. -/
def deviceMemSize : BitVec 64 := 4294967296

/-- `HARDWARE_PAGE_SIZE`. -/
def hardwarePageSize : BitVec 64 := 4096

/-- `HARDWARE_PAGE_SIZE_ALIGNMENT_MASK`. -/
def hardwarePageSizeAlignmentMask : BitVec 64 := 0xfffffffffffff000

/-- `HARDWARE_PAGE_SIZE_ADDRESS_MASK`. -/
def hardwarePageSizeAddressMask : BitVec 64 := 0x0000000000000fff

/-- `RQE_SIZE`. -/
def rqeSize : BitVec 32 := 512

/-- `is_device_address`. -/
def isDeviceAddress (address : BitVec 64) : Bool :=
  address &&& 0xfff0000000000000 == deviceMemOffset

/-- `struct win_size_t`. -/
structure WinSize where
  winSizeLsb : BitVec 32
  winSizeMsb : BitVec 32

/-- `struct rdma_buff_t`. -/
structure RdmaBuff where
  buffer : BitVec 64
  dmaAddr : BitVec 64
  bufSize : BitVec 32

/-- The members of `struct rn_dev_t` that the allocation uses; `baseBuf` is the virtual
address of the pre-allocated buffer. -/
structure RnDev where
  baseBuf : BitVec 64
  bufferOffset : BitVec 64
  devBufferOffset : BitVec 64

/-- `buf_location`. -/
inductive BufLocation where
  | hostMem | devMem | other
  deriving DecidableEq

/-- The offset of a buffer of `bufSize` bytes when `offset` is free: no buffer of at most
a page crosses a page, and no larger one begins inside one. -/
def alignedOffset (offset bufSize : BitVec 64) : BitVec 64 :=
  if bufSize ≤ hardwarePageSize then
    if hardwarePageSize < (offset &&& hardwarePageSizeAddressMask) + bufSize then
      (offset + hardwarePageSize) &&& hardwarePageSizeAlignmentMask
    else offset
  else if offset &&& hardwarePageSizeAddressMask ≠ 0 then
    (offset + hardwarePageSize) &&& hardwarePageSizeAlignmentMask
  else offset

/-- `allocate_rdma_buffer`; `none` is an exit.  `paddr` is `get_buffer_paddr`, which asks
the operating system. -/
def allocateRdmaBuffer (paddr : BitVec 64 → BitVec 64) (rnDev : RnDev) (bufSize : BitVec 64) :
    BufLocation → Option (RdmaBuff × RnDev)
  | .hostMem =>
    let offset := alignedOffset rnDev.bufferOffset bufSize
    let buffer := rnDev.baseBuf + offset
    some (⟨buffer, paddr buffer, bufSize.setWidth 32⟩,
      { rnDev with bufferOffset := offset + bufSize })
  | .devMem =>
    let offset := alignedOffset rnDev.devBufferOffset bufSize
    let buffer := offset ||| deviceMemOffset
    if offset + bufSize ≤ deviceMemSize then
      some (⟨buffer, buffer, bufSize.setWidth 32⟩,
        { rnDev with devBufferOffset := offset + bufSize })
    else none
  | .other => none

/-- An address as the registers of the device get it: all of it in device memory, cut to
the window in host memory. -/
def maskedAddr (winSize : WinSize) (addr : BitVec 64) : BitVec 64 :=
  if isDeviceAddress addr then addr.extractLsb' 32 32 ++ addr.setWidth 32
  else (addr.extractLsb' 32 32 &&& winSize.winSizeMsb) ++
    (addr.setWidth 32 &&& winSize.winSizeLsb)

/-! ## Queue pairs -/

/-- The members of `struct rdma_dev_t` that the queues depend on. -/
structure RdmaDev where
  numQp : BitVec 32
  winSize : WinSize

/-- `struct rdma_qp_t`: the queues and their indices. -/
structure RdmaQp where
  sq : RdmaBuff
  sqPidb : BitVec 32
  sqCidb : BitVec 32
  cq : RdmaBuff
  cqCidb : BitVec 32
  rq : RdmaBuff
  rqCidb : BitVec 32
  rqPidb : BitVec 32
  qdepth : BitVec 32

/-- The registers of a queue pair, as `allocate_rdma_qp` leaves them. -/
structure QpRegs where
  sqBa : BitVec 64
  cqBa : BitVec 64
  rqBa : BitVec 64
  qpConf : BitVec 32

/-- The sizes of the three queues. -/
def sqSize (dev : RdmaDev) (qdepth : BitVec 32) : BitVec 32 := dev.numQp * qdepth * 64

def cqSize (dev : RdmaDev) (qdepth : BitVec 32) : BitVec 32 := dev.numQp * qdepth * 4

def rqSize (dev : RdmaDev) (qdepth : BitVec 32) : BitVec 32 := dev.numQp * qdepth * rqeSize

/-- The configuration that is written to `QPCONFi`. -/
def qpConfig : BitVec 32 :=
  (1 &&& 0x00000001) ||| (0xc &&& 0x0000000c) ||| (0x30 &&& 0x000000f0) |||
    ((4 <<< 8) &&& 0x0000ff00) ||| ((rqeSize <<< 16) &&& 0xffff0000)

/-- `allocate_rdma_qp`. -/
def allocateRdmaQp (paddr : BitVec 64 → BitVec 64) (dev : RdmaDev) (rnDev : RnDev)
    (qdepth : BitVec 32) (bufLocation : BufLocation) : Option (RdmaQp × QpRegs × RnDev) := do
  let (sq, rnDev) ←
    allocateRdmaBuffer paddr rnDev ((sqSize dev qdepth).setWidth 64) bufLocation
  let (cq, rnDev) ←
    allocateRdmaBuffer paddr rnDev ((cqSize dev qdepth).setWidth 64) bufLocation
  let (rq, rnDev) ←
    allocateRdmaBuffer paddr rnDev ((rqSize dev qdepth).setWidth 64) bufLocation
  return (⟨sq, 0, 0, cq, 0, rq, 0, 0, qdepth⟩,
    ⟨maskedAddr dev.winSize sq.dmaAddr, maskedAddr dev.winSize cq.dmaAddr,
      maskedAddr dev.winSize rq.dmaAddr, qpConfig⟩, rnDev)

section Allocation

variable {paddr : BitVec 64 → BitVec 64} {rnDev rnDev' : RnDev}

/-- A buffer has the size that was asked for, and its physical address is its address in
device memory or what the operating system says. -/
theorem buffer_of_allocate {bufSize : BitVec 64} {loc : BufLocation} {buf : RdmaBuff}
    (h : allocateRdmaBuffer paddr rnDev bufSize loc = some (buf, rnDev')) :
    buf.bufSize = bufSize.setWidth 32 ∧
      (buf.dmaAddr = buf.buffer ∨ buf.dmaAddr = paddr buf.buffer) := by
  cases loc with
  | hostMem =>
    simp only [allocateRdmaBuffer, Option.some.injEq, Prod.mk.injEq] at h
    rw [← h.1]
    exact ⟨rfl, Or.inr rfl⟩
  | devMem =>
    simp only [allocateRdmaBuffer] at h
    split_ifs at h
    simp only [Option.some.injEq, Prod.mk.injEq] at h
    rw [← h.1]
    exact ⟨rfl, Or.inl rfl⟩
  | other => cases h

/-- What `allocate_rdma_qp` leaves behind: three buffers, their addresses in the registers,
and all indices zero. -/
theorem of_allocate {dev : RdmaDev} {qdepth : BitVec 32} {loc : BufLocation} {qp : RdmaQp}
    {regs : QpRegs}
    (h : allocateRdmaQp paddr dev rnDev qdepth loc = some (qp, regs, rnDev')) :
    (∃ rn₁ rn₂ rn₃,
      allocateRdmaBuffer paddr rnDev ((sqSize dev qdepth).setWidth 64) loc = some (qp.sq, rn₁) ∧
      allocateRdmaBuffer paddr rn₁ ((cqSize dev qdepth).setWidth 64) loc = some (qp.cq, rn₂) ∧
      allocateRdmaBuffer paddr rn₂ ((rqSize dev qdepth).setWidth 64) loc = some (qp.rq, rn₃)) ∧
    qp = ⟨qp.sq, 0, 0, qp.cq, 0, qp.rq, 0, 0, qdepth⟩ ∧
    regs = ⟨maskedAddr dev.winSize qp.sq.dmaAddr, maskedAddr dev.winSize qp.cq.dmaAddr,
      maskedAddr dev.winSize qp.rq.dmaAddr, qpConfig⟩ := by
  simp only [allocateRdmaQp, Option.bind_eq_bind, Option.bind_eq_some_iff, Option.pure_def,
    Option.some.injEq, Prod.exists, Prod.mk.injEq] at h
  obtain ⟨sq, rn₁, hsq, cq, rn₂, hcq, rq, rn₃, hrq, rfl, rfl, -⟩ := h
  exact ⟨⟨rn₁, rn₂, rn₃, hsq, hcq, hrq⟩, rfl, rfl⟩

/-- An address in device memory goes to the registers as it is. -/
theorem maskedAddr_of_device {winSize : WinSize} {addr : BitVec 64}
    (h : isDeviceAddress addr = true) : maskedAddr winSize addr = addr := by
  rw [maskedAddr, if_pos h]
  ext i hi
  simp only [BitVec.getElem_append, BitVec.getElem_setWidth, BitVec.getElem_extractLsb']
  split_ifs with hlow
  · exact BitVec.getLsbD_eq_getElem hi
  · rw [show 32 + (i - 32) = i by omega]
    exact BitVec.getLsbD_eq_getElem hi

end Allocation

/-! ## Work-queue elements -/

/-- `struct rdma_wqe_t`. -/
structure RdmaWqe where
  wrid : BitVec 16
  reserved : BitVec 16
  laddrLow : BitVec 32
  laddrHigh : BitVec 32
  length : BitVec 32
  opcode : BitVec 32
  remoteOffsetLow : BitVec 32
  remoteOffsetHigh : BitVec 32
  rKey : BitVec 32
  sendSmallPayload0 : BitVec 32
  sendSmallPayload1 : BitVec 32
  sendSmallPayload2 : BitVec 32
  sendSmallPayload3 : BitVec 32
  immdtData : BitVec 32
  reserved0 : BitVec 32
  reserved1 : BitVec 32
  reserved2 : BitVec 32

/-- The words of the struct in memory.  Its members lie one after the other without
padding. -/
def RdmaWqe.words (e : RdmaWqe) : List (BitVec 32) :=
  [e.reserved ++ e.wrid, e.laddrLow, e.laddrHigh, e.length, e.opcode, e.remoteOffsetLow,
    e.remoteOffsetHigh, e.rKey, e.sendSmallPayload0, e.sendSmallPayload1,
    e.sendSmallPayload2, e.sendSmallPayload3, e.immdtData, e.reserved0, e.reserved1,
    e.reserved2]

/-- The 64 bytes of the struct on a little-endian bus. -/
def RdmaWqe.bits (e : RdmaWqe) : BitVec 512 := Words.ofWords 512 e.words

/-- `sizeof(struct rdma_wqe_t)`. -/
def sizeofWqe : BitVec 64 := 64

/-- The arguments of `create_a_wqe` that end up in the element. -/
structure WqeArgs where
  wrid : BitVec 16
  laddr : BitVec 64
  length : BitVec 32
  opcode : BitVec 32
  remoteOffset : BitVec 64
  rKey : BitVec 32
  sendSmallPayload0 : BitVec 32
  sendSmallPayload1 : BitVec 32
  sendSmallPayload2 : BitVec 32
  sendSmallPayload3 : BitVec 32
  immdtData : BitVec 32

/-- The element that `create_a_wqe` stores. -/
def createAWqe (winSize : WinSize) (a : WqeArgs) : RdmaWqe where
  wrid := a.wrid
  reserved := 0
  laddrLow :=
    if isDeviceAddress a.laddr then a.laddr.setWidth 32
    else a.laddr.setWidth 32 &&& winSize.winSizeLsb
  laddrHigh :=
    if isDeviceAddress a.laddr then a.laddr.extractLsb' 32 32
    else a.laddr.extractLsb' 32 32 &&& winSize.winSizeMsb
  length := a.length
  opcode := a.opcode &&& 0x000000ff
  remoteOffsetLow := a.remoteOffset.setWidth 32
  remoteOffsetHigh := a.remoteOffset.extractLsb' 32 32
  rKey := a.rKey
  sendSmallPayload0 := a.sendSmallPayload0
  sendSmallPayload1 := a.sendSmallPayload1
  sendSmallPayload2 := a.sendSmallPayload2
  sendSmallPayload3 := a.sendSmallPayload3
  immdtData := a.immdtData
  reserved0 := 0
  reserved1 := 0
  reserved2 := 0

/-- Where `create_a_wqe` stores it: an index into the array in host memory, an address in
device memory. -/
def wqeAddr (sq : RdmaBuff) (wqeIdx : BitVec 32) : BitVec 64 :=
  if isDeviceAddress sq.dmaAddr then sq.dmaAddr + wqeIdx.setWidth 64 * sizeofWqe
  else sq.buffer + wqeIdx.setWidth 64 * sizeofWqe

/-! ## Calls -/

/-- How a call goes on. -/
inductive Outcome (α : Type) where
  /-- It returns, with what it leaves behind and the answers it has not asked for. -/
  | returned (result : α) (rest : List (BitVec 32))
  /-- It ends the program. -/
  | exited
  /-- It is still polling. -/
  | waiting

/-- `TIMEOUT_THRESHOLD`. -/
def timeoutThreshold : Nat := 1000

/-- The loop of `poll_cq_cidb`, with `cqCidb` the last answer. -/
def pollCqCidbLoop (sqCidb : BitVec 32) :
    BitVec 32 → Nat → List (BitVec 32) → Outcome (BitVec 32)
  | cqCidb, timeoutCnt, reads =>
    if cqCidb = sqCidb then
      match reads with
      | [] => .waiting
      | answer :: rest =>
        if timeoutThreshold < timeoutCnt + 1 then .returned (-1) rest
        else pollCqCidbLoop sqCidb answer (timeoutCnt + 1) rest
    else .returned cqCidb reads

/-- `poll_cq_cidb`. -/
def pollCqCidb (sqCidb : BitVec 32) : List (BitVec 32) → Outcome (BitVec 32)
  | [] => .waiting
  | answer :: rest => pollCqCidbLoop sqCidb answer 0 rest

/-- What a call that posts elements leaves behind: the queue pair, and the value it
returns. -/
abbrev Posted := RdmaQp × BitVec 32

/-- The value that such a call returns. -/
def returnValue (cqCidb : BitVec 32) : BitVec 32 := if cqCidb.slt 0 then -1 else 0

/-- `rdma_post_send`.  The producer index goes to the device before the poll. -/
def rdmaPostSend (qp : RdmaQp) (reads : List (BitVec 32)) : Outcome Posted :=
  match pollCqCidb qp.sqCidb reads with
  | .returned cqCidb rest =>
    .returned ({ qp with
        sqPidb := qp.sqPidb + 1
        cqCidb := cqCidb
        sqCidb := qp.sqCidb + 1 }, returnValue cqCidb) rest
  | .exited => .exited
  | .waiting => .waiting

/-- The loop of `rdma_post_batch_send`.  Every poll asks at least once, so the answers
bound the number of polls. -/
def batchLoop : Nat → RdmaQp → List (BitVec 32) → Outcome Posted
  | 0, _, _ => .waiting
  | fuel + 1, qp, reads =>
    if qp.cqCidb.slt qp.sqPidb then
      match pollCqCidb qp.sqCidb reads with
      | .returned cqCidb rest =>
        batchLoop fuel { qp with cqCidb := cqCidb, sqCidb := cqCidb } rest
      | .exited => .exited
      | .waiting => .waiting
    else .returned (qp, returnValue qp.cqCidb) reads

/-- `rdma_post_batch_send`. -/
def rdmaPostBatchSend (qp : RdmaQp) (batchSize : BitVec 32) (reads : List (BitVec 32)) :
    Outcome Posted :=
  if qp.qdepth < batchSize ∨ qp.qdepth < qp.sqPidb + batchSize then .exited
  else
    batchLoop (reads.length + 1) { qp with sqPidb := qp.sqPidb + batchSize } reads

/-- `poll_rq_pidb`. -/
def pollRqPidb (rqPidb : BitVec 32) : List (BitVec 32) → Outcome (BitVec 32)
  | [] => .waiting
  | answer :: rest =>
    if answer = rqPidb then pollRqPidb rqPidb rest else .returned answer rest

/-- The address that `rdma_post_receive` computes from the index it has polled.  The first
product is one of unsigned numbers, the second one of signed numbers. -/
def rqeAddr (qp : RdmaQp) (rqPidb : BitVec 32) : BitVec 64 :=
  if rqPidb = 0 then qp.rq.buffer + ((qp.qdepth - 1) * rqeSize).setWidth 64
  else qp.rq.buffer + ((rqPidb - 1) * rqeSize).signExtend 64

/-- `rdma_post_receive`: the queue pair afterwards, and the address that was returned. -/
def rdmaPostReceive (qp : RdmaQp) (reads : List (BitVec 32)) : Outcome (RdmaQp × BitVec 64) :=
  match pollRqPidb qp.rqPidb reads with
  | .returned rqPidb rest =>
    if rqPidb = -1 then .exited
    else .returned ({ qp with rqPidb := rqPidb }, rqeAddr qp rqPidb) rest
  | .exited => .exited
  | .waiting => .waiting

/-- `rdma_release_rq_consumed`, with the answer of its one register read: the queue pair
afterwards and the value that was returned. -/
def rdmaReleaseRqConsumed (qp : RdmaQp) (answer : BitVec 32) : RdmaQp × BitVec 8 :=
  ({ qp with rqCidb := qp.rqPidb }, if answer ≠ qp.rqPidb then 1 else 0)

end RdmaApi
end RecoNIC
