import Mathlib.Tactic.IntervalCases
import RecoNIC.Arithmetic.Assign
import RecoNIC.Driver.MemoryRegion
import RecoNIC.RoceStack.HostRegisters

/-!
# Setting up the device

The calls of `rdma_api.c` with which a program sets up the device: `open_rdma_dev` for the
registers of the device as a whole, `allocate_rdma_pd` and `rdma_register_memory_region` for the
protection domains, and `allocate_rdma_qp`, `config_sq_psn` and `config_last_rq_psn` for the
queue pairs.  Each makes some dozens of writes of 32 bits, which the decoder of the hardware
sorts into block RAMs.

`Config` is what the calls are about: an address is one value here and not two registers, and a
queue pair is a record.  A call replaces one record (`Config.apply`).  The registers follow
(`configured_run`): after any calls, made over any bus, they hold the configuration that the
calls describe, and no call disturbs what another one has set.
-/

namespace RecoNIC
namespace Setup

open Synchronous AxilPort RdmaApi Assign
open HostRegisters
open Destroy (hostWrite)
open MemoryRegion (RdmaPd getRdmaPdConfigAddr)
open Destroy (getRdmaPerQConfigAddr rnRdmaBaseAddress rnRdmaGcsrXrnicadconf rnRdmaQcsrQpconfi
  rnRdmaQcsrRqwptrdbaddi rnRdmaQcsrSqpsni rnRdmaQcsrLstrqreqi)

/-! ## The driver -/

/-- `struct mac_addr_t`. -/
structure MacAddr where
  macLsb : BitVec 32
  macMsb : BitVec 32

/-- The two halves of an address, as each call computes them. -/
def addrLsb (winSize : WinSize) (addr : BitVec 64) : BitVec 32 :=
  if isDeviceAddress addr then (addr &&& 0x00000000ffffffff).setWidth 32
  else (addr &&& 0x00000000ffffffff).setWidth 32 &&& winSize.winSizeLsb

def addrMsb (winSize : WinSize) (addr : BitVec 64) : BitVec 32 :=
  if isDeviceAddress addr then ((addr >>> 32) &&& 0x00000000ffffffff).setWidth 32
  else ((addr >>> 32) &&& 0x00000000ffffffff).setWidth 32 &&& winSize.winSizeMsb

/-- The arguments of `open_rdma_dev`. -/
structure OpenArgs where
  localMac : MacAddr
  localIp : BitVec 32
  udpSport : BitVec 32
  numDataBuf : BitVec 16
  perDataBufSize : BitVec 16
  dataBufBaseaddr : BitVec 64
  ipktErrStatQSize : BitVec 16
  ipktErrStatQBaseaddr : BitVec 64
  numErrBuf : BitVec 16
  perErrBufSize : BitVec 16
  errBufBaseaddr : BitVec 64
  respErrPktBufSize : BitVec 64
  respErrPktBufBaseaddr : BitVec 64

/-- The arguments of `allocate_rdma_qp` that go to the registers, with the addresses of the three
buffers that it has allocated. -/
structure QpArgs where
  qpid : BitVec 32
  dstQpid : BitVec 32
  pdNum : BitVec 32
  cqCidbAddr : BitVec 64
  rqCidbAddr : BitVec 64
  qdepth : BitVec 32
  sqDmaAddr : BitVec 64
  cqDmaAddr : BitVec 64
  rqDmaAddr : BitVec 64
  dstMac : MacAddr
  dstIp : BitVec 32
  partionKey : BitVec 32

/-- The global registers. -/
def rnRdmaGcsrXrnicconf : BitVec 32 := rnRdmaBaseAddress + 0x00020000
def rnRdmaGcsrMacxaddlsb : BitVec 32 := rnRdmaBaseAddress + 0x00020010
def rnRdmaGcsrMacxaddmsb : BitVec 32 := rnRdmaBaseAddress + 0x00020014
def rnRdmaGcsrErrbufba : BitVec 32 := rnRdmaBaseAddress + 0x00020060
def rnRdmaGcsrErrbufbamsb : BitVec 32 := rnRdmaBaseAddress + 0x00020064
def rnRdmaGcsrErrbufsz : BitVec 32 := rnRdmaBaseAddress + 0x00020068
def rnRdmaGcsrIpv4xadd : BitVec 32 := rnRdmaBaseAddress + 0x00020070
def rnRdmaGcsrIpkterrqba : BitVec 32 := rnRdmaBaseAddress + 0x00020088
def rnRdmaGcsrIpkterrqbamsb : BitVec 32 := rnRdmaBaseAddress + 0x0002008C
def rnRdmaGcsrIpkterrqsz : BitVec 32 := rnRdmaBaseAddress + 0x00020090
def rnRdmaGcsrDatbufba : BitVec 32 := rnRdmaBaseAddress + 0x000200A0
def rnRdmaGcsrDatbufbamsb : BitVec 32 := rnRdmaBaseAddress + 0x000200A4
def rnRdmaGcsrDatbufsz : BitVec 32 := rnRdmaBaseAddress + 0x000200A8
def rnRdmaGcsrResperrpktba : BitVec 32 := rnRdmaBaseAddress + 0x000200B0
def rnRdmaGcsrResperrpktbamsb : BitVec 32 := rnRdmaBaseAddress + 0x000200B4
def rnRdmaGcsrResperrsz : BitVec 32 := rnRdmaBaseAddress + 0x000200B8
def rnRdmaGcsrResperrszmsb : BitVec 32 := rnRdmaBaseAddress + 0x000200BC
def rnRdmaGcsrInten : BitVec 32 := rnRdmaBaseAddress + 0x00020180

/-- `PDPDNUM` of the entry 0. -/
def rnRdmaPdtPdpdnum : BitVec 32 := rnRdmaBaseAddress + 0x00000000

/-- The registers of the first queue pair. -/
def rnRdmaQcsrQpadvconfi : BitVec 32 := rnRdmaBaseAddress + 0x00020204
def rnRdmaQcsrRqbai : BitVec 32 := rnRdmaBaseAddress + 0x00020208
def rnRdmaQcsrSqbai : BitVec 32 := rnRdmaBaseAddress + 0x00020210
def rnRdmaQcsrCqbai : BitVec 32 := rnRdmaBaseAddress + 0x00020218
def rnRdmaQcsrRqwptrdbaddmsbi : BitVec 32 := rnRdmaBaseAddress + 0x00020224
def rnRdmaQcsrCqdbaddi : BitVec 32 := rnRdmaBaseAddress + 0x00020228
def rnRdmaQcsrCqdbaddmsbi : BitVec 32 := rnRdmaBaseAddress + 0x0002022C
def rnRdmaQcsrQdepthi : BitVec 32 := rnRdmaBaseAddress + 0x0002023C
def rnRdmaQcsrDestqpconfi : BitVec 32 := rnRdmaBaseAddress + 0x00020248
def rnRdmaQcsrMacdesaddlsbi : BitVec 32 := rnRdmaBaseAddress + 0x00020250
def rnRdmaQcsrMacdesaddmsbi : BitVec 32 := rnRdmaBaseAddress + 0x00020254
def rnRdmaQcsrIpdesaddr1i : BitVec 32 := rnRdmaBaseAddress + 0x00020260
def rnRdmaQcsrPdi : BitVec 32 := rnRdmaBaseAddress + 0x000202B0
def rnRdmaQcsrRqbamsbi : BitVec 32 := rnRdmaBaseAddress + 0x000202C0
def rnRdmaQcsrSqbamsbi : BitVec 32 := rnRdmaBaseAddress + 0x000202C8
def rnRdmaQcsrCqbamsbi : BitVec 32 := rnRdmaBaseAddress + 0x000202D0

/-- `data_buf_size` and `err_buf_size`. -/
def bufSize (per num : BitVec 16) : BitVec 32 := (per.setWidth 32 <<< 16) ||| num.setWidth 32

/-- `xrnic_conf`. -/
def xrnicConf (udpSport numQp : BitVec 32) : BitVec 32 :=
  let enErnic : BitVec 32 := 1
  let reserved1 : BitVec 32 := 0
  let reserved2 : BitVec 32 := 0
  let errBufEn : BitVec 32 := 1
  let txAckGen : BitVec 32 := 0
  let config8bit : BitVec 32 := ((reserved1 <<< 6) &&& 0x000000c0) |||
    ((errBufEn <<< 5) &&& 0x00000020) ||| ((txAckGen <<< 3) &&& 0x00000018) |||
    ((reserved2 <<< 1) &&& 0x00000006) ||| (enErnic &&& 0x00000001)
  ((udpSport <<< 16) &&& 0xffff0000) ||| ((numQp <<< 8) &&& 0x0000ff00) |||
    (config8bit &&& 0x000000ff)

/-- `xrnic_advanced_conf`. -/
def xrnicAdvancedConf : BitVec 32 :=
  let swOverrideEnable : BitVec 32 := 0
  let retryCntFatalDis : BitVec 32 := 1
  let baseCountWidth : BitVec 32 := 10
  let swOverrideQpNum : BitVec 32 := 0
  let config16bit : BitVec 32 := 0x0000000f &&&
    ((swOverrideEnable &&& 0x00000001) ||| ((retryCntFatalDis <<< 2) &&& 0x00000004))
  config16bit ||| ((baseCountWidth <<< 16) &&& 0x000f0000) |||
    ((swOverrideQpNum <<< 24) &&& 0xff000000)

/-- `open_rdma_dev` with `config_rdma_global_csr`: the registers it writes. -/
def openRdmaDev (dev : RdmaDev) (a : OpenArgs) : List (BitVec 32 × BitVec 32) :=
  [(rnRdmaGcsrDatbufba, addrLsb dev.winSize a.dataBufBaseaddr),
    (rnRdmaGcsrDatbufbamsb, addrMsb dev.winSize a.dataBufBaseaddr),
    (rnRdmaGcsrDatbufsz, bufSize a.perDataBufSize a.numDataBuf),
    (rnRdmaGcsrIpkterrqba, addrLsb dev.winSize a.ipktErrStatQBaseaddr),
    (rnRdmaGcsrIpkterrqbamsb, addrMsb dev.winSize a.ipktErrStatQBaseaddr),
    (rnRdmaGcsrIpkterrqsz, a.ipktErrStatQSize.setWidth 32),
    (rnRdmaGcsrErrbufba, addrLsb dev.winSize a.errBufBaseaddr),
    (rnRdmaGcsrErrbufbamsb, addrMsb dev.winSize a.errBufBaseaddr),
    (rnRdmaGcsrErrbufsz, bufSize a.perErrBufSize a.numErrBuf),
    (rnRdmaGcsrResperrpktba, addrLsb dev.winSize a.respErrPktBufBaseaddr),
    (rnRdmaGcsrResperrpktbamsb, addrMsb dev.winSize a.respErrPktBufBaseaddr),
    (rnRdmaGcsrResperrsz, (a.respErrPktBufSize &&& 0x00000000ffffffff).setWidth 32),
    (rnRdmaGcsrResperrszmsb, ((a.respErrPktBufSize >>> 32) &&& 0x00000000ffffffff).setWidth 32),
    (rnRdmaGcsrInten, 0x000000FF), (rnRdmaGcsrMacxaddlsb, a.localMac.macLsb),
    (rnRdmaGcsrMacxaddmsb, a.localMac.macMsb), (rnRdmaGcsrIpv4xadd, a.localIp),
    (rnRdmaGcsrXrnicconf, xrnicConf a.udpSport dev.numQp),
    (rnRdmaGcsrXrnicadconf, xrnicAdvancedConf)]

/-- `allocate_rdma_pd`: the entry, and the register it writes. -/
def allocateRdmaPd (pdNum : BitVec 32) : RdmaPd × List (BitVec 32 × BitVec 32) :=
  (MemoryRegion.readWrite pdNum, [(getRdmaPdConfigAddr rnRdmaPdtPdpdnum pdNum, pdNum)])

/-- `qp_adv_conf`. -/
def qpAdvConf (partionKey : BitVec 32) : BitVec 32 :=
  let trafficClass : BitVec 32 := 0
  let timeToLive : BitVec 32 := 64
  ((partionKey <<< 16) &&& 0xffff0000) ||| ((timeToLive <<< 8) &&& 0x0000ff00) |||
    (trafficClass &&& 0x000000ff)

/-- The registers of a queue pair that `allocate_rdma_qp` writes, in its order. -/
def qpWords (dev : RdmaDev) (a : QpArgs) : List (BitVec 32 × BitVec 32) :=
  [(rnRdmaQcsrIpdesaddr1i, a.dstIp), (rnRdmaQcsrMacdesaddlsbi, a.dstMac.macLsb),
    (rnRdmaQcsrMacdesaddmsbi, a.dstMac.macMsb),
    (rnRdmaQcsrSqbai, addrLsb dev.winSize a.sqDmaAddr),
    (rnRdmaQcsrSqbamsbi, addrMsb dev.winSize a.sqDmaAddr),
    (rnRdmaQcsrCqbai, addrLsb dev.winSize a.cqDmaAddr),
    (rnRdmaQcsrCqbamsbi, addrMsb dev.winSize a.cqDmaAddr),
    (rnRdmaQcsrRqbai, addrLsb dev.winSize a.rqDmaAddr),
    (rnRdmaQcsrRqbamsbi, addrMsb dev.winSize a.rqDmaAddr),
    (rnRdmaQcsrCqdbaddi, addrLsb dev.winSize a.cqCidbAddr),
    (rnRdmaQcsrCqdbaddmsbi, addrMsb dev.winSize a.cqCidbAddr),
    (rnRdmaQcsrRqwptrdbaddi, addrLsb dev.winSize a.rqCidbAddr),
    (rnRdmaQcsrRqwptrdbaddmsbi, addrMsb dev.winSize a.rqCidbAddr),
    (rnRdmaQcsrDestqpconfi, a.dstQpid), (rnRdmaQcsrQdepthi, a.qdepth ||| a.qdepth <<< 16),
    (rnRdmaQcsrQpconfi, qpConfig), (rnRdmaQcsrQpadvconfi, qpAdvConf a.partionKey),
    (rnRdmaQcsrPdi, a.pdNum)]

/-- Writes to the registers of a queue pair. -/
def perQ (qpid : BitVec 32) (ws : List (BitVec 32 × BitVec 32)) : List (BitVec 32 × BitVec 32) :=
  ws.map fun w => (getRdmaPerQConfigAddr w.1 qpid, w.2)

/-- `allocate_rdma_qp`: the registers it writes. -/
def allocateRdmaQp (dev : RdmaDev) (a : QpArgs) : List (BitVec 32 × BitVec 32) :=
  perQ a.qpid (qpWords dev a)

/-- `rq_conf`. -/
def rqConf (lastRqPsn : BitVec 32) : BitVec 32 :=
  let rqOpcode : BitVec 32 := 0x0000000a
  ((rqOpcode <<< 24) &&& 0xff000000) ||| (lastRqPsn &&& 0x00ffffff)

/-- `config_last_rq_psn`. -/
def configLastRqPsn (qpid lastRqPsn : BitVec 32) : List (BitVec 32 × BitVec 32) :=
  perQ qpid [(rnRdmaQcsrLstrqreqi, rqConf lastRqPsn)]

/-- `config_sq_psn`. -/
def configSqPsn (qpid sqPsn : BitVec 32) : List (BitVec 32 × BitVec 32) :=
  perQ qpid [(rnRdmaQcsrSqpsni, sqPsn)]

/-- A call. -/
inductive Call where
  | openRdmaDev (a : OpenArgs)
  | allocateRdmaPd (pdNum : BitVec 32)
  | rdmaRegisterMemoryRegion (pd : RdmaPd) (rKey : BitVec 32) (buf : RdmaBuff)
  | allocateRdmaQp (a : QpArgs)
  | configLastRqPsn (qpid lastRqPsn : BitVec 32)
  | configSqPsn (qpid sqPsn : BitVec 32)

/-- The registers that a call writes. -/
def Call.writes (dev : RdmaDev) : Call → List (BitVec 32 × BitVec 32)
  | .openRdmaDev a => Setup.openRdmaDev dev a
  | .allocateRdmaPd pdNum => (Setup.allocateRdmaPd pdNum).2
  | .rdmaRegisterMemoryRegion pd rKey buf =>
    (MemoryRegion.rdmaRegisterMemoryRegion dev.winSize pd rKey buf).2
  | .allocateRdmaQp a => Setup.allocateRdmaQp dev a
  | .configLastRqPsn qpid lastRqPsn => Setup.configLastRqPsn qpid lastRqPsn
  | .configSqPsn qpid sqPsn => Setup.configSqPsn qpid sqPsn

/-- The queue pair or the entry of a call is there. -/
def Call.Valid : Call → Prop
  | .openRdmaDev _ => True
  | .allocateRdmaPd pdNum => pdNum.toNat < 256
  | .rdmaRegisterMemoryRegion pd _ _ => pd.pdNum.toNat < 256
  | .allocateRdmaQp a => 1 ≤ a.qpid.toNat ∧ a.qpid.toNat ≤ 256
  | .configLastRqPsn qpid _ => 1 ≤ qpid.toNat ∧ qpid.toNat ≤ 256
  | .configSqPsn qpid _ => 1 ≤ qpid.toNat ∧ qpid.toNat ≤ 256

/-! ## What the calls are about -/

/-- A queue pair, as it is set up. -/
structure QpConfig where
  ipDesAddr : BitVec 32
  macDesAdd : BitVec 64
  sqBa : BitVec 64
  cqBa : BitVec 64
  rqBa : BitVec 64
  /-- Where the hardware puts the next element of the receive queue. -/
  statRqBufCa : BitVec 64
  cqDbAdd : BitVec 64
  rqWptrDbAdd : BitVec 64
  destQpConf : BitVec 32
  qDepth : BitVec 32
  qpConf : BitVec 32
  qpAdvConf : BitVec 32
  pdNum : BitVec 32
  sqPsn : BitVec 32
  lstRqReq : BitVec 32

/-- An entry of the protection domains. -/
structure PdConfig where
  pdNum : BitVec 32
  virtAddr : BitVec 64
  bufBaseAddr : BitVec 64
  bufRKey : BitVec 32
  wrRdBufLen : BitVec 32
  accessDesc : BitVec 32

/-- The device as a whole. -/
structure GlobalConfig where
  xrnicConf : BitVec 32
  xrnicAdConf : BitVec 32
  macXAdd : BitVec 64
  ipv4XAdd : BitVec 32
  errBufBa : BitVec 64
  errBufSz : BitVec 32
  ipktErrQBa : BitVec 64
  ipktErrQSz : BitVec 32
  datBufBa : BitVec 64
  datBufSz : BitVec 32
  respErrPktBa : BitVec 64
  respErrSz : BitVec 64
  intEn : BitVec 32

/-- A configuration of the device. -/
structure Config where
  qp : BitVec 8 → QpConfig
  pd : BitVec 8 → PdConfig
  global : GlobalConfig

/-- The configuration of a queue pair that a row of registers holds. -/
def QpConfig.of (row : RegRow) : QpConfig where
  ipDesAddr := row ipdesaddr1iIdx
  macDesAdd := row macdesaddmsbiIdx ++ row macdesaddlsbiIdx
  sqBa := row sqbamsbiIdx ++ row sqbaiIdx
  cqBa := row cqbamsbiIdx ++ row cqbaiIdx
  rqBa := row rqbamsbiIdx ++ row rqbaiIdx
  statRqBufCa := row statrqbufcamsbiIdx ++ row statrqbufcaiIdx
  cqDbAdd := row cqdbaddmsbiIdx ++ row cqdbaddiIdx
  rqWptrDbAdd := row rqwptrdbaddmsbiIdx ++ row rqwptrdbaddiIdx
  destQpConf := row destqpconfiIdx
  qDepth := row qdepthiIdx
  qpConf := row qpconfiIdx
  qpAdvConf := row qpadvconfiIdx
  pdNum := row pdnumiIdx
  sqPsn := row sqpsniIdx
  lstRqReq := row lstrqreqiIdx

/-- The same for an entry. -/
def PdConfig.of (row : RegRow) : PdConfig where
  pdNum := row pdpdnumIdx
  virtAddr := row virtaddrmsbIdx ++ row virtaddrlsbIdx
  bufBaseAddr := row bufbaseaddrmsbIdx ++ row bufbaseaddrlsbIdx
  bufRKey := row bufrkeyIdx
  wrRdBufLen := row wrrdbuflenIdx
  accessDesc := row accessdescIdx

/-- The same for the global registers, by their word addresses. -/
def GlobalConfig.of (glb : BitVec 8 → BitVec 32) : GlobalConfig where
  xrnicConf := glb 0x00
  xrnicAdConf := glb 0x01
  macXAdd := glb 0x05 ++ glb 0x04
  ipv4XAdd := glb 0x1C
  errBufBa := glb 0x19 ++ glb 0x18
  errBufSz := glb 0x1A
  ipktErrQBa := glb 0x23 ++ glb 0x22
  ipktErrQSz := glb 0x24
  datBufBa := glb 0x29 ++ glb 0x28
  datBufSz := glb 0x2A
  respErrPktBa := glb 0x2D ++ glb 0x2C
  respErrSz := glb 0x2F ++ glb 0x2E
  intEn := glb 0x60

/-- The configuration that the registers hold. -/
def Config.of (regs : RegFile) : Config where
  qp q := .of (regs.qp q)
  pd e := .of (regs.pd e)
  global := .of regs.glb

/-- The number that the hardware has for the queue pair `qpid` of the driver. -/
def numOf (qpid : BitVec 32) : BitVec 8 := (qpid - 1).setWidth 8

/-- What a call makes of the device as a whole. -/
def GlobalConfig.opened (dev : RdmaDev) (a : OpenArgs) : GlobalConfig where
  xrnicConf := a.udpSport.setWidth 16 ++ dev.numQp.setWidth 8 ++ 0x21#8
  xrnicAdConf := 0x000a0004
  macXAdd := a.localMac.macMsb ++ a.localMac.macLsb
  ipv4XAdd := a.localIp
  errBufBa := maskedAddr dev.winSize a.errBufBaseaddr
  errBufSz := a.perErrBufSize ++ a.numErrBuf
  ipktErrQBa := maskedAddr dev.winSize a.ipktErrStatQBaseaddr
  ipktErrQSz := a.ipktErrStatQSize.setWidth 32
  datBufBa := maskedAddr dev.winSize a.dataBufBaseaddr
  datBufSz := a.perDataBufSize ++ a.numDataBuf
  respErrPktBa := maskedAddr dev.winSize a.respErrPktBufBaseaddr
  respErrSz := a.respErrPktBufSize
  intEn := 0xff

/-- What it makes of a queue pair; the sequence numbers are left alone. -/
def QpConfig.allocated (dev : RdmaDev) (a : QpArgs) (old : QpConfig) : QpConfig :=
  { old with
    ipDesAddr := a.dstIp
    macDesAdd := a.dstMac.macMsb ++ a.dstMac.macLsb
    sqBa := maskedAddr dev.winSize a.sqDmaAddr
    cqBa := maskedAddr dev.winSize a.cqDmaAddr
    rqBa := maskedAddr dev.winSize a.rqDmaAddr
    statRqBufCa := maskedAddr dev.winSize a.rqDmaAddr
    cqDbAdd := maskedAddr dev.winSize a.cqCidbAddr
    rqWptrDbAdd := maskedAddr dev.winSize a.rqCidbAddr
    destQpConf := a.dstQpid
    qDepth := a.qdepth ||| a.qdepth <<< 16
    qpConf := qpConfig
    qpAdvConf := a.partionKey.setWidth 16 ++ 0x4000#16
    pdNum := a.pdNum }

/-- What it makes of an entry. -/
def PdConfig.registered (dev : RdmaDev) (pd : RdmaPd) (rKey : BitVec 32) (buf : RdmaBuff)
    (old : PdConfig) : PdConfig :=
  { old with
    virtAddr := buf.buffer
    bufBaseAddr := maskedAddr dev.winSize buf.dmaAddr
    bufRKey := rKey
    wrRdBufLen := buf.bufSize
    accessDesc := pd.pdAccessType.setWidth 32 }

/-- Another queue pair, or another entry. -/
def Config.setQp (g : Config) (q : BitVec 8) (f : QpConfig → QpConfig) : Config :=
  { g with qp := Function.update g.qp q (f (g.qp q)) }

def Config.setPd (g : Config) (e : BitVec 8) (f : PdConfig → PdConfig) : Config :=
  { g with pd := Function.update g.pd e (f (g.pd e)) }

/-- The configuration after a call. -/
def Config.apply (dev : RdmaDev) (g : Config) : Call → Config
  | .openRdmaDev a => { g with global := .opened dev a }
  | .allocateRdmaPd pdNum => g.setPd (pdNum.setWidth 8) fun old => { old with pdNum := pdNum }
  | .rdmaRegisterMemoryRegion pd rKey buf =>
    g.setPd (pd.pdNum.setWidth 8) (.registered dev pd rKey buf)
  | .allocateRdmaQp a => g.setQp (numOf a.qpid) (.allocated dev a)
  | .configLastRqPsn qpid lastRqPsn =>
    g.setQp (numOf qpid) fun old => { old with lstRqReq := 0x0a#8 ++ lastRqPsn.setWidth 24 }
  | .configSqPsn qpid sqPsn => g.setQp (numOf qpid) fun old => { old with sqPsn := sqPsn }

/-! ## One write -/

section Write

variable {regs regs' : RegFile} {addr qpid pdNum data : BitVec 32}

/-- The write puts its word into the cells, and does nothing else. -/
def Lands (w : BitVec 32 × BitVec 32) (cs : List RegFile.Cell) : Prop :=
  ∀ regs : RegFile,
    (applyWrite regs (hostWrite w)).read = assign regs.read (cs.map fun c => (c, w.2))

/-- Addresses of the first queue pair, of the entry 0 and of the global registers that the
decoder knows. -/
def isQpAddr (addr : BitVec 32) : Bool :=
  0x60200 ≤ addr.toNat && addr.toNat < 0x60300 && (qpWriteTable.lookup (addr.setWidth 8)).isSome

def isPdAddr (addr : BitVec 32) : Bool :=
  0x40000 ≤ addr.toNat && addr.toNat < 0x40100 && (pdTable.lookup (addr.setWidth 8)).isSome

def isGlbAddr (addr : BitVec 32) : Bool :=
  0x60000 ≤ addr.toNat && addr.toNat < 0x60200 && (glbWriteTable.lookup (addr.setWidth 9)).isSome

theorem lands_of_decode {w : BitVec 32 × BitVec 32} {cs : List RegFile.Cell}
    (hmap : (decode (Destroy.csrAddr w.1) w.2 0xf).writes.map RegFile.target = cs.map some)
    (hword : ∀ c ∈ (decode (Destroy.csrAddr w.1) w.2 0xf).writes, c.wstrb = 0xf ∧ c.data = w.2) :
    Lands w cs := by
  intro regs
  funext x
  rw [Decoder.read_applyWrite (w := hostWrite w) cs hmap hword x, assign_map_const]
  show (if x ∈ cs then mergeBytes (regs.read x) 0xf w.2 else regs.read x) = _
  rw [mergeBytes_all]

/-- A register of a queue pair, with its mirror. -/
theorem lands_perQ (haddr : isQpAddr addr = true) (hq : 1 ≤ qpid.toNat ∧ qpid.toNat ≤ 256) :
    Lands (getRdmaPerQConfigAddr addr qpid, data)
      ((Destroy.written (addr.setWidth 8)).map (.qp (numOf qpid))) := by
  simp only [isQpAddr, Bool.and_eq_true, decide_eq_true_eq] at haddr
  obtain ⟨⟨hge, hlt⟩, hsome⟩ := haddr
  have hsub : (qpid - 1).toNat = qpid.toNat - 1 :=
    BitVec.toNat_sub_of_le (show (1 : BitVec 32) ≤ qpid from BitVec.le_def.mpr hq.1)
  have hcsr : (Destroy.csrAddr (getRdmaPerQConfigAddr addr qpid)).toNat =
      addr.toNat - 0x40000 + 0x100 * (qpid.toNat - 1) := by
    rw [Destroy.csrAddr, getRdmaPerQConfigAddr]
    generalize qpid - 1 = d at hsub
    simp only [BitVec.toNat_setWidth, BitVec.toNat_add, BitVec.toNat_mul, BitVec.toNat_ofNat,
      BitVec.ofNat_eq_ofNat]
    omega
  obtain ⟨⟨rs, event⟩, hrow⟩ := Option.isSome_iff_exists.mp hsome
  have hwritten : Destroy.written (addr.setWidth 8) = rs := by rw [Destroy.written, hrow]; rfl
  have hdec : decode (Destroy.csrAddr (getRdmaPerQConfigAddr addr qpid)) data 0xf =
      ⟨rs.map fun r => ⟨2, r, numOf qpid, 0xf, data⟩, okay, event.map (.qp · (numOf qpid))⟩ := by
    generalize Destroy.csrAddr (getRdmaPerQConfigAddr addr qpid) = a at hcsr
    have hlow : a.setWidth 8 = addr.setWidth 8 := by
      refine BitVec.eq_of_toNat_eq ?_
      simp only [BitVec.toNat_setWidth]
      omega
    have hpd : ¬ Decoder.InPd a := fun h => by have := Decoder.inPd_iff.mp h; omega
    have hqp : 0x202 ≤ a.extractLsb' 8 10 := by
      rw [BitVec.le_def, BitVec.extractLsb'_toNat, Nat.shiftRight_eq_div_pow]
      simp only [BitVec.toNat_ofNat, BitVec.ofNat_eq_ofNat]
      omega
    have hnum : qpAddr a = numOf qpid := by
      refine BitVec.eq_of_toNat_eq ?_
      rw [qpAddr, numOf, BitVec.toNat_setWidth, BitVec.toNat_setWidth,
        BitVec.toNat_sub_of_le hqp, BitVec.extractLsb'_toNat, Nat.shiftRight_eq_div_pow, hsub]
      simp only [BitVec.toNat_ofNat, BitVec.ofNat_eq_ofNat]
      omega
    have hregion : decode a data 0xf = decodeQp a data 0xf := (if_neg hpd).trans (if_pos hqp)
    rw [hregion, decodeQp, if_neg (Decoder.not_numQp_le a), hlow, hrow, hnum]
  refine lands_of_decode ?_ ?_
  · rw [hdec, hwritten]
    simp [RegFile.target]
  · rw [hdec]
    simp

/-- A register of an entry. -/
theorem lands_pd (haddr : isPdAddr addr = true) (hpd : pdNum.toNat < 256) :
    Lands (getRdmaPdConfigAddr addr pdNum, data)
      ((pdTable.lookup (addr.setWidth 8)).toList.map (.pd (pdNum.setWidth 8))) := by
  simp only [isPdAddr, Bool.and_eq_true, decide_eq_true_eq] at haddr
  obtain ⟨⟨hge, hlt⟩, hsome⟩ := haddr
  obtain ⟨r, hrow⟩ := Option.isSome_iff_exists.mp hsome
  intro regs
  have hoff : rnRdmaBaseAddress + (addr - 0x40000) = addr :=
    (BitVec.add_comm _ _).trans (BitVec.sub_add_cancel addr _)
  have hsub : (addr - 0x40000).toNat = addr.toNat - 0x40000 :=
    BitVec.toNat_sub_of_le (BitVec.le_def.mpr hge)
  have hlow : (addr - 0x40000).setWidth 8 = addr.setWidth 8 := by
    refine BitVec.eq_of_toNat_eq ?_
    simp only [BitVec.toNat_setWidth, hsub]
    omega
  have hwrite := @MemoryRegion.applyWrite_pd regs pdNum data r (addr - 0x40000) (by omega)
    (by omega) (hlow ▸ hrow)
  rw [hoff] at hwrite
  funext x
  rw [hwrite, RegFile.read_write, mergeBytes_all, hrow]
  simp [RegFile.target, Function.update_apply, eq_comm]

/-- A global register. -/
theorem lands_glb (haddr : isGlbAddr addr = true) :
    Lands (addr, data) [.glb (glbAddr (Destroy.csrAddr addr))] := by
  simp only [isGlbAddr, Bool.and_eq_true, decide_eq_true_eq] at haddr
  obtain ⟨⟨hge, hlt⟩, hsome⟩ := haddr
  obtain ⟨queued, hrow⟩ := Option.isSome_iff_exists.mp hsome
  have hcsr : (Destroy.csrAddr addr).toNat = addr.toNat - 0x40000 := by
    rw [Destroy.csrAddr, BitVec.toNat_setWidth]
    omega
  have hlow : (Destroy.csrAddr addr).setWidth 9 = addr.setWidth 9 :=
    BitVec.setWidth_setWidth_of_le _ (by decide)
  have hdec : decode (Destroy.csrAddr addr) data 0xf =
      decodeGlb (Destroy.csrAddr addr) data 0xf := by
    have hpd : ¬ Decoder.InPd (Destroy.csrAddr addr) := fun h => by
      have := Decoder.inPd_iff.mp h
      omega
    refine (if_neg hpd).trans (if_neg ?_)
    rw [BitVec.le_def, BitVec.extractLsb'_toNat, Nat.shiftRight_eq_div_pow]
    simp only [BitVec.toNat_ofNat, BitVec.ofNat_eq_ofNat]
    omega
  rw [decodeGlb, hlow, hrow] at hdec
  refine lands_of_decode ?_ ?_
  · rw [hdec]
    rfl
  · rw [hdec]
    simp

/-- Several writes. -/
theorem read_foldl_applyWrite {ι : Type} (write : ι → BitVec 32 × BitVec 32)
    {cells : ι → List RegFile.Cell} {ws : List ι} (h : ∀ w ∈ ws, Lands (write w) (cells w))
    (regs : RegFile) :
    (((ws.map write).map hostWrite).foldl applyWrite regs).read =
      assign regs.read (ws.flatMap fun w => (cells w).map fun c => (c, (write w).2)) := by
  induction ws generalizing regs with
  | nil => rfl
  | cons w ws ih =>
    rw [List.map_cons, List.map_cons, List.foldl_cons,
      ih fun w' hw' => h w' (List.mem_cons_of_mem w hw'), h w List.mem_cons_self,
      List.flatMap_cons, assign_append]

end Write

/-! ## One row -/

section Row

variable {regs regs' : RegFile} {q : BitVec 8}

/-- The words of a row of a queue pair, by register. -/
def qpRow (ws : List (BitVec 32 × BitVec 32)) : List (RegIdx × BitVec 32) :=
  ws.flatMap fun w => (Destroy.written (w.1.setWidth 8)).map fun r => (r, w.2)

/-- The same for an entry. -/
def pdRow (ws : List (BitVec 32 × BitVec 32)) : List (RegIdx × BitVec 32) :=
  ws.flatMap fun w => (pdTable.lookup (w.1.setWidth 8)).toList.map fun r => (r, w.2)

/-- The same for the global registers. -/
def glbRow (ws : List (BitVec 32 × BitVec 32)) : List (BitVec 8 × BitVec 32) :=
  ws.map fun w => (glbAddr (Destroy.csrAddr w.1), w.2)

/-- The words of a row change the row, and leave the other registers alone. -/
theorem read_row {κ : Type} [DecidableEq κ] {g : κ → RegFile.Cell} (hg : Function.Injective g)
    {us : List (κ × BitVec 32)}
    (h : regs'.read = assign regs.read (us.map fun u => (g u.1, u.2))) :
    (fun i => regs'.read (g i)) = assign (fun i => regs.read (g i)) us ∧
      ∀ x, (∀ i, x ≠ g i) → regs'.read x = regs.read x := by
  refine ⟨?_, ?_⟩
  · funext i
    exact (congrFun h (g i)).trans (assign_map_apply _ hg us i)
  · intro x hx
    rw [h]
    exact assign_map_of_forall_ne _ x us hx

/-- Only one queue pair has changed. -/
theorem of_setQp {us : List (RegIdx × BitVec 32)} {f : QpConfig → QpConfig}
    (h : regs'.read = assign regs.read (us.map fun u => (.qp q u.1, u.2)))
    (hrow : QpConfig.of (assign (regs.qp q) us) = f (.of (regs.qp q))) :
    Config.of regs' = (Config.of regs).setQp q f := by
  have hinj : Function.Injective (RegFile.Cell.qp q) := fun a b hab => by cases hab; rfl
  obtain ⟨hrow', hother⟩ := read_row hinj h
  have hown : regs'.qp q = assign (regs.qp q) us := hrow'
  rw [Config.of, Config.setQp, Config.of, Config.mk.injEq]
  refine ⟨?_, ?_, ?_⟩
  · funext q'
    by_cases hq : q' = q
    · rw [hq, Function.update_self, hown, hrow]
    · rw [Function.update_of_ne hq]
      refine congrArg QpConfig.of (funext fun r => hother (.qp q' r) fun r' hr => hq ?_)
      exact (RegFile.Cell.qp.injEq .. ▸ hr).1
  · funext e
    exact congrArg PdConfig.of (funext fun r => hother (.pd e r) fun r' hr => by cases hr)
  · exact congrArg GlobalConfig.of (funext fun a => hother (.glb a) fun r' hr => by cases hr)

/-- Only one entry has changed. -/
theorem of_setPd {us : List (RegIdx × BitVec 32)} {f : PdConfig → PdConfig}
    (h : regs'.read = assign regs.read (us.map fun u => (.pd q u.1, u.2)))
    (hrow : PdConfig.of (assign (regs.pd q) us) = f (.of (regs.pd q))) :
    Config.of regs' = (Config.of regs).setPd q f := by
  have hinj : Function.Injective (RegFile.Cell.pd q) := fun a b hab => by cases hab; rfl
  obtain ⟨hrow', hother⟩ := read_row hinj h
  have hown : regs'.pd q = assign (regs.pd q) us := hrow'
  rw [Config.of, Config.setPd, Config.of, Config.mk.injEq]
  refine ⟨?_, ?_, ?_⟩
  · funext q'
    exact congrArg QpConfig.of (funext fun r => hother (.qp q' r) fun r' hr => by cases hr)
  · funext e
    by_cases hq : e = q
    · rw [hq, Function.update_self, hown, hrow]
    · rw [Function.update_of_ne hq]
      refine congrArg PdConfig.of (funext fun r => hother (.pd e r) fun r' hr => hq ?_)
      exact (RegFile.Cell.pd.injEq .. ▸ hr).1
  · exact congrArg GlobalConfig.of (funext fun a => hother (.glb a) fun r' hr => by cases hr)

/-- Only the global registers have changed. -/
theorem of_global {us : List (BitVec 8 × BitVec 32)} {g : GlobalConfig}
    (h : regs'.read = assign regs.read (us.map fun u => (.glb u.1, u.2)))
    (hrow : GlobalConfig.of (assign regs.glb us) = g) :
    Config.of regs' = { Config.of regs with global := g } := by
  have hinj : Function.Injective RegFile.Cell.glb := fun a b hab => by cases hab; rfl
  obtain ⟨hrow', hother⟩ := read_row hinj h
  have hown : regs'.glb = assign regs.glb us := hrow'
  rw [Config.of, Config.of, Config.mk.injEq]
  refine ⟨?_, ?_, ?_⟩
  · funext q'
    exact congrArg QpConfig.of (funext fun r => hother (.qp q' r) fun r' hr => by cases hr)
  · funext e
    exact congrArg PdConfig.of (funext fun r => hother (.pd e r) fun r' hr => by cases hr)
  · rw [hown, hrow]

end Row

/-! ## The words of the calls -/

section Words

variable (winSize : WinSize)

/-- The two words of a value of 64 bits. -/
theorem append_words (v : BitVec 64) : ((v >>> 32) &&& 0x00000000ffffffff).setWidth 32 ++
    (v &&& 0x00000000ffffffff).setWidth 32 = v :=
  (congrArg₂ (· ++ ·) (MemoryRegion.and_high v) (MemoryRegion.and_low v)).trans
    (SplitAdd.append_halves v)

/-- The two halves of an address are the address. -/
theorem addr_append (addr : BitVec 64) :
    addrMsb winSize addr ++ addrLsb winSize addr = maskedAddr winSize addr := by
  rw [addrMsb, addrLsb, maskedAddr]
  split_ifs <;> rw [MemoryRegion.and_high, MemoryRegion.and_low]

theorem bufSize_eq_append (per num : BitVec 16) : bufSize per num = per ++ num := by
  refine BitVec.eq_of_getLsbD_eq fun i hi => ?_
  simp only [bufSize, BitVec.getLsbD_or, BitVec.getLsbD_append, BitVec.getLsbD_shiftLeft,
    BitVec.getLsbD_setWidth]
  interval_cases i <;> simp

theorem xrnicConf_eq_append (udpSport numQp : BitVec 32) :
    xrnicConf udpSport numQp = udpSport.setWidth 16 ++ numQp.setWidth 8 ++ 0x21#8 := by
  refine BitVec.eq_of_getLsbD_eq fun i hi => ?_
  simp only [xrnicConf, BitVec.getLsbD_or, BitVec.getLsbD_and, BitVec.getLsbD_append,
    BitVec.getLsbD_shiftLeft, BitVec.getLsbD_setWidth]
  interval_cases i <;> simp

theorem qpAdvConf_eq_append (partionKey : BitVec 32) :
    qpAdvConf partionKey = partionKey.setWidth 16 ++ 0x4000#16 := by
  refine BitVec.eq_of_getLsbD_eq fun i hi => ?_
  simp only [qpAdvConf, BitVec.getLsbD_or, BitVec.getLsbD_and, BitVec.getLsbD_append,
    BitVec.getLsbD_shiftLeft, BitVec.getLsbD_setWidth]
  interval_cases i <;> simp

theorem rqConf_eq_append (lastRqPsn : BitVec 32) :
    rqConf lastRqPsn = 0x0a#8 ++ lastRqPsn.setWidth 24 := by
  refine BitVec.eq_of_getLsbD_eq fun i hi => ?_
  simp only [rqConf, BitVec.getLsbD_or, BitVec.getLsbD_and, BitVec.getLsbD_append,
    BitVec.getLsbD_shiftLeft, BitVec.getLsbD_setWidth]
  interval_cases i <;> simp

/-- A buffer has no more than 32 bits of length, and so its access is all there is. -/
theorem accessConfig_describe (pd : RdmaPd) (rKey : BitVec 32) (buf : RdmaBuff) :
    MemoryRegion.accessConfig (MemoryRegion.describe winSize pd rKey buf) =
      pd.pdAccessType.setWidth 32 := by
  have hhigh : (buf.bufSize.setWidth 64) >>> 32 = 0 := by
    refine BitVec.eq_of_toNat_eq ?_
    have hsize := buf.bufSize.isLt
    simp only [BitVec.toNat_ushiftRight, BitVec.toNat_setWidth, Nat.shiftRight_eq_div_pow]
    simp
    omega
  have hmsb : (MemoryRegion.describe winSize pd rKey buf).bufferSizeMsb = 0 := by
    rw [MemoryRegion.describe, hhigh]
    rfl
  rw [MemoryRegion.accessConfig, hmsb]
  exact BitVec.zero_or

end Words

/-! ## The calls -/

section Calls

variable (dev : RdmaDev) (regs : RegFile)

theorem read_perQ {qpid : BitVec 32} (hq : 1 ≤ qpid.toNat ∧ qpid.toNat ≤ 256)
    (ws : List (BitVec 32 × BitVec 32)) (hws : (ws.all fun w => isQpAddr w.1) = true) :
    (((perQ qpid ws).map hostWrite).foldl applyWrite regs).read =
      assign regs.read ((qpRow ws).map fun u => (.qp (numOf qpid) u.1, u.2)) := by
  rw [perQ, read_foldl_applyWrite _
    (fun w hw => lands_perQ (List.all_eq_true.mp hws w hw) hq) regs, qpRow, List.map_flatMap]
  simp only [List.map_map, Function.comp_def]

theorem read_perPd {pdNum : BitVec 32} (hpd : pdNum.toNat < 256)
    (ws : List (BitVec 32 × BitVec 32)) (hws : (ws.all fun w => isPdAddr w.1) = true) :
    (((ws.map fun w => (getRdmaPdConfigAddr w.1 pdNum, w.2)).map hostWrite).foldl
        applyWrite regs).read =
      assign regs.read ((pdRow ws).map fun u => (.pd (pdNum.setWidth 8) u.1, u.2)) := by
  rw [read_foldl_applyWrite _
    (fun w hw => lands_pd (List.all_eq_true.mp hws w hw) hpd) regs, pdRow, List.map_flatMap]
  simp only [List.map_map, Function.comp_def]

theorem read_global (ws : List (BitVec 32 × BitVec 32))
    (hws : (ws.all fun w => isGlbAddr w.1) = true) :
    ((ws.map hostWrite).foldl applyWrite regs).read =
      assign regs.read ((glbRow ws).map fun u => (.glb u.1, u.2)) := by
  have hread := read_foldl_applyWrite (fun w => (w.1, w.2))
    (fun w hw => lands_glb (List.all_eq_true.mp hws w hw)) regs
  rw [show ws.map (fun w => (w.1, w.2)) = ws from List.map_id ws] at hread
  rw [hread, glbRow, List.map_map]
  exact congrArg _ (List.flatMap_pure_eq_map _ _)

end Calls

/-! ### The rows -/

section Rows

variable (dev : RdmaDev) (row : RegRow)

theorem of_qpWords (a : QpArgs) :
    QpConfig.of (assign row (qpRow (qpWords dev a))) = .allocated dev a (.of row) := by
  rw [QpConfig.allocated]
  simp only [← addr_append, ← qpAdvConf_eq_append, qpRow, qpWords, List.flatMap_cons,
    List.flatMap_nil]
  rfl

theorem of_rqConf (lastRqPsn : BitVec 32) :
    QpConfig.of (assign row (qpRow [(rnRdmaQcsrLstrqreqi, rqConf lastRqPsn)])) =
      { QpConfig.of row with lstRqReq := 0x0a#8 ++ lastRqPsn.setWidth 24 } := by
  rw [← rqConf_eq_append]
  simp only [qpRow, List.flatMap_cons, List.flatMap_nil]
  rfl

theorem of_sqPsn (sqPsn : BitVec 32) :
    QpConfig.of (assign row (qpRow [(rnRdmaQcsrSqpsni, sqPsn)])) =
      { QpConfig.of row with sqPsn := sqPsn } := by
  simp only [qpRow, List.flatMap_cons, List.flatMap_nil]
  rfl

theorem of_pdpdnum (pdNum : BitVec 32) :
    PdConfig.of (assign row (pdRow [(rnRdmaPdtPdpdnum, pdNum)])) =
      { PdConfig.of row with pdNum := pdNum } := by
  simp only [pdRow, List.flatMap_cons, List.flatMap_nil]
  rfl

/-- The words of an entry for a buffer. -/
def regionWords (winSize : WinSize) (pd : RdmaPd) (rKey : BitVec 32) (buf : RdmaBuff) :
    List (BitVec 32 × BitVec 32) :=
  let pd := MemoryRegion.describe winSize pd rKey buf
  [(MemoryRegion.rnRdmaPdtVirtaddrlsb, pd.virtualAddrLsb),
    (MemoryRegion.rnRdmaPdtVirtaddrmsb, pd.virtualAddrMsb),
    (MemoryRegion.rnRdmaPdtBufbaseaddrlsb, pd.dmaAddrLsb),
    (MemoryRegion.rnRdmaPdtBufbaseaddrmsb, pd.dmaAddrMsb), (MemoryRegion.rnRdmaPdtBufrkey, rKey),
    (MemoryRegion.rnRdmaPdtWrrdbuflen, (buf.bufSize.setWidth 64).setWidth 32),
    (MemoryRegion.rnRdmaPdtAccessdesc, MemoryRegion.accessConfig pd)]

theorem of_regionWords (pd : RdmaPd) (rKey : BitVec 32) (buf : RdmaBuff) :
    PdConfig.of (assign row (pdRow (regionWords dev.winSize pd rKey buf))) =
      .registered dev pd rKey buf (.of row) := by
  have hvirt : (MemoryRegion.describe dev.winSize pd rKey buf).virtualAddrMsb ++
      (MemoryRegion.describe dev.winSize pd rKey buf).virtualAddrLsb = buf.buffer :=
    append_words buf.buffer
  have hdma := @MemoryRegion.dmaAddr_describe dev.winSize pd rKey buf
  have hdesc := accessConfig_describe dev.winSize pd rKey buf
  have hlen : (buf.bufSize.setWidth 64).setWidth 32 = buf.bufSize := by simp
  rw [regionWords, hdesc, hlen, PdConfig.registered]
  generalize MemoryRegion.describe dev.winSize pd rKey buf = d at hvirt hdma ⊢
  rw [← hvirt, ← hdma]
  simp only [pdRow, List.flatMap_cons, List.flatMap_nil]
  rfl

theorem of_openWords (glb : BitVec 8 → BitVec 32) (a : OpenArgs) :
    GlobalConfig.of (assign glb (glbRow (openRdmaDev dev a))) = .opened dev a := by
  have hconf : xrnicAdvancedConf = 0x000a0004 := by decide
  rw [GlobalConfig.opened, ← append_words a.respErrPktBufSize]
  simp only [← addr_append, ← bufSize_eq_append, ← xrnicConf_eq_append, openRdmaDev, glbRow,
    List.map_cons, List.map_nil, hconf]
  rfl

end Rows

/-! ### The calls -/

section Calls

variable (dev : RdmaDev) (regs : RegFile)

/-- **One call.** -/
theorem of_writes {c : Call} (hc : c.Valid) :
    Config.of (((c.writes dev).map hostWrite).foldl applyWrite regs) =
      (Config.of regs).apply dev c := by
  cases c with
  | openRdmaDev a =>
    refine of_global (read_global regs (openRdmaDev dev a) ?_) (of_openWords dev _ a)
    simp only [openRdmaDev, List.all_cons, List.all_nil]
    decide +kernel
  | allocateRdmaPd pdNum =>
    refine of_setPd (f := fun old => { old with pdNum := pdNum })
      (read_perPd regs hc [(rnRdmaPdtPdpdnum, pdNum)] ?_) (of_pdpdnum _ pdNum)
    simp only [List.all_cons, List.all_nil]
    decide
  | rdmaRegisterMemoryRegion pd rKey buf =>
    have hwrites : Call.writes dev (.rdmaRegisterMemoryRegion pd rKey buf) =
        (regionWords dev.winSize pd rKey buf).map fun w =>
          (getRdmaPdConfigAddr w.1 pd.pdNum, w.2) := rfl
    rw [hwrites]
    refine of_setPd (f := .registered dev pd rKey buf) (read_perPd regs hc _ ?_)
      (of_regionWords dev _ pd rKey buf)
    simp only [regionWords, List.all_cons, List.all_nil]
    decide +kernel
  | allocateRdmaQp a =>
    refine of_setQp (read_perQ regs hc (qpWords dev a) ?_) (of_qpWords dev _ a)
    simp only [qpWords, List.all_cons, List.all_nil]
    decide +kernel
  | configLastRqPsn qpid lastRqPsn =>
    refine of_setQp (f := fun old => { old with lstRqReq := 0x0a#8 ++ lastRqPsn.setWidth 24 })
      (read_perQ regs hc [(rnRdmaQcsrLstrqreqi, rqConf lastRqPsn)] ?_)
      (of_rqConf _ lastRqPsn)
    simp only [List.all_cons, List.all_nil]
    decide
  | configSqPsn qpid sqPsn =>
    refine of_setQp (f := fun old => { old with sqPsn := sqPsn })
      (read_perQ regs hc [(rnRdmaQcsrSqpsni, sqPsn)] ?_) (of_sqPsn _ sqPsn)
    simp only [List.all_cons, List.all_nil]
    decide

/-- The writes of several calls, as they come to the registers. -/
def hostWrites (calls : List Call) : List HostWrite :=
  (calls.flatMap (Call.writes dev)).map hostWrite

/-- **Several calls.** -/
theorem of_hostWrites (calls : List Call) (hcalls : ∀ c ∈ calls, c.Valid) :
    Config.of ((hostWrites dev calls).foldl applyWrite regs) =
      calls.foldl (Config.apply dev) (Config.of regs) := by
  induction calls generalizing regs with
  | nil => rfl
  | cons c calls ih =>
    rw [hostWrites, List.flatMap_cons, List.map_append, List.foldl_append, List.foldl_cons,
      ← of_writes dev regs (hcalls c List.mem_cons_self)]
    exact ih _ fun c' hc' => hcalls c' (List.mem_cons_of_mem c hc')

end Calls

/-! ## Runs -/

/-- A queue pair without the three values that the stack keeps up to date by itself. -/
def QpConfig.fixed (c : QpConfig) : QpConfig :=
  { c with statRqBufCa := 0, sqPsn := 0, lstRqReq := 0 }

def Config.fixed (g : Config) : Config := { g with qp := fun q => (g.qp q).fixed }

/-- It is in the registers of the host. -/
theorem fixed_eq {f g : RegFile} (h : ∀ x, HostOnly x → f.read x = g.read x) :
    (Config.of f).fixed = (Config.of g).fixed := by
  have hqp (q : BitVec 8) {r : RegIdx} (hr : r ∉ Csr.wbRegs) : f.qp q r = g.qp q r :=
    h (.qp q r) (hostOnly_qp hr q)
  have hglb {a : BitVec 8} (ha : a ∉ wbGlb) : f.glb a = g.glb a := h (.glb a) (hostOnly_glb ha)
  have hpd : f.pd = g.pd := funext fun e => funext fun r => h (.pd e r) (hostOnly_pd e r)
  rw [Config.fixed, Config.fixed, Config.mk.injEq]
  refine ⟨funext fun q => ?_, ?_, ?_⟩
  · simp (disch := decide) only [Config.of, QpConfig.fixed, QpConfig.of, hqp]
  · show (fun e => PdConfig.of (f.pd e)) = _
    rw [hpd]
    rfl
  · simp (disch := decide) only [Config.of, GlobalConfig.of, hglb]

/-- **The device is set up.**  After any calls with queue pairs and entries that exist, made while
the stack reads and writes back as it likes and with any order of the edges of the two clocks, the
registers hold the configuration that the calls describe, one after the other.  A call sets its
own queue pair, entry or registers and no others. -/
theorem configured_run (dev : RdmaDev) (calls : List Call) (hcalls : ∀ c ∈ calls, c.Valid)
    (regs : RegFile) (es : List Csr.Edge)
    (hst : ((hosted regs).run es).1.axil.rwState ≠ .write)
    (hwrites : ((hosted regs).run es).2 = hostWrites dev calls) :
    (Config.of ((hosted regs).run es).1.port.regs).fixed =
      (calls.foldl (Config.apply dev) (Config.of regs)).fixed := by
  rw [← of_hostWrites dev regs calls hcalls, ← hwrites]
  exact fixed_eq fun x hx => read_hosted_run hx regs es hst

/-- A write of the host that finds everything ready. -/
def writeEdges (w : HostWrite) : List Csr.Edge :=
  [.axil { Decoder.quiet with aw := some w.1 }, .axil { Decoder.quiet with w := some w.2 },
    .axil Decoder.quiet, .axil Decoder.quiet,
    .axil { Decoder.quiet with cmdFifoInAck := true, bready := true },
    .axil { Decoder.quiet with bready := true }]

/-- The first queue pair, connected to the queue pair 7 of another device. -/
def toQp7 : QpArgs where
  qpid := 1
  dstQpid := 7
  pdNum := 0
  cqCidbAddr := 0
  rqCidbAddr := 0
  qdepth := 4
  sqDmaAddr := 0
  cqDmaAddr := 0
  rqDmaAddr := 0
  dstMac := ⟨0x35000001, 0x0a⟩
  dstIp := 0x0a000001
  partionKey := 0

/-- A protection domain, and a queue pair. -/
def twoCalls : List Call := [.allocateRdmaPd 1, .allocateRdmaQp toQp7]

/-- The registers after them. -/
def twoCallsRegs : RegFile :=
  ((hosted .zero).run ((hostWrites ⟨8, 0, 0⟩ twoCalls).flatMap writeEdges)).1.port.regs

theorem configured_run_twoCalls :
    (Config.of twoCallsRegs).fixed =
        (twoCalls.foldl (Config.apply ⟨8, 0, 0⟩) (Config.of .zero)).fixed ∧
      ((Config.of twoCallsRegs).fixed.qp 0).macDesAdd = 0x0000000a35000001 ∧
      ((Config.of twoCallsRegs).fixed.qp 0).destQpConf = 7 ∧
      ((Config.of twoCallsRegs).fixed.pd 1).pdNum = 1 :=
  ⟨configured_run ⟨8, 0, 0⟩ twoCalls
    (fun c hc => by
      rcases List.mem_cons.mp hc with rfl | hc
      · exact show (1 : BitVec 32).toNat < 256 by decide
      · rw [List.mem_singleton.mp hc]
        exact show 1 ≤ (1 : BitVec 32).toNat ∧ (1 : BitVec 32).toNat ≤ 256 by decide)
    .zero _ (by decide +kernel) (by decide +kernel), by decide +kernel, by decide +kernel,
    by decide +kernel⟩

end Setup
end RecoNIC
