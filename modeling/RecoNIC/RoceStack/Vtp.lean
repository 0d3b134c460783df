import RecoNIC.RoceStack.RegisterFile

/-!
# The address-lookup machines of the register file

`roce_stack_csr.sv` has two machines `VTP_*`, one for the read-side request
handler and one for the write side.  Each answers one lookup at a time.  It asks
the register port for the registers of the queue pair, then for those of the
protection-domain entry, and assembles a `dma_req_t`.

The two bodies are alike from `VTP_REQ_PD` on (`prepResp`, `Regs.askPd`) and differ
before it: the read side answers the address zero by itself, without a register
read, while the write side reads the queue pair first and then answers the
address zero with the receive buffer.

What the machines see of the register port is a `PortView`: one ready pulse, the
outputs of the queue-pair block RAMs, and the two registered copies.
-/

namespace RecoNIC
namespace Vtp

/-- What a lookup machine sees of the register port. -/
structure PortView where
  /-- `find_pd_rd_ready` or `find_pd_wr_ready`. -/
  findPdReady : Bool
  /-- `QP_RD_REG_AXIS`, the outputs of the block RAMs. -/
  qpRdReg : RegRow
  /-- `QP_RD_REG_AXIS_Q`. -/
  qpRdRegQ : RegRow
  /-- `PD_RD_REG_AXIS_Q`. -/
  pdRdRegQ : RegRow

/-- A lookup as a request handler asks for it. -/
structure Lookup where
  valid : Bool
  vaddr : BitVec 64
  pdidx : BitVec 24
  qpn : BitVec 16
  deriving DecidableEq

/-- The read command for the registers of a queue pair.  The register number is the
tag by which `L_READ_READY` knows a lookup. -/
def qpCmd (qpn : BitVec 16) : RdCmd := ⟨2, true, pdnumiIdx, qpn.setWidth 8⟩

/-- The read command for a protection-domain entry. -/
def pdCmd (pdidx : BitVec 24) : RdCmd := ⟨1, true, pdnumiIdx, pdidx.setWidth 8⟩

/-- `virt_to_phys_state`. -/
inductive State where
  | idle | rdPdn | rdPdnVld | rdPd | prepResp | prepRespVld | reqPd | valid
  deriving DecidableEq

/-- The registers of one lookup machine. -/
structure Regs where
  st : State
  findPd : RdCmd
  findPdValid : Bool
  qpPdnum : BitVec 24
  respAddrData : DmaReq
  deriving DecidableEq

/-- The registers after `axis_rstn_i`. -/
def Regs.reset : Regs := ⟨.idle, default, false, 0, default⟩

namespace Regs

/-- `req_addr_ready_o`. -/
def reqReady (v : Regs) (l : Lookup) : Bool :=
  match v.st with
  | .idle => !l.valid
  | .rdPdn | .reqPd | .prepResp | .valid => false
  | _ => true

/-- `resp_addr_valid_o`. -/
def respValid (v : Regs) : Bool := v.st == .valid

/-- The read command of the machine, where it is valid. -/
def ask (v : Regs) : Option RdCmd := if v.findPdValid then some v.findPd else none

/-- `VTP_REQ_PD`: ask for the protection-domain entry. -/
def askPd (v : Regs) (l : Lookup) : Regs :=
  { v with
    findPd := pdCmd l.pdidx
    findPdValid := true
    st := .prepResp }

/-- Ask for the queue pair. -/
def askQp (v : Regs) (l : Lookup) : Regs :=
  { v with
    findPd := qpCmd l.qpn
    findPdValid := true
    st := .rdPdn }

end Regs

/-- The answer `VTP_PREP_RESP` assembles.  Of the key field only the key byte and
bit 8, which says that the protection domain is not the queue pair's, are
written. -/
def prepResp (old : DmaReq) (qpPdnum : BitVec 24) (pd : RegRow) : DmaReq where
  buflen := (pd accessdescIdx).extractLsb' 16 16 ++ pd wrrdbuflenIdx
  baseVaddr := pd virtaddrmsbIdx ++ pd virtaddrlsbIdx
  accesdesc := (pd accessdescIdx).setWidth 4
  paddr := pd bufbaseaddrmsbIdx ++ pd bufbaseaddrlsbIdx
  rkey := old.rkey.extractLsb' 9 23 ++
    BitVec.ofBool (qpPdnum != (pd pdpdnumIdx).setWidth 24) ++
    (pd bufrkeyIdx).setWidth 8

/-- The key byte of an answer. -/
theorem rkey_prepResp (old : DmaReq) (qpPdnum : BitVec 24) (pd : RegRow) :
    (prepResp old qpPdnum pd).rkey.setWidth 8 = (pd bufrkeyIdx).setWidth 8 :=
  BitVec.setWidth_append_eq_right

/-- Bit 8 of the key field of an answer. -/
theorem rkey_prepResp_bit (old : DmaReq) (qpPdnum : BitVec 24) (pd : RegRow) :
    (prepResp old qpPdnum pd).rkey.getLsbD 8 = (qpPdnum != (pd pdpdnumIdx).setWidth 24) := by
  have hbit (b : Bool) :
      (old.rkey.extractLsb' 9 23 ++ BitVec.ofBool b ++ (pd bufrkeyIdx).setWidth 8).getLsbD 8 =
        b := by
    rw [BitVec.getLsbD_append, if_neg (Nat.lt_irrefl 8), BitVec.getLsbD_append]
    simp
  exact hbit _

/-- The answer of the write side to the address zero: the receive buffer of the
queue pair, and its doorbell index in the key field.  The upper half of the
address comes from the registered copy. -/
def sendResp (qp qpQ : RegRow) : DmaReq where
  buflen := ((qp qpconfiIdx).extractLsb' 16 16).setWidth 48 <<< 8
  baseVaddr := 0
  accesdesc := 0b0001
  paddr := qpQ statrqbufcamsbiIdx ++ qp statrqbufcaiIdx
  rkey := qp statrqpidbiIdx

/-- The answer of the read side to the address zero. -/
def zeroResp : DmaReq :=
  { buflen := BitVec.allOnes 48, baseVaddr := 0, accesdesc := 0, paddr := 0,
    rkey := BitVec.allOnes 32 }

/-- `VTP_PREP_RESP` and `VTP_VALID`, the same on both sides. -/
def Regs.finish (v : Regs) (respReady : Bool) (p : PortView) : Regs :=
  match v.st with
  | .prepResp =>
    if p.findPdReady then
      { v with
        findPdValid := false
        respAddrData := prepResp v.respAddrData v.qpPdnum p.pdRdRegQ
        st := .valid }
    else v
  | .valid => if respReady then { v with st := .idle } else v
  | _ => v

/-- One clock edge of the read-side machine. -/
def rdStep (v : Regs) (l : Lookup) (respReady : Bool) (p : PortView) : Regs :=
  match v.st with
  | .idle =>
    if l.valid then
      if l.vaddr == 0 then { v with respAddrData := zeroResp, st := .valid }
      else v.askQp l
    else v
  | .rdPdn =>
    if p.findPdReady then
      { v with
        findPdValid := false
        qpPdnum := (p.qpRdReg pdnumiIdx).setWidth 24
        st := .reqPd }
    else v
  | .reqPd => v.askPd l
  | _ => v.finish respReady p

/-- One clock edge of the write-side machine. -/
def wrStep (v : Regs) (l : Lookup) (respReady : Bool) (p : PortView) : Regs :=
  match v.st with
  | .idle => if l.valid then v.askQp l else v
  | .rdPdn =>
    if p.findPdReady then
      if l.vaddr == 0 then
        { v with
          findPdValid := false
          respAddrData := sendResp p.qpRdReg p.qpRdRegQ
          st := .valid }
      else
        { v with
          findPdValid := false
          qpPdnum := (p.qpRdReg pdnumiIdx).setWidth 24
          st := .reqPd }
    else v
  | .reqPd => v.askPd l
  | _ => v.finish respReady p

/-- One clock edge of the machine that serves the handler with the parameter
`READ`. -/
def step (READ : Bool) (v : Regs) (l : Lookup) (respReady : Bool) (p : PortView) : Regs :=
  if READ then rdStep v l respReady p else wrStep v l respReady p

end Vtp
end RecoNIC
