import RecoNIC.RoceStack.RegisterFile
import RecoNIC.Synchronous.Machine

/-!
# The register port of the stack

The machine `L_*` of `roce_stack_csr.sv`, the one user of the second port of all
block RAMs.  It serves, in this order, the commands the AXI-Lite side queues, the
queue-pair reads of the work-queue manager, the lookups of the two address
machines, and thirteen kinds of write-back.  A write-back waits in a slot of its
kind, one slot for each.

A read takes two cycles in `L_READ_SINGLE` or `L_READ_MULTI` --- the block RAM
answers a cycle late, and what it answers is copied into a register --- and is
announced in `L_READ_READY`.

The AXI-Lite side lives in another clock domain.  Here it is what it can do to
this one: writes through the first port of the RAMs between two edges, the
`writing` flag, and the command FIFO.  `rd_sq_vaddr_valid_q` is cleared by reset
and set nowhere, so its branch of `L_IDLE` is left out.
-/

namespace RecoNIC
namespace RegisterPort

open Synchronous

/-! ## Write-backs -/

/-- The kinds of write-back, in the order in which `L_IDLE` looks at them. -/
inductive WbKind where
  | cqheadi | sqpsni | lstrqreqi | statrqbufcai | statrqbufcamsbi | statrqpidbi
  | insrrpktcnt | inampktcnt | innckpktsts | outampktcnt | outnakpktcnt | outiopktcnt
  | outrdrsppktcnt
  deriving DecidableEq

/-- All kinds, in their order. -/
def WbKind.all : List WbKind :=
  [.cqheadi, .sqpsni, .lstrqreqi, .statrqbufcai, .statrqbufcamsbi, .statrqpidbi,
    .insrrpktcnt, .inampktcnt, .innckpktsts, .outampktcnt, .outnakpktcnt, .outiopktcnt,
    .outrdrsppktcnt]

/-- The write-back wires of one cycle; `none` where the valid wire is low. -/
structure WbIn where
  cqheadi : Option (BitVec 40)
  sqpsni : Option (BitVec 40)
  lstrqreqi : Option (BitVec 40)
  /-- `WB_STATRQBUFCAi` and `WB_STATRQPIDBi`, under one valid wire. -/
  statrq : Option (BitVec 72 × BitVec 40)
  insrrpktcnt : Option (BitVec 32)
  inampktcnt : Option (BitVec 32)
  innckpktsts : Option (BitVec 32)
  outampktcnt : Option (BitVec 32)
  outnakpktcnt : Option (BitVec 16)
  outiopktcnt : Option (BitVec 32)
  outrdrsppktcnt : Option (BitVec 32)

/-- No write-back. -/
def WbIn.none : WbIn :=
  ⟨.none, .none, .none, .none, .none, .none, .none, .none, .none, .none, .none⟩

/-- A write-back to a register of the queue pair `address`. -/
def qpWb (idx : RegIdx) (address : BitVec 8) (wstrb : BitVec 4) (data : BitVec 32) : WrCmd :=
  ⟨2, idx, address, wstrb, data⟩

/-- A write-back to the global register at the byte address `addr`. -/
def glbWb (addr : BitVec 10) (wstrb : BitVec 4) (data : BitVec 32) : WrCmd :=
  ⟨0, 0, (addr >>> 2).setWidth 8, wstrb, data⟩

/-- The command a pulse of each kind loads into its slot. -/
def WbIn.cmd (w : WbIn) : WbKind → Option WrCmd
  | .cqheadi => w.cqheadi.map fun d =>
      qpWb cqheadiIdx (d.extractLsb' 32 8) 0xf (d.setWidth 32)
  | .sqpsni => w.sqpsni.map fun d =>
      qpWb sqpsniIdx (d.extractLsb' 24 8) 0b0111 ((d.setWidth 24).setWidth 32)
  | .lstrqreqi => w.lstrqreqi.map fun d =>
      qpWb lstrqreqiIdx (d.extractLsb' 24 8) 0b0111 ((d.setWidth 24).setWidth 32)
  | .statrqbufcai => w.statrq.map fun d =>
      qpWb statrqbufcaiIdx (d.1.extractLsb' 64 8) 0xf (d.1.setWidth 32)
  | .statrqbufcamsbi => w.statrq.map fun d =>
      qpWb statrqbufcamsbiIdx (d.1.extractLsb' 64 8) 0xf (d.1.extractLsb' 32 32)
  | .statrqpidbi => w.statrq.map fun d =>
      qpWb statrqpidbiIdx (d.2.extractLsb' 32 8) 0xf (d.2.setWidth 32)
  | .insrrpktcnt => w.insrrpktcnt.map (glbWb 0x100 0xf)
  | .inampktcnt => w.inampktcnt.map (glbWb 0x104 0xf)
  | .innckpktsts => w.innckpktsts.map (glbWb 0x11C 0xf)
  | .outampktcnt => w.outampktcnt.map (glbWb 0x10C 0xf)
  | .outnakpktcnt => w.outnakpktcnt.map fun d => glbWb 0x138 0b0011 (d.setWidth 32)
  | .outiopktcnt => w.outiopktcnt.map (glbWb 0x108 0xf)
  | .outrdrsppktcnt => w.outrdrsppktcnt.map (glbWb 0x17C 0xf)

/-- The slot of one kind. -/
structure Slot where
  valid : Bool
  cmd : WrCmd
  deriving DecidableEq

/-- One clock edge of a slot: a pulse loads it, else a taken command leaves it. -/
def Slot.capture (slot : Slot) (pulse : Option WrCmd) (ready : Bool) : Slot :=
  match pulse with
  | some c => ⟨true, c⟩
  | none => if ready then { slot with valid := false } else slot

/-! ## Commands of the AXI-Lite side -/

/-- The registers of a queue pair whose write queues a read command. -/
inductive QpEvent where
  | qpconfi | sqpii | sqpsni | lstrqreqi | destqpconfi | macdesaddlsbi | macdesaddmsbi
  | ipdesaddr1i
  deriving DecidableEq

/-- The number of the register. -/
def QpEvent.idx : QpEvent → RegIdx
  | .qpconfi => qpconfiIdx
  | .sqpii => sqpiiIdx
  | .sqpsni => sqpsniIdx
  | .lstrqreqi => lstrqreqiIdx
  | .destqpconfi => destqpconfiIdx
  | .macdesaddlsbi => macdesaddlsbiIdx
  | .macdesaddmsbi => macdesaddmsbiIdx
  | .ipdesaddr1i => ipdesaddr1iIdx

/-- The commands the AXI-Lite side queues. -/
inductive AxilCmd where
  /-- After a write of `PDPDNUM`. -/
  | pdpdnum (address : BitVec 8)
  /-- After a write of a register of a queue pair. -/
  | qp (event : QpEvent) (address : BitVec 8)
  /-- After a write of a global register. -/
  | glb (address : BitVec 8)
  deriving DecidableEq

/-- `cmd_fifo_out`. -/
def AxilCmd.toRdCmd : AxilCmd → RdCmd
  | .pdpdnum address => ⟨1, false, pdpdnumIdx, address⟩
  | .qp event address => ⟨2, true, event.idx, address⟩
  | .glb address => ⟨0, false, 0, address⟩

/-! ## The machine -/

/-- `logic_reg_state_t`. -/
inductive LState where
  | idle | readCmd | readSingle | readMulti | write | readReady | hold
  deriving DecidableEq

/-- The registers of the port, the RAM contents and the output registers of the
RAMs. -/
structure Port where
  lReg : LState
  lRdCmd : RdCmd
  lWrCmd : WrCmd
  holdAxis : BitVec 2
  qpIdx : BitVec 8
  slots : WbKind → Slot
  regs : RegFile
  /-- `QP_RD_REG_AXIS`. -/
  qpRdReg : RegRow
  /-- `QP_RD_REG_AXIS_Q`. -/
  qpRdRegQ : RegRow
  /-- `PD_RD_REG_AXIS`. -/
  pdRdReg : RegRow
  /-- `PD_RD_REG_AXIS_Q`. -/
  pdRdRegQ : RegRow
  /-- `GLB_RD_REG_AXIS`. -/
  glbRdReg : BitVec 32
  conf : BitVec 32
  macaddlsb : BitVec 32
  macaddmsb : BitVec 32
  ipv4add : BitVec 32

/-- The registers after `axis_rstn_i`, over any RAM contents. -/
def Port.reset (regs : RegFile) : Port where
  lReg := .idle
  lRdCmd := default
  lWrCmd := default
  holdAxis := 0
  qpIdx := 0
  slots := fun _ => ⟨false, default⟩
  regs := regs
  qpRdReg := fun _ => 0
  qpRdRegQ := fun _ => 0
  pdRdReg := fun _ => 0
  pdRdRegQ := fun _ => 0
  glbRdReg := 0
  conf := 0
  macaddlsb := 0
  macaddmsb := 0
  ipv4add := 0

/-- The inputs of one cycle. -/
structure Input where
  /-- A write of the AXI-Lite side is under way. -/
  writing : Bool
  /-- The writes through the first port of the RAMs since the last edge. -/
  portA : List WrCmd
  cmdFifoEmpty : Bool
  /-- `cmd_fifo_out`, where it is valid. -/
  cmdFifoOut : Option AxilCmd
  /-- `rd_qp_i`, where it is valid. -/
  rdQp : Option RdCmd
  /-- `find_pd_rd_q`, where it is valid. -/
  findPdRd : Option RdCmd
  /-- `find_pd_wr_q`, where it is valid. -/
  findPdWr : Option RdCmd
  wb : WbIn

/-- A cycle in which nobody asks for anything. -/
def Input.quiet : Input := ⟨false, [], true, none, none, none, none, WbIn.none⟩

/-- The read command of the work-queue manager for a queue pair. -/
def rdQpCmd (address : BitVec 8) : RdCmd := ⟨2, true, numQpRegs, address⟩

/-- What `L_IDLE` goes for. -/
inductive Pick where
  | cmdFifo
  | read (c : RdCmd)
  | wb (k : WbKind)
  deriving DecidableEq

/-- The priorities of `L_IDLE`. -/
def pick (slots : WbKind → Slot) (i : Input) : Option Pick :=
  if i.writing then none
  else if !i.cmdFifoEmpty then some .cmdFifo
  else if i.rdQp.isSome then i.rdQp.map .read
  else if i.findPdRd.isSome then i.findPdRd.map .read
  else if i.findPdWr.isSome then i.findPdWr.map .read
  else (WbKind.all.find? fun k => (slots k).valid).map .wb

/-- `wb_*_ready`. -/
def taken (s : Port) (i : Input) (k : WbKind) : Bool :=
  s.lReg == .idle && pick s.slots i == some (.wb k)

namespace Port

/-- The writes of the AXI-Lite side since the last edge. -/
def afterPortA (s : Port) (i : Input) : Port :=
  { s with regs := i.portA.foldl RegFile.write s.regs }

/-- Latch a read command. -/
def startRead (s : Port) (c : RdCmd) : Port :=
  { s with lRdCmd := c, lReg := if c.readAll then .readMulti else .readSingle }

/-- The two cycles of an access, then the state `next`. -/
def endAccess (s : Port) (next : LState) : Port :=
  if s.holdAxis = 1#2 then { s with holdAxis := 0, lReg := next }
  else { s with holdAxis := s.holdAxis + 1 }

/-- The RAM access of `L_READ_SINGLE`. -/
def accessSingle (s : Port) : Port :=
  let a := s.lRdCmd.address
  let r := s.lRdCmd.bramIdx
  if s.lRdCmd.region = 0 then
    let s' := { s with glbRdReg := s.regs.glb a }
    if a = 0x00 then { s' with conf := s.glbRdReg }
    else if a = 0x04 then { s' with macaddlsb := s.glbRdReg }
    else if a = 0x05 then { s' with macaddmsb := s.glbRdReg }
    else if a = 0x1C then { s' with ipv4add := s.glbRdReg }
    else s'
  else if s.lRdCmd.region = 1 then
    { s with
      pdRdReg := Function.update s.pdRdReg r (s.regs.pd a r)
      pdRdRegQ := Function.update s.pdRdRegQ r (s.pdRdReg r) }
  else if s.lRdCmd.region = 2 then
    { s with
      qpRdReg := Function.update s.qpRdReg r (s.regs.qp a r)
      qpRdRegQ := Function.update s.qpRdRegQ r (s.qpRdReg r) }
  else s

/-- The RAM access of `L_READ_MULTI`. -/
def accessMulti (s : Port) : Port :=
  let a := s.lRdCmd.address
  if s.lRdCmd.region = 1 then { s with pdRdReg := s.regs.pd a, pdRdRegQ := s.pdRdReg }
  else if s.lRdCmd.region = 2 then
    { s with qpIdx := a, qpRdReg := s.regs.qp a, qpRdRegQ := s.qpRdReg }
  else s

/-- The RAM access of `L_WRITE`.  The written RAM answers with the new contents. -/
def accessWrite (s : Port) : Port :=
  let a := s.lWrCmd.address
  let r := s.lWrCmd.bramIdx
  let regs := s.regs.write s.lWrCmd
  if s.lWrCmd.region = 0 then { s with regs := regs, glbRdReg := regs.glb a }
  else if s.lWrCmd.region = 1 then
    { s with regs := regs, pdRdReg := Function.update s.pdRdReg r (regs.pd a r) }
  else if s.lWrCmd.region = 2 then
    { s with regs := regs, qpIdx := a, qpRdReg := regs.qp a, qpRdRegQ := s.qpRdReg }
  else s

/-- `rd_qp_ready_o`. -/
def rdQpReady (s : Port) : Bool :=
  s.lReg == .readReady && s.lRdCmd.region == 2 && s.lRdCmd.bramIdx == numQpRegs

/-- `find_pd_rd_ready` and `find_pd_wr_ready`, which are one and the same. -/
def findPdReady (s : Port) : Bool :=
  s.lReg == .readReady && (s.lRdCmd.region == 2 || s.lRdCmd.region == 1) &&
    s.lRdCmd.bramIdx == pdnumiIdx

/-- `sq_updated_o`. -/
def sqUpdated (s : Port) : Bool :=
  s.lReg == .readReady && s.lRdCmd.region == 2 && s.lRdCmd.bramIdx == sqpiiIdx

/-- `qp_configured_o`. -/
def qpConfigured (s : Port) : Bool :=
  s.lReg == .readReady && s.lRdCmd.region == 2 &&
    (s.lRdCmd.bramIdx == sqpsniIdx || s.lRdCmd.bramIdx == lstrqreqiIdx)

/-- `conn_configured_o`. -/
def connConfigured (s : Port) : Bool :=
  s.lReg == .readReady && s.lRdCmd.region == 2 &&
    (s.lRdCmd.bramIdx == destqpconfiIdx || s.lRdCmd.bramIdx == ipdesaddr1iIdx ||
      s.lRdCmd.bramIdx == macdesaddlsbiIdx || s.lRdCmd.bramIdx == macdesaddmsbiIdx)

end Port

/-- One clock edge of everything but the slots. -/
def lStep (s : Port) (i : Input) : Port :=
  match s.lReg with
  | .idle =>
    match pick s.slots i with
    | none => s
    | some .cmdFifo => { s with lReg := .readCmd }
    | some (.read c) => s.startRead c
    | some (.wb k) => { s with lWrCmd := (s.slots k).cmd, lReg := .write }
  | .readCmd =>
    match i.cmdFifoOut with
    | some c => s.startRead c.toRdCmd
    | none => s
  | .readSingle => s.accessSingle.endAccess .readReady
  | .readMulti => s.accessMulti.endAccess .readReady
  | .write => s.accessWrite.endAccess .idle
  | .readReady => { s with lReg := if s.rdQpReady then .hold else .idle }
  | .hold => { s with lReg := .idle }

/-- One clock edge. -/
def step (s : Port) (i : Input) : Port :=
  { lStep (s.afterPortA i) i with
    slots := fun k => (s.slots k).capture (i.wb.cmd k) (taken s i k) }

/-- The register port as a machine. -/
def port (regs : RegFile) : Machine Port Input := ⟨Port.reset regs, step⟩

/-! ## Where a cycle leads -/

/-- What one clock edge makes of the port, apart from the slots. -/
inductive LEdge (s : Port) (i : Input) : Port → Prop
  | stay (hst : s.lReg = .idle ∨ s.lReg = .readCmd) : LEdge s i s
  | cmdFifo (hst : s.lReg = .idle) : LEdge s i { s with lReg := .readCmd }
  | start (c : RdCmd) (hst : s.lReg = .idle ∨ s.lReg = .readCmd)
      (hc : s.lReg = .idle ∧ pick s.slots i = some (.read c) ∨
        ∃ a, i.cmdFifoOut = some a ∧ a.toRdCmd = c) : LEdge s i (s.startRead c)
  | writeBack (k : WbKind) (hst : s.lReg = .idle) (hk : pick s.slots i = some (.wb k)) :
      LEdge s i { s with lWrCmd := (s.slots k).cmd, lReg := .write }
  | single (hst : s.lReg = .readSingle) : LEdge s i (s.accessSingle.endAccess .readReady)
  | multi (hst : s.lReg = .readMulti) : LEdge s i (s.accessMulti.endAccess .readReady)
  | write (hst : s.lReg = .write) : LEdge s i (s.accessWrite.endAccess .idle)
  | announce (hst : s.lReg = .readReady) :
      LEdge s i { s with lReg := if s.rdQpReady then .hold else .idle }
  | rest (hst : s.lReg = .hold) : LEdge s i { s with lReg := .idle }

/-- There are no other edges. -/
theorem exists_lEdge (s : Port) (i : Input) : ∃ s', lStep s i = s' ∧ LEdge s i s' := by
  refine ⟨_, rfl, ?_⟩
  cases hs : s.lReg with
  | idle =>
    cases hp : pick s.slots i with
    | none => simpa only [lStep, hs, hp] using .stay (Or.inl hs)
    | some t =>
      cases t with
      | cmdFifo => simpa only [lStep, hs, hp] using .cmdFifo hs
      | read c => simpa only [lStep, hs, hp] using .start c (Or.inl hs) (Or.inl ⟨hs, hp⟩)
      | wb k => simpa only [lStep, hs, hp] using .writeBack k hs hp
  | readCmd =>
    cases hc : i.cmdFifoOut with
    | none => simpa only [lStep, hs, hc] using .stay (Or.inr hs)
    | some a =>
      simpa only [lStep, hs, hc] using .start a.toRdCmd (Or.inr hs) (Or.inr ⟨a, hc, rfl⟩)
  | readSingle => simpa only [lStep, hs] using .single hs
  | readMulti => simpa only [lStep, hs] using .multi hs
  | write => simpa only [lStep, hs] using .write hs
  | readReady => simpa only [lStep, hs] using .announce hs
  | hold => simpa only [lStep, hs] using .rest hs

/-! ## What a cycle does, register by register -/

section Step

variable (s : Port) (i : Input)

namespace Port

variable (c : RdCmd) (next : LState)

@[simp] theorem afterPortA_lReg : (s.afterPortA i).lReg = s.lReg := rfl
@[simp] theorem afterPortA_lRdCmd : (s.afterPortA i).lRdCmd = s.lRdCmd := rfl
@[simp] theorem afterPortA_lWrCmd : (s.afterPortA i).lWrCmd = s.lWrCmd := rfl
@[simp] theorem afterPortA_holdAxis : (s.afterPortA i).holdAxis = s.holdAxis := rfl
@[simp] theorem afterPortA_slots : (s.afterPortA i).slots = s.slots := rfl
@[simp] theorem afterPortA_qpRdReg : (s.afterPortA i).qpRdReg = s.qpRdReg := rfl
@[simp] theorem afterPortA_qpRdRegQ : (s.afterPortA i).qpRdRegQ = s.qpRdRegQ := rfl
@[simp] theorem afterPortA_pdRdReg : (s.afterPortA i).pdRdReg = s.pdRdReg := rfl
@[simp] theorem afterPortA_pdRdRegQ : (s.afterPortA i).pdRdRegQ = s.pdRdRegQ := rfl

@[simp] theorem lReg_startRead :
    (s.startRead c).lReg = if c.readAll then .readMulti else .readSingle := rfl
@[simp] theorem lRdCmd_startRead : (s.startRead c).lRdCmd = c := rfl
@[simp] theorem holdAxis_startRead : (s.startRead c).holdAxis = s.holdAxis := rfl

@[simp] theorem lReg_endAccess :
    (s.endAccess next).lReg = if s.holdAxis = 1#2 then next else s.lReg := by
  unfold endAccess
  split_ifs <;> rfl

@[simp] theorem holdAxis_endAccess :
    (s.endAccess next).holdAxis = if s.holdAxis = 1#2 then 0 else s.holdAxis + 1 := by
  unfold endAccess
  split_ifs <;> rfl

@[simp] theorem lRdCmd_endAccess : (s.endAccess next).lRdCmd = s.lRdCmd := by
  unfold endAccess
  split_ifs <;> rfl

@[simp] theorem lWrCmd_endAccess : (s.endAccess next).lWrCmd = s.lWrCmd := by
  unfold endAccess
  split_ifs <;> rfl

@[simp] theorem regs_endAccess : (s.endAccess next).regs = s.regs := by
  unfold endAccess
  split_ifs <;> rfl

@[simp] theorem qpIdx_endAccess : (s.endAccess next).qpIdx = s.qpIdx := by
  unfold endAccess
  split_ifs <;> rfl

@[simp] theorem outputs_endAccess :
    (s.endAccess next).qpRdReg = s.qpRdReg ∧ (s.endAccess next).qpRdRegQ = s.qpRdRegQ ∧
      (s.endAccess next).pdRdReg = s.pdRdReg ∧ (s.endAccess next).pdRdRegQ = s.pdRdRegQ := by
  unfold endAccess
  split_ifs <;> simp

/-- A row of a queue pair arrives in the output registers of the RAMs, and what was
there in the copies. -/
theorem accessMulti_qp (h : s.lRdCmd.region = 2) :
    s.accessMulti.qpRdReg = s.regs.qp s.lRdCmd.address ∧
      s.accessMulti.qpRdRegQ = s.qpRdReg := by
  simp [accessMulti, h]

/-- The same for a protection-domain entry. -/
theorem accessMulti_pd (h : s.lRdCmd.region = 1) :
    s.accessMulti.pdRdReg = s.regs.pd s.lRdCmd.address ∧
      s.accessMulti.pdRdRegQ = s.pdRdReg := by
  simp [accessMulti, h]

/-- A single read changes no control register. -/
@[simp] theorem control_accessSingle :
    s.accessSingle.lReg = s.lReg ∧ s.accessSingle.lRdCmd = s.lRdCmd ∧
      s.accessSingle.holdAxis = s.holdAxis := by
  simp only [accessSingle]
  split_ifs <;> simp

/-- A read of a whole row changes no control register. -/
@[simp] theorem control_accessMulti :
    s.accessMulti.lReg = s.lReg ∧ s.accessMulti.lRdCmd = s.lRdCmd ∧
      s.accessMulti.holdAxis = s.holdAxis := by
  simp only [accessMulti]
  split_ifs <;> simp

/-- A write changes no control register. -/
@[simp] theorem control_accessWrite :
    s.accessWrite.lReg = s.lReg ∧ s.accessWrite.lWrCmd = s.lWrCmd ∧
      s.accessWrite.holdAxis = s.holdAxis := by
  simp only [accessWrite]
  split_ifs <;> simp

end Port

theorem step_eq :
    step s i = { lStep (s.afterPortA i) i with
      slots := fun k => (s.slots k).capture (i.wb.cmd k) (taken s i k) } := rfl

/-- What `L_IDLE` reads is what one of the three clients asks for. -/
theorem asked_of_pick_read {slots : WbKind → Slot} {c : RdCmd}
    (h : pick slots i = some (.read c)) :
    i.rdQp = some c ∨ i.findPdRd = some c ∨ i.findPdWr = some c := by
  unfold pick at h
  split_ifs at h
  · simp at h
  · exact Or.inl (by simpa using h)
  · exact Or.inr (Or.inl (by simpa using h))
  · exact Or.inr (Or.inr (by simpa using h))
  · simp at h

@[simp] theorem slots_step (k : WbKind) :
    (step s i).slots k = (s.slots k).capture (i.wb.cmd k) (taken s i k) := rfl

theorem lReg_step : (step s i).lReg = (lStep (s.afterPortA i) i).lReg := rfl

theorem lWrCmd_step : (step s i).lWrCmd = (lStep (s.afterPortA i) i).lWrCmd := rfl

end Step

end RegisterPort
end RecoNIC
