import RecoNIC.RoceStack.RegisterPort

/-!
# The AXI-Lite side of the registers

The read-write machine of `roce_stack_csr.sv`: it accepts a read or a write of the host,
decodes the address, and drives the first port of the block RAMs.  Region 1 is
`!addr[17]`, region 2 begins at `0x20200`, and region 0 lies in between.

The write decoder and the read decoder list their registers separately, and the lists
differ: a register that is missing in the first one is answered with `SLVERR` and keeps
its value.  `regs_runFrom` says what a run of the machine does to the RAMs, whatever the
delays on its channels: the accepted writes, one after the other, each as its decoder
takes it apart.
-/

namespace RecoNIC
namespace AxilPort

open Synchronous
open RegisterPort (QpEvent AxilCmd Port)

/-! ## Decoders -/

/-- `OKAY`. -/
def okay : BitVec 2 := 0

/-- `SLVERR`. -/
def slverr : BitVec 2 := 2

/-- The registers of a protection-domain entry, by the low byte of the address. -/
def pdTable : List (BitVec 8 × RegIdx) :=
  [(0x00, pdpdnumIdx), (0x04, virtaddrlsbIdx), (0x08, virtaddrmsbIdx), (0x0C, bufbaseaddrlsbIdx),
    (0x10, bufbaseaddrmsbIdx), (0x14, bufrkeyIdx), (0x18, wrrdbuflenIdx), (0x1C, accessdescIdx)]

/-- The registers of a queue pair that can be read, by the low byte of the address. -/
def qpReadTable : List (BitVec 8 × RegIdx) :=
  [(0x00, qpconfiIdx), (0x04, qpadvconfiIdx), (0x08, rqbaiIdx), (0xC0, rqbamsbiIdx),
    (0x10, sqbaiIdx), (0xC8, sqbamsbiIdx), (0x18, cqbaiIdx), (0xD0, cqbamsbiIdx),
    (0x20, rqwptrdbaddiIdx), (0x24, rqwptrdbaddmsbiIdx), (0x28, cqdbaddiIdx),
    (0x2C, cqdbaddmsbiIdx), (0x30, cqheadiIdx), (0x34, rqciiIdx), (0x38, sqpiiIdx),
    (0x3C, qdepthiIdx), (0x40, sqpsniIdx), (0x44, lstrqreqiIdx), (0x48, destqpconfiIdx),
    (0x50, macdesaddlsbiIdx), (0x54, macdesaddmsbiIdx), (0x60, ipdesaddr1iIdx),
    (0x64, ipdesaddr2iIdx), (0x68, ipdesaddr3iIdx), (0x6C, ipdesaddr4iIdx),
    (0x4C, timeoutconfiIdx), (0x80, statssniIdx), (0x84, statmsniIdx), (0x88, statqpiIdx),
    (0x8C, statcursqptriIdx), (0x90, statrespsniIdx), (0x94, statrqbufcaiIdx),
    (0xD8, statrqbufcamsbiIdx), (0x98, statwqeiIdx), (0x9C, statrqpidbiIdx), (0xB0, pdnumiIdx)]

/-- The registers of a queue pair that can be written, with the registers that take the
value and the event that is queued. -/
def qpWriteTable : List (BitVec 8 × List RegIdx × Option QpEvent) :=
  [(0x00, [qpconfiIdx], some .qpconfi), (0x04, [qpadvconfiIdx], none),
    (0x08, [rqbaiIdx, statrqbufcaiIdx], none), (0xC0, [rqbamsbiIdx, statrqbufcamsbiIdx], none),
    (0x10, [sqbaiIdx], none), (0xC8, [sqbamsbiIdx], none), (0x18, [cqbaiIdx], none),
    (0xD0, [cqbamsbiIdx], none), (0x20, [rqwptrdbaddiIdx], none),
    (0x24, [rqwptrdbaddmsbiIdx], none), (0x28, [cqdbaddiIdx], none),
    (0x2C, [cqdbaddmsbiIdx], none), (0x34, [rqciiIdx], none), (0x38, [sqpiiIdx], some .sqpii),
    (0x3C, [qdepthiIdx], none), (0x40, [sqpsniIdx], some .sqpsni),
    (0x44, [lstrqreqiIdx], some .lstrqreqi), (0x48, [destqpconfiIdx], some .destqpconfi),
    (0x50, [macdesaddlsbiIdx], some .macdesaddlsbi),
    (0x54, [macdesaddmsbiIdx], some .macdesaddmsbi), (0x60, [ipdesaddr1iIdx], some .ipdesaddr1i),
    (0x64, [ipdesaddr2iIdx], none), (0x68, [ipdesaddr3iIdx], none), (0x6C, [ipdesaddr4iIdx], none),
    (0x4C, [timeoutconfiIdx], none), (0xB0, [pdnumiIdx], none)]

/-- The global registers that can be written, by the low nine bits of the address, and
whether a read command is queued. -/
def glbWriteTable : List (BitVec 9 × Bool) :=
  [(0x000, true), (0x004, false), (0x008, false), (0x00C, false), (0x010, true), (0x014, true),
    (0x018, false), (0x020, false), (0x024, false), (0x028, false), (0x02C, false),
    (0x060, false), (0x064, false), (0x068, false), (0x070, true), (0x078, false),
    (0x07C, false), (0x080, false), (0x084, false), (0x088, false), (0x08C, false),
    (0x090, false), (0x0A0, false), (0x0A4, false), (0x0A8, false), (0x0AC, false),
    (0x0B0, false), (0x0B4, false), (0x0B8, false), (0x0BC, false), (0x180, false)]

/-- `NUM_QP`. -/
def numQp : Nat := 256

/-- The index of the queue pair, cut to eight bits after the subtraction. -/
def qpAddr (addr : BitVec 18) : BitVec 8 := (addr.extractLsb' 8 10 - 0x202).setWidth 8

/-- The protection-domain entry. -/
def pdAddr (addr : BitVec 18) : BitVec 8 := addr.extractLsb' 8 8

/-- The word address of a global register. -/
def glbAddr (addr : BitVec 18) : BitVec 8 := (addr >>> 2).setWidth 8

/-- What the write decoder drives. -/
structure Decode where
  writes : List WrCmd
  resp : BitVec 2
  cmd : Option AxilCmd

/-- A write that is refused. -/
def Decode.refused : Decode := ⟨[], slverr, none⟩

/-- Region 1 of the write decoder. -/
def decodePd (addr : BitVec 18) (data : BitVec 32) (strb : BitVec 4) : Decode :=
  match pdTable.lookup (addr.setWidth 8) with
  | some r =>
    ⟨[⟨1, r, pdAddr addr, strb, data⟩], okay,
      if r = pdpdnumIdx then some (.pdpdnum (pdAddr addr)) else none⟩
  | none => .refused

/-- Region 2 of the write decoder. -/
def decodeQp (addr : BitVec 18) (data : BitVec 32) (strb : BitVec 4) : Decode :=
  if numQp ≤ (qpAddr addr).toNat then .refused
  else
    match qpWriteTable.lookup (addr.setWidth 8) with
    | some (rs, event) =>
      ⟨rs.map fun r => ⟨2, r, qpAddr addr, strb, data⟩, okay, event.map (.qp · (qpAddr addr))⟩
    | none => .refused

/-- Region 0 of the write decoder.  The test of the interrupt registers compares the whole
address. -/
def decodeGlb (addr : BitVec 18) (data : BitVec 32) (strb : BitVec 4) : Decode :=
  match glbWriteTable.lookup (addr.setWidth 9) with
  | some queued =>
    ⟨[⟨0, 0, glbAddr addr, strb, data⟩], okay,
      if queued then some (.glb (glbAddr addr)) else none⟩
  | none =>
    if 0x184 ≤ addr ∧ addr ≤ 0x1CC then
      ⟨if data = 1 ∧ strb.getLsbD 0 = true then [⟨0, 0, glbAddr addr, strb, 0⟩] else [], okay, none⟩
    else .refused

/-- The write decoder. -/
def decode (addr : BitVec 18) (data : BitVec 32) (strb : BitVec 4) : Decode :=
  if addr.getLsbD 17 = false then decodePd addr data strb
  else if 0x202 ≤ addr.extractLsb' 8 10 then decodeQp addr data strb
  else decodeGlb addr data strb

/-- The read decoder, over what the RAMs of the three regions answer. -/
def readMux (pd qp : RegRow) (glb : BitVec 32) (addr : BitVec 18) : BitVec 32 :=
  if addr.getLsbD 17 = false then ((pdTable.lookup (addr.setWidth 8)).map pd).getD 0
  else if 0x202 ≤ addr.extractLsb' 8 10 then
    if numQp ≤ (qpAddr addr).toNat then 0
    else ((qpReadTable.lookup (addr.setWidth 8)).map qp).getD 0
  else glb

/-- What a read of the host gets. -/
def readValue (regs : RegFile) (addr : BitVec 18) : BitVec 32 :=
  readMux (regs.pd (pdAddr addr)) (regs.qp (qpAddr addr)) (regs.glb (glbAddr addr)) addr

/-! ## The machine -/

/-- `read_write_state`. -/
inductive RwState where
  | aIdle | rGetdata | rValid | wReady | write | writeCmd | bResp
  deriving DecidableEq

/-- The registers of the machine, and the output registers of the first ports of the
RAMs. -/
structure Axil where
  rwState : RwState
  rAddr : BitVec 18
  rData : BitVec 32
  rResp : BitVec 2
  holdRd : BitVec 2
  wAddr : BitVec 18
  wData : BitVec 32
  wResp : BitVec 2
  wStrb : BitVec 4
  holdWr : BitVec 2
  /-- `cmd_fifo_in_q`, once a command has been issued. -/
  cmdFifoIn : Option AxilCmd
  /-- `PD_RD_REG_AXIL`. -/
  pdRdReg : RegRow
  /-- `QP_RD_REG_AXIL`. -/
  qpRdReg : RegRow
  /-- `GLB_RD_REG_AXIL`. -/
  glbRdReg : BitVec 32

/-- After `axil_rstn_i`. -/
def Axil.reset : Axil where
  rwState := .aIdle
  rAddr := 0
  rData := 0
  rResp := 0
  holdRd := 0
  wAddr := 0
  wData := 0
  wResp := 0
  wStrb := 0
  holdWr := 0
  cmdFifoIn := none
  pdRdReg := fun _ => 0
  qpRdReg := fun _ => 0
  glbRdReg := 0

/-- The wires of one cycle; `none` where the valid wire is low. -/
structure AxilIn where
  ar : Option (BitVec 18)
  aw : Option (BitVec 18)
  /-- `wdata` and `wstrb`. -/
  w : Option (BitVec 32 × BitVec 4)
  rready : Bool
  bready : Bool
  cmdFifoInAck : Bool

namespace Axil

variable (s : Axil) (regs : RegFile) (i : AxilIn)

/-- What the write decoder drives in `WRITE`. -/
def decoded : Decode := decode s.wAddr s.wData s.wStrb

/-- The writes of the first port in this cycle. -/
def ramWrites : List WrCmd := if s.rwState = .write then s.decoded.writes else []

/-- The RAMs after the edge. -/
def nextRegs : RegFile := s.ramWrites.foldl RegFile.write regs

/-- `writing`. -/
def writing : Bool :=
  match s.rwState with
  | .aIdle => i.ar.isNone && i.aw.isSome
  | .wReady | .write | .writeCmd | .bResp => true
  | .rGetdata | .rValid => false

/-- The RAM access of `R_GETDATA`: the enabled RAM answers after the edge, and what it has
answered goes to `RDataReg`. -/
def readAccess : Axil :=
  if s.rAddr.getLsbD 17 = false then
    match pdTable.lookup (s.rAddr.setWidth 8) with
    | some r => { s with
        rData := s.pdRdReg r
        rResp := okay
        pdRdReg := Function.update s.pdRdReg r (regs.pd (pdAddr s.rAddr) r) }
    | none => { s with rData := 0, rResp := okay }
  else if 0x202 ≤ s.rAddr.extractLsb' 8 10 then
    if numQp ≤ (qpAddr s.rAddr).toNat then { s with rData := 0, rResp := slverr }
    else
      match qpReadTable.lookup (s.rAddr.setWidth 8) with
      | some r => { s with
          rData := s.qpRdReg r
          rResp := okay
          qpRdReg := Function.update s.qpRdReg r (regs.qp (qpAddr s.rAddr) r) }
      | none => { s with rData := 0, rResp := okay }
  else
    { s with
      rData := s.glbRdReg
      rResp := okay
      glbRdReg := regs.glb (glbAddr s.rAddr) }

/-- A written RAM answers with its new contents. -/
def answer (s : Axil) (regs : RegFile) (c : WrCmd) : Axil :=
  if c.region = 2 then
    { s with qpRdReg := Function.update s.qpRdReg c.bramIdx (regs.qp c.address c.bramIdx) }
  else if c.region = 1 then
    { s with pdRdReg := Function.update s.pdRdReg c.bramIdx (regs.pd c.address c.bramIdx) }
  else { s with glbRdReg := regs.glb c.address }

/-- The RAM access of `WRITE`. -/
def writeAccess : Axil :=
  s.ramWrites.foldl (fun s' c => s'.answer (s.nextRegs regs) c)
    { s with
      wResp := s.decoded.resp
      cmdFifoIn := s.decoded.cmd <|> s.cmdFifoIn }

/-- One clock edge. -/
def step : Axil :=
  match s.rwState with
  | .aIdle =>
    match i.ar, i.aw with
    | some a, _ => { s with rAddr := a, rwState := .rGetdata }
    | none, some a => { s with wAddr := a, rwState := .wReady }
    | none, none => s
  | .rGetdata =>
    let s' := s.readAccess regs
    if s.holdRd = 1 then { s' with rwState := .rValid, holdRd := 0 }
    else { s' with holdRd := s.holdRd + 1 }
  | .rValid => if i.rready then { s with rwState := .aIdle } else s
  | .wReady =>
    match i.w with
    | some (data, strb) => { s with wData := data, wStrb := strb, rwState := .write }
    | none => s
  | .write =>
    let s' := s.writeAccess regs
    if s.holdWr = 1 then
      { s' with rwState := if s.decoded.cmd.isSome then .writeCmd else .bResp }
    else { s' with holdWr := s.holdWr + 1 }
  | .writeCmd => if i.cmdFifoInAck then { s with rwState := .bResp } else s
  | .bResp => if i.bready then { s with rwState := .aIdle } else s

end Axil

/-- The machine and the RAMs, with the second port at rest. -/
def axilPort (regs : RegFile) : Machine (Axil × RegFile) AxilIn where
  reset := (.reset, regs)
  step := fun s i => (s.1.step s.2 i, s.1.nextRegs s.2)

/-! ## What a run writes -/

/-- A write of the host: address, data and strobe. -/
abbrev HostWrite := BitVec 18 × BitVec 32 × BitVec 4

/-- The RAMs after a write of the host. -/
def applyWrite (regs : RegFile) (w : HostWrite) : RegFile :=
  (decode w.1 w.2.1 w.2.2).writes.foldl RegFile.write regs

/-- The write that is accepted in a cycle. -/
def acceptedWrite (s : Axil) (i : AxilIn) : Option HostWrite :=
  if s.rwState = .wReady then i.w.map fun w => (s.wAddr, w.1, w.2) else none

/-- The machine with the list of the writes it has accepted. -/
def watched (regs : RegFile) : Machine ((Axil × RegFile) × List HostWrite) AxilIn :=
  Machine.watch (axilPort regs) [] fun ws s i => ws ++ (acceptedWrite s.1 i).toList

/-- A decoded write has one word and one strobe. -/
theorem decode_uniform (addr : BitVec 18) (data : BitVec 32) (strb : BitVec 4) :
    ∃ word, ∀ c ∈ (decode addr data strb).writes, c.wstrb = strb ∧ c.data = word := by
  unfold decode
  split_ifs
  · refine ⟨data, ?_⟩
    unfold decodePd
    cases pdTable.lookup (addr.setWidth 8) with
    | none => simp [Decode.refused]
    | some r => simp
  · refine ⟨data, ?_⟩
    unfold decodeQp
    split_ifs
    · simp [Decode.refused]
    · cases qpWriteTable.lookup (addr.setWidth 8) with
      | none => simp [Decode.refused]
      | some e => simp
  · unfold decodeGlb
    cases glbWriteTable.lookup (addr.setWidth 9) with
    | some queued => exact ⟨data, by simp⟩
    | none =>
      refine ⟨0, ?_⟩
      simp only
      split_ifs <;> simp [Decode.refused]

/-- `WRITE` may last two cycles, and the second one changes nothing. -/
theorem applyWrite_applyWrite (regs : RegFile) (w : HostWrite) :
    applyWrite (applyWrite regs w) w = applyWrite regs w := by
  obtain ⟨word, hword⟩ := decode_uniform w.1 w.2.1 w.2.2
  refine RegFile.ext_read fun x => ?_
  simp only [applyWrite, RegFile.read_foldl_write hword]
  split_ifs
  · exact mergeBytes_mergeBytes ..
  · rfl

section Run

variable {s : Axil} {regs : RegFile} {i : AxilIn} {ws : List HostWrite}

/-- The RAMs lag behind the accepted writes by the one that `WRITE` makes. -/
def Written (regs₀ : RegFile) (s : (Axil × RegFile) × List HostWrite) : Prop :=
  (if s.1.1.rwState = .write then
    applyWrite s.1.2 (s.1.1.wAddr, s.1.1.wData, s.1.1.wStrb) else s.1.2) =
  s.2.foldl applyWrite regs₀

theorem nextRegs_of_ne_write (h : s.rwState ≠ .write) : s.nextRegs regs = regs := by
  rw [Axil.nextRegs, Axil.ramWrites, if_neg h, List.foldl_nil]

theorem nextRegs_of_write (h : s.rwState = .write) :
    s.nextRegs regs = applyWrite regs (s.wAddr, s.wData, s.wStrb) := by
  rw [Axil.nextRegs, Axil.ramWrites, if_pos h]
  rfl

/-- The accesses do not touch the latched write. -/
theorem answer_wAddr (s : Axil) (regs : RegFile) (c : WrCmd) :
    (s.answer regs c).wAddr = s.wAddr ∧ (s.answer regs c).wData = s.wData ∧
      (s.answer regs c).wStrb = s.wStrb ∧ (s.answer regs c).rwState = s.rwState := by
  unfold Axil.answer
  split_ifs <;> exact ⟨rfl, rfl, rfl, rfl⟩

theorem foldl_answer_wAddr (cs : List WrCmd) :
    (cs.foldl (fun s' c => s'.answer regs c) s).wAddr = s.wAddr ∧
      (cs.foldl (fun s' c => s'.answer regs c) s).wData = s.wData ∧
      (cs.foldl (fun s' c => s'.answer regs c) s).wStrb = s.wStrb ∧
      (cs.foldl (fun s' c => s'.answer regs c) s).rwState = s.rwState := by
  induction cs generalizing s with
  | nil => exact ⟨rfl, rfl, rfl, rfl⟩
  | cons c cs ih =>
    obtain ⟨h1, h2, h3, h4⟩ := answer_wAddr s regs c
    rw [List.foldl_cons, ← h1, ← h2, ← h3, ← h4]
    exact ih

theorem writeAccess_wAddr (s : Axil) (regs : RegFile) :
    (s.writeAccess regs).wAddr = s.wAddr ∧ (s.writeAccess regs).wData = s.wData ∧
      (s.writeAccess regs).wStrb = s.wStrb ∧ (s.writeAccess regs).rwState = s.rwState :=
  foldl_answer_wAddr _

theorem rwState_readAccess (s : Axil) (regs : RegFile) :
    (s.readAccess regs).rwState = s.rwState := by
  unfold Axil.readAccess
  split_ifs
  · cases pdTable.lookup (s.rAddr.setWidth 8) <;> rfl
  · rfl
  · cases qpReadTable.lookup (s.rAddr.setWidth 8) <;> rfl
  · rfl

/-- `WRITE` is entered from `W_READY` only. -/
theorem rwState_step_ne_write (hw : s.rwState ≠ .write) (hr : s.rwState ≠ .wReady) :
    (s.step regs i).rwState ≠ .write := by
  unfold Axil.step
  cases hst : s.rwState with
  | aIdle => rcases i.ar with _ | a <;> rcases i.aw with _ | b <;> simp [hst]
  | rGetdata =>
    have hread : (s.readAccess regs).rwState = .rGetdata := by rw [rwState_readAccess, hst]
    simp only
    split_ifs <;> simp [hread]
  | rValid => cases i.rready <;> simp [hst]
  | wReady => exact absurd hst hr
  | write => exact absurd hst hw
  | writeCmd => cases i.cmdFifoInAck <;> simp [hst]
  | bResp => cases i.bready <;> simp [hst]

theorem written_step {regs₀ : RegFile} (h : Written regs₀ ((s, regs), ws)) :
    Written regs₀ ((s.step regs i, s.nextRegs regs), ws ++ (acceptedWrite s i).toList) := by
  simp only [Written] at h ⊢
  by_cases hw : s.rwState = .write
  · obtain ⟨ha, hd, hs, hr⟩ := writeAccess_wAddr s regs
    have hnone : acceptedWrite s i = none := by simp [acceptedWrite, hw]
    rw [if_pos hw] at h
    rw [nextRegs_of_write hw, hnone, Option.toList_none, List.append_nil, ← h]
    simp only [Axil.step, hw]
    by_cases hhold : s.holdWr = 1
    · rw [if_pos hhold, if_neg]
      simp only
      split_ifs <;> simp
    · -- the state is held, and the write is made once more
      rw [if_neg hhold]
      simp only [ha, hd, hs, hr, hw, if_true]
      exact applyWrite_applyWrite _ _
  · rw [if_neg hw] at h
    rw [nextRegs_of_ne_write hw, List.foldl_append, ← h]
    by_cases hr : s.rwState = .wReady
    · cases hin : i.w with
      | none => simp [Axil.step, acceptedWrite, hr, hin]
      | some w => simp [Axil.step, acceptedWrite, hr, hin]
    · rw [if_neg (rwState_step_ne_write hw hr)]
      simp [acceptedWrite, hr]

/-- **What a run writes.**  Whatever the delays on the channels, outside `WRITE` the RAMs
hold what the accepted writes make of them, one after the other. -/
theorem regs_runFrom (s : Axil) (regs : RegFile) (hs : s.rwState ≠ .write) (is : List AxilIn)
    (hst : ((watched regs).runFrom ((s, regs), []) is).1.1.rwState ≠ .write) :
    ((watched regs).runFrom ((s, regs), []) is).1.2 =
      ((watched regs).runFrom ((s, regs), []) is).2.foldl applyWrite regs := by
  have hstart : Written regs ((s, regs), []) := by rw [Written, if_neg hs, List.foldl_nil]
  have hrun : (watched regs).Always (Written regs) ((s, regs), []) is :=
    Machine.always_of_step (P := Written regs) (fun _ _ h => written_step h) hstart is
  have hlast : Written regs ((watched regs).runFrom ((s, regs), []) is) := hrun.last
  rwa [Written, if_neg hst] at hlast

/-! ## What a read answers -/

/-- The output registers of the RAMs, through the read decoder. -/
def Axil.answered (s : Axil) (addr : BitVec 18) : BitVec 32 :=
  readMux s.pdRdReg s.qpRdReg s.glbRdReg addr

/-- `R_GETDATA` takes what the RAMs have answered, and the RAMs answer. -/
theorem readAccess_spec (s : Axil) (regs : RegFile) :
    (s.readAccess regs).rData = s.answered s.rAddr ∧
      (s.readAccess regs).answered s.rAddr = readValue regs s.rAddr ∧
      (s.readAccess regs).rAddr = s.rAddr ∧ (s.readAccess regs).holdRd = s.holdRd := by
  unfold Axil.readAccess Axil.answered readValue readMux
  split_ifs with hpd hqp hnum
  · cases pdTable.lookup (s.rAddr.setWidth 8) <;> simp
  · simp
  · cases qpReadTable.lookup (s.rAddr.setWidth 8) <;> simp
  · simp

/-- A read of `a` under way has the answer `v`. -/
structure Reading (a : BitVec 18) (v : BitVec 32) (s : Axil) : Prop where
  idle : s.rwState ≠ .rGetdata → s.holdRd = 0
  hold : s.holdRd = 0 ∨ s.holdRd = 1
  answered : s.rwState = .rGetdata → s.holdRd = 1 → s.rAddr = a → s.answered a = v
  valid : s.rwState = .rValid → s.rAddr = a → s.rData = v

theorem reading_reset (a : BitVec 18) (v : BitVec 32) : Reading a v Axil.reset where
  idle _ := rfl
  hold := Or.inl rfl
  answered h := by cases h
  valid h := by cases h

/-- The accesses of `WRITE` do not touch a read. -/
theorem foldl_answer_holdRd (cs : List WrCmd) :
    (cs.foldl (fun s' c => s'.answer regs c) s).holdRd = s.holdRd := by
  induction cs generalizing s with
  | nil => rfl
  | cons c cs ih =>
    rw [List.foldl_cons, ih]
    unfold Axil.answer
    split_ifs <;> rfl

/-- No read is under way. -/
theorem Reading.of_quiet {a : BitVec 18} {v : BitVec 32} (hget : s.rwState ≠ .rGetdata)
    (hvalid : s.rwState ≠ .rValid) (hhold : s.holdRd = 0) : Reading a v s where
  idle _ := hhold
  hold := Or.inl hhold
  answered hst := absurd hst hget
  valid hst := absurd hst hvalid

/-- The two cycles of `R_GETDATA`: the RAM answers, and its answer is latched. -/
theorem Reading.step_getdata {a : BitVec 18} {v : BitVec 32} (h : Reading a v s)
    (hget : s.rwState = .rGetdata) (hv : readValue regs a = v) :
    Reading a v (s.step regs i) := by
  obtain ⟨hdata, hout, haddr, hhold⟩ := readAccess_spec s regs
  have hst := rwState_readAccess s regs
  simp only [Axil.step, hget]
  rcases h.hold with h0 | h1
  · rw [if_neg (by simp [h0])]
    refine ⟨fun hne => ?_, Or.inr (by simp [h0]), fun _ _ ha => ?_, fun hval => ?_⟩
    · exact absurd (hst.trans hget) hne
    · have ha' : s.rAddr = a := haddr.symm.trans ha
      rw [← ha'] at hv ⊢
      exact hout.trans hv
    · simp only [hst, hget, reduceCtorEq] at hval
  · rw [if_pos h1]
    refine ⟨fun _ => rfl, Or.inl rfl, fun hg => (by cases hg), fun _ ha => ?_⟩
    have ha' : s.rAddr = a := haddr.symm.trans ha
    have hans := h.answered hget h1 ha'
    rw [← ha'] at hans
    exact hdata.trans hans

/-- The accesses of `WRITE` start no read. -/
theorem Reading.step_write {a : BitVec 18} {v : BitVec 32} (hst : s.rwState = .write)
    (h0 : s.holdRd = 0) : Reading a v (s.step regs i) := by
  have hhold : (s.writeAccess regs).holdRd = 0 := (foldl_answer_holdRd _).trans h0
  have hkeep : (s.writeAccess regs).rwState = .write := (writeAccess_wAddr s regs).2.2.2.trans hst
  simp only [Axil.step, hst]
  split_ifs
  · exact .of_quiet (fun hg => (by cases hg)) (fun hval => by cases hval) hhold
  · exact .of_quiet (fun hg => (by cases hg)) (fun hval => by cases hval) hhold
  · exact .of_quiet (by simp [hkeep]) (by simp [hkeep]) hhold

/-- A register that keeps its value is read with this value. -/
theorem Reading.step {a : BitVec 18} {v : BitVec 32} (h : Reading a v s)
    (hv : readValue regs a = v) : Reading a v (s.step regs i) := by
  cases hst : s.rwState with
  | rGetdata => exact h.step_getdata hst hv
  | aIdle =>
    have h0 := h.idle (by rw [hst]; exact RwState.noConfusion)
    cases har : i.ar with
    | some b =>
      simp only [Axil.step, hst, har]
      exact ⟨fun hne => absurd rfl hne, Or.inl h0, fun _ h1 => by simp [h0] at h1,
        fun hval => by cases hval⟩
    | none =>
      cases haw : i.aw with
      | some b =>
        simp only [Axil.step, hst, har, haw]
        exact .of_quiet (fun hg => (by cases hg)) (fun hval => by cases hval) h0
      | none =>
        simp only [Axil.step, hst, har, haw]
        exact h
  | rValid =>
    have h0 := h.idle (by rw [hst]; exact RwState.noConfusion)
    simp only [Axil.step, hst]
    split_ifs
    · exact .of_quiet (fun hg => (by cases hg)) (fun hval => by cases hval) h0
    · exact h
  | wReady =>
    have h0 := h.idle (by rw [hst]; exact RwState.noConfusion)
    cases hw : i.w with
    | none =>
      simp only [Axil.step, hst, hw]
      exact h
    | some w =>
      simp only [Axil.step, hst, hw]
      exact .of_quiet (fun hg => (by cases hg)) (fun hval => by cases hval) h0
  | write => exact .step_write hst (h.idle (by rw [hst]; exact RwState.noConfusion))
  | writeCmd =>
    have h0 := h.idle (by rw [hst]; exact RwState.noConfusion)
    simp only [Axil.step, hst]
    split_ifs
    · exact .of_quiet (fun hg => (by cases hg)) (fun hval => by cases hval) h0
    · exact h
  | bResp =>
    have h0 := h.idle (by rw [hst]; exact RwState.noConfusion)
    simp only [Axil.step, hst]
    split_ifs
    · exact .of_quiet (fun hg => (by cases hg)) (fun hval => by cases hval) h0
    · exact h

end Run

end AxilPort
end RecoNIC
