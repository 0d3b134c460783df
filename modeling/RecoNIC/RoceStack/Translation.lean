import RecoNIC.RoceStack.Side
import RecoNIC.RoceStack.RegisterPort

/-!
# Two sides on one register port

The read side, the write side and the register port, wired as in
`roce_stack_wrapper.sv`.  The AXI-Lite side, the work-queue manager and the
write-backs act on the port as they like, so the register contents may change
between any two edges; the ledger keeps the contents that the edges have seen.

The port announces the end of a lookup by one pulse that both sides see.  A side
that waits takes the pulse for the answer to its own question.  `isolated` says
that this is the only way to be misled: in a run in which each pulse finds no side
waiting for something else, every answer is computed from the registers of the
queue pair and of the protection-domain entry that its own request names.
-/

namespace RecoNIC
namespace Translation

open Synchronous RequestHandler RegisterPort

/-! ## The composition -/

/-- The two sides and the register port. -/
structure State where
  rd : Side
  wr : Side
  port : Port

/-- The inputs of one cycle. -/
structure Input where
  rdIn : SideIn
  wrIn : SideIn
  writing : Bool
  portA : List WrCmd
  cmdFifoEmpty : Bool
  cmdFifoOut : Option AxilCmd
  /-- The queue pair the work-queue manager asks for. -/
  rdQp : Option (BitVec 8)
  wb : WbIn

/-- What the lookup machines see of the port. -/
def view (p : Port) : Vtp.PortView := ⟨p.findPdReady, p.qpRdReg, p.qpRdRegQ, p.pdRdRegQ⟩

namespace State

/-- The inputs of the port. -/
def portIn (s : State) (i : Input) : RegisterPort.Input where
  writing := i.writing
  portA := i.portA
  cmdFifoEmpty := i.cmdFifoEmpty
  cmdFifoOut := i.cmdFifoOut
  rdQp := i.rdQp.map rdQpCmd
  findPdRd := s.rd.vtp.ask
  findPdWr := s.wr.vtp.ask
  wb := i.wb

/-- One clock edge. -/
def step (s : State) (i : Input) : State where
  rd := s.rd.step true i.rdIn (view s.port)
  wr := s.wr.step false i.wrIn (view s.port)
  port := RegisterPort.step s.port (s.portIn i)

end State

/-- The register contents that the edges have seen. -/
def noteFiles (files : List RegFile) (s : State) (i : Input) : List RegFile :=
  (s.port.afterPortA (s.portIn i)).regs :: files

/-- The composition, with the register contents seen so far. -/
def translation (regs : RegFile) : Machine (State × List RegFile) Input :=
  Machine.watch ⟨⟨Side.reset, Side.reset, Port.reset regs⟩, State.step⟩ [] noteFiles

@[simp] theorem translation_step (regs : RegFile) (s : State × List RegFile) (i : Input) :
    (translation regs).step s i = (s.1.step i, noteFiles s.2 s.1 i) := rfl

/-! ## Isolation -/

/-- The answer to the request of a handler, out of the registers of its own queue pair
and its own protection-domain entry. -/
def OwnAnswer (READ : Bool) (files : List RegFile) (h : Handler) (resp : DmaReq) : Prop :=
  if h.offsVaddr = 0#64 then
    if READ then resp = Vtp.zeroResp
    else ∃ f ∈ files, ∃ g ∈ files,
      resp = Vtp.sendResp (f.qp (h.qpn.setWidth 8)) (g.qp (h.qpn.setWidth 8))
  else ∃ old, ∃ f ∈ files, ∃ g ∈ files,
    resp = Vtp.prepResp old ((f.qp (h.qpn.setWidth 8) pdnumiIdx).setWidth 24)
      (g.pd (h.reqAddrPdidx.setWidth 8))

/-- Every answer that is given is the side's own. -/
def Isolated (s : State × List RegFile) : Prop :=
  (s.1.rd.vtp.respValid = true →
    OwnAnswer true s.2 s.1.rd.handler s.1.rd.vtp.respAddrData) ∧
  (s.1.wr.vtp.respValid = true →
    OwnAnswer false s.2 s.1.wr.handler s.1.wr.vtp.respAddrData)

/-- The lookup machine waits for the port. -/
def Waiting (v : Vtp.Regs) : Prop := v.st = .rdPdn ∨ v.st = .prepResp

instance (v : Vtp.Regs) : Decidable (Waiting v) :=
  inferInstanceAs (Decidable (_ ∨ _))

/-- A pulse of the port finds no side waiting for another lookup. -/
def Separate (s : State × List RegFile) (_ : Input) : Prop :=
  s.1.port.findPdReady = true →
    (Waiting s.1.rd.vtp → s.1.rd.vtp.findPd = s.1.port.lRdCmd) ∧
    (Waiting s.1.wr.vtp → s.1.wr.vtp.findPd = s.1.port.lRdCmd)

instance (s : State × List RegFile) (i : Input) : Decidable (Separate s i) :=
  inferInstanceAs (Decidable (_ → _ ∧ _))

/-! ## The port delivers what was asked for -/

/-- The output registers of the RAMs hold the row that is being read. -/
structure Latched (files : List RegFile) (p : Port) : Prop where
  qp : p.lRdCmd.region = 2 → ∃ f ∈ files, p.qpRdReg = f.qp p.lRdCmd.address
  pd : p.lRdCmd.region = 1 → ∃ f ∈ files, p.pdRdReg = f.pd p.lRdCmd.address

/-- The copies hold it too. -/
structure Delivered (files : List RegFile) (p : Port) : Prop where
  qp : p.lRdCmd.region = 2 → ∃ f ∈ files, p.qpRdReg = f.qp p.lRdCmd.address
  qpQ : p.lRdCmd.region = 2 → ∃ f ∈ files, p.qpRdRegQ = f.qp p.lRdCmd.address
  pdQ : p.lRdCmd.region = 1 → ∃ f ∈ files, p.pdRdRegQ = f.pd p.lRdCmd.address

/-- The port reads a whole row for a lookup, in two cycles. -/
structure PortOk (files : List RegFile) (p : Port) : Prop where
  holdAxis : p.lReg ≠ .readSingle → p.lReg ≠ .readMulti → p.lReg ≠ .write → p.holdAxis = 0
  single : p.lReg = .readSingle → p.lRdCmd.bramIdx ≠ pdnumiIdx
  latched : p.lReg = .readMulti → p.holdAxis = 1 → Latched files p
  delivered : p.lReg = .readReady → p.lRdCmd.bramIdx = pdnumiIdx → Delivered files p

section Port

variable {files : List RegFile} {p : Port} {i : RegisterPort.Input}

/-- Outside the accesses nothing has to be shown but the hold counter. -/
theorem PortOk.of_control (hhold : p.holdAxis = 0) (hsingle : p.lReg ≠ .readSingle)
    (hready : p.lReg ≠ .readReady) : PortOk files p where
  holdAxis _ _ _ := hhold
  single h := absurd h hsingle
  latched _ h := absurd (hhold.symm.trans h) (by decide)
  delivered h := absurd h hready

/-- A command of the AXI-Lite side is no lookup. -/
theorem bramIdx_toRdCmd_ne (c : AxilCmd) : c.toRdCmd.bramIdx ≠ pdnumiIdx := by
  cases c with
  | pdpdnum address => exact (by decide : pdpdnumIdx ≠ pdnumiIdx)
  | qp event address => cases event <;> exact of_decide_eq_true rfl
  | glb address => exact (by decide : (0 : RegIdx) ≠ pdnumiIdx)

/-- More contents have been seen. -/
theorem PortOk.mono {files' : List RegFile} (h : PortOk files p) (hsub : files ⊆ files') :
    PortOk files' p where
  holdAxis := h.holdAxis
  single := h.single
  latched hs hh := by
    obtain ⟨hqp, hpd⟩ := h.latched hs hh
    exact ⟨fun hr => (hqp hr).imp fun _ hf => ⟨hsub hf.1, hf.2⟩,
      fun hr => (hpd hr).imp fun _ hf => ⟨hsub hf.1, hf.2⟩⟩
  delivered hs hi := by
    obtain ⟨hqp, hqpQ, hpdQ⟩ := h.delivered hs hi
    exact ⟨fun hr => (hqp hr).imp fun _ hf => ⟨hsub hf.1, hf.2⟩,
      fun hr => (hqpQ hr).imp fun _ hf => ⟨hsub hf.1, hf.2⟩,
      fun hr => (hpdQ hr).imp fun _ hf => ⟨hsub hf.1, hf.2⟩⟩

/-- Reading a row: after the first cycle it is latched, after the second delivered. -/
theorem PortOk.lStep_readMulti (h : PortOk files p) (hp : p.regs ∈ files)
    (hs : p.lReg = .readMulti) : PortOk files (lStep p i) := by
  have hstep : lStep p i = p.accessMulti.endAccess .readReady := by simp only [lStep, hs]
  rw [hstep]
  by_cases hend : p.holdAxis = 1#2
  · refine ⟨?_, ?_, ?_, ?_⟩
    · simp [hend]
    · simp [hend]
    · simp [hend]
    · intro _ _
      have hlatched := h.latched hs hend
      refine ⟨?_, ?_, ?_⟩ <;> simp only [Port.lRdCmd_endAccess, Port.control_accessMulti,
        Port.outputs_endAccess] <;> intro hr
      · exact ⟨p.regs, hp, (p.accessMulti_qp hr).1⟩
      · rw [(p.accessMulti_qp hr).2]
        exact hlatched.qp hr
      · rw [(p.accessMulti_pd hr).2]
        exact hlatched.pd hr
  · have hlReg : (p.accessMulti.endAccess .readReady).lReg = .readMulti := by
      simp [hend, hs]
    refine ⟨?_, ?_, ?_, ?_⟩
    · exact fun _ hno => absurd hlReg hno
    · intro hno
      rw [hlReg] at hno
      cases hno
    · intro _ _
      refine ⟨?_, ?_⟩ <;> simp only [Port.lRdCmd_endAccess, Port.control_accessMulti,
        Port.outputs_endAccess] <;> intro hr
      · exact ⟨p.regs, hp, (p.accessMulti_qp hr).1⟩
      · exact ⟨p.regs, hp, (p.accessMulti_pd hr).1⟩
    · intro hno
      rw [hlReg] at hno
      cases hno

theorem PortOk.lStep_startRead (h : p.holdAxis = 0) (c : RdCmd)
    (hc : c.readAll = true ∨ c.bramIdx ≠ pdnumiIdx) : PortOk files (p.startRead c) := by
  refine ⟨fun _ _ _ => h, ?_, fun _ hno => absurd (h.symm.trans hno) (by decide), ?_⟩
  · intro hs
    rcases hc with hall | hidx
    · simp [hall] at hs
    · exact hidx
  · intro hs
    cases hall : c.readAll <;> simp [hall] at hs

theorem PortOk.lStep (h : PortOk files p) (hp : p.regs ∈ files)
    (hask : ∀ c, i.rdQp = some c ∨ i.findPdRd = some c ∨ i.findPdWr = some c →
      c.readAll = true) :
    PortOk files (lStep p i) := by
  obtain ⟨p', hstep, hedge⟩ := exists_lEdge p i
  rw [hstep]
  cases hedge with
  | stay => exact h
  | cmdFifo hs =>
    have hhold := h.holdAxis (by simp [hs]) (by simp [hs]) (by simp [hs])
    exact .of_control hhold (by simp) (by simp)
  | start c hs hc =>
    have hhold : p.holdAxis = 0 := by
      rcases hs with hs | hs <;> exact h.holdAxis (by simp [hs]) (by simp [hs]) (by simp [hs])
    refine .lStep_startRead hhold c ?_
    rcases hc with ⟨-, hpick⟩ | ⟨a, -, rfl⟩
    · exact Or.inl (hask c (asked_of_pick_read i hpick))
    · exact Or.inr (bramIdx_toRdCmd_ne a)
  | writeBack k hs =>
    have hhold := h.holdAxis (by simp [hs]) (by simp [hs]) (by simp [hs])
    exact .of_control hhold (by simp) (by simp)
  | single hs =>
    refine ⟨?_, ?_, ?_, ?_⟩
    · by_cases hend : p.holdAxis = 1#2 <;> simp [hend, hs]
    · intro _
      simpa using h.single hs
    · by_cases hend : p.holdAxis = 1#2 <;> simp [hend, hs]
    · intro _ hidx
      exact absurd (by simpa using hidx) (h.single hs)
  | multi hs => exact hstep ▸ h.lStep_readMulti hp hs
  | write hs =>
    by_cases hend : p.holdAxis = 1#2
    · exact .of_control (by simp [hend]) (by simp [hend]) (by simp [hend])
    · refine ⟨?_, ?_, ?_, ?_⟩ <;> simp [hend, hs]
  | announce hs =>
    have hhold := h.holdAxis (by simp [hs]) (by simp [hs]) (by simp [hs])
    refine .of_control hhold ?_ ?_ <;> dsimp only <;> split_ifs <;> simp
  | rest hs =>
    have hhold := h.holdAxis (by simp [hs]) (by simp [hs]) (by simp [hs])
    exact .of_control hhold (by simp) (by simp)

/-- One clock edge of the port, which sees new contents. -/
theorem PortOk.step (h : PortOk files p)
    (hask : ∀ c, i.rdQp = some c ∨ i.findPdRd = some c ∨ i.findPdWr = some c →
      c.readAll = true) :
    PortOk ((p.afterPortA i).regs :: files) (RegisterPort.step p i) := by
  have hmono := h.mono (List.subset_cons_self (p.afterPortA i).regs files)
  have hA : PortOk ((p.afterPortA i).regs :: files) (p.afterPortA i) :=
    ⟨hmono.holdAxis, hmono.single,
      fun hs hh => ⟨(hmono.latched hs hh).qp, (hmono.latched hs hh).pd⟩,
      fun hs hi => ⟨(hmono.delivered hs hi).qp, (hmono.delivered hs hi).qpQ,
        (hmono.delivered hs hi).pdQ⟩⟩
  have hL := hA.lStep (i := i) List.mem_cons_self hask
  rw [step_eq]
  exact ⟨hL.holdAxis, hL.single, fun hs hh => ⟨(hL.latched hs hh).qp, (hL.latched hs hh).pd⟩,
    fun hs hi => ⟨(hL.delivered hs hi).qp, (hL.delivered hs hi).qpQ, (hL.delivered hs hi).pdQ⟩⟩

end Port

/-! ## A side keeps to its own question -/

/-- What a lookup machine holds on behalf of its handler. -/
def AtLookup (READ : Bool) (files : List RegFile) (s : Side) : Prop :=
  match s.vtp.st with
  | .idle => s.vtp.findPdValid = false
  | .rdPdn =>
    s.vtp.findPd = Vtp.qpCmd s.handler.qpn ∧ (READ = true → s.handler.offsVaddr ≠ 0#64)
  | .reqPd =>
    s.vtp.findPdValid = false ∧ s.handler.offsVaddr ≠ 0#64 ∧
      ∃ f ∈ files, s.vtp.qpPdnum = (f.qp (s.handler.qpn.setWidth 8) pdnumiIdx).setWidth 24
  | .prepResp =>
    s.vtp.findPd = Vtp.pdCmd s.handler.reqAddrPdidx ∧ s.handler.offsVaddr ≠ 0#64 ∧
      ∃ f ∈ files, s.vtp.qpPdnum = (f.qp (s.handler.qpn.setWidth 8) pdnumiIdx).setWidth 24
  | .valid =>
    s.vtp.findPdValid = false ∧ OwnAnswer READ files s.handler s.vtp.respAddrData
  | _ => False

/-- The invariant of a side: a lookup under way belongs to a waiting handler. -/
structure SideOk (READ : Bool) (files : List RegFile) (s : Side) : Prop where
  asking : s.vtp.st ≠ .idle → s.handler.reqState = .getPaddr
  lookup : AtLookup READ files s

/-- The port answers the question of a lookup machine. -/
structure Answers (files : List RegFile) (v : Vtp.Regs) (p : Vtp.PortView) : Prop where
  qp : v.findPd.region = 2 → ∃ f ∈ files, p.qpRdReg = f.qp v.findPd.address
  qpQ : v.findPd.region = 2 → ∃ f ∈ files, p.qpRdRegQ = f.qp v.findPd.address
  pdQ : v.findPd.region = 1 → ∃ f ∈ files, p.pdRdRegQ = f.pd v.findPd.address

section Side

variable {READ : Bool} {files : List RegFile} {s : Side} {i : SideIn} {p : Vtp.PortView}

theorem OwnAnswer.mono {files' : List RegFile} {h : Handler} {resp : DmaReq}
    (ha : OwnAnswer READ files h resp) (hsub : files ⊆ files') :
    OwnAnswer READ files' h resp := by
  unfold OwnAnswer at ha ⊢
  split_ifs at ha ⊢ with hz hR
  · exact ha
  · obtain ⟨f, hf, g, hg, heq⟩ := ha
    exact ⟨f, hsub hf, g, hsub hg, heq⟩
  · obtain ⟨old, f, hf, g, hg, heq⟩ := ha
    exact ⟨old, f, hsub hf, g, hsub hg, heq⟩

theorem SideOk.mono {files' : List RegFile} (h : SideOk READ files s) (hsub : files ⊆ files') :
    SideOk READ files' s := by
  refine ⟨h.asking, ?_⟩
  have hl := h.lookup
  unfold AtLookup at hl ⊢
  cases hs : s.vtp.st <;> simp only [hs] at hl ⊢
  case idle => exact hl
  case rdPdn => exact hl
  case reqPd =>
    obtain ⟨hv, hz, f, hf, heq⟩ := hl
    exact ⟨hv, hz, f, hsub hf, heq⟩
  case prepResp =>
    obtain ⟨hv, hz, f, hf, heq⟩ := hl
    exact ⟨hv, hz, f, hsub hf, heq⟩
  case valid => exact ⟨hl.1, hl.2.mono hsub⟩

/-- What a side asks of the port is a whole row. -/
theorem SideOk.readAll (h : SideOk READ files s) {c : RdCmd} (hc : s.vtp.ask = some c) :
    c.readAll = true := by
  have hl := h.lookup
  unfold Vtp.Regs.ask at hc
  split_ifs at hc with hv
  obtain rfl := Option.some.inj hc
  unfold AtLookup at hl
  cases hs : s.vtp.st <;> simp only [hs] at hl
  case idle => simp [hl] at hv
  case rdPdn => simp [hl.1, Vtp.qpCmd]
  case reqPd => simp [hl.1] at hv
  case prepResp => simp [hl.1, Vtp.pdCmd]
  case valid => simp [hl.1] at hv

/-- A new question: the read side answers the address zero at once. -/
theorem atLookup_step_idle (hst : s.vtp.st = .idle) (hs : s.handler.reqState = .getPaddr)
    (hv : s.vtp.findPdValid = false) : AtLookup READ files (s.step READ i p) := by
  have hh : (s.step READ i p).handler = s.handler := Side.handler_step_of_lookup hs (by simp [hst])
  have hask := Side.lookup_of_getPaddr hs
  by_cases hz : READ = true ∧ s.handler.offsVaddr = 0#64
  · obtain ⟨rfl, hz⟩ := hz
    have hvtp : (s.step true i p).vtp =
        { s.vtp with respAddrData := Vtp.zeroResp, st := .valid } := by
      simp [Side.step, Vtp.step, Vtp.rdStep, hst, hask, hz]
    simp only [AtLookup, hvtp, hh]
    exact ⟨hv, by simp [OwnAnswer, hz]⟩
  · have hvtp : (s.step READ i p).vtp = s.vtp.askQp s.lookup := by
      cases READ with
      | false => simp [Side.step, Vtp.step, Vtp.wrStep, hst, hask]
      | true =>
        have hz' : s.handler.offsVaddr ≠ 0#64 := fun h0 => hz ⟨rfl, h0⟩
        simp [Side.step, Vtp.step, Vtp.rdStep, hst, hask, hz']
    simp only [AtLookup, hvtp, hh, Vtp.Regs.askQp, hask]
    exact ⟨trivial, fun hR h0 => hz ⟨hR, h0⟩⟩

/-- The registers of the queue pair arrive: a protection-domain number, or the whole
answer where the write side was asked for the address zero. -/
theorem atLookup_step_rdPdn (hst : s.vtp.st = .rdPdn) (hs : s.handler.reqState = .getPaddr)
    (hcmd : s.vtp.findPd = Vtp.qpCmd s.handler.qpn)
    (hz : READ = true → s.handler.offsVaddr ≠ 0#64)
    (hp : p.findPdReady = true → Answers files s.vtp p) :
    AtLookup READ files (s.step READ i p) := by
  have hh : (s.step READ i p).handler = s.handler := Side.handler_step_of_lookup hs (by simp [hst])
  have hask := Side.lookup_of_getPaddr hs
  cases hr : p.findPdReady with
  | false =>
    have hvtp : (s.step READ i p).vtp = s.vtp := by
      cases READ <;> simp [Side.step, Vtp.step, Vtp.rdStep, Vtp.wrStep, hst, hr]
    simp only [AtLookup, hvtp, hh, hst]
    exact ⟨hcmd, hz⟩
  | true =>
    have hans := hp hr
    obtain ⟨f, hf, hqp⟩ := hans.qp (by rw [hcmd]; rfl)
    obtain ⟨g, hg, hqpQ⟩ := hans.qpQ (by rw [hcmd]; rfl)
    rw [hcmd] at hqp hqpQ
    by_cases h0 : s.handler.offsVaddr = 0#64
    · obtain rfl : READ = false := by
        by_contra hR
        exact hz (by simpa using hR) h0
      have hvtp : (s.step false i p).vtp =
          { s.vtp with
            findPdValid := false
            respAddrData := Vtp.sendResp p.qpRdReg p.qpRdRegQ
            st := .valid } := by
        simp [Side.step, Vtp.step, Vtp.wrStep, hst, hr, hask, h0]
      simp only [AtLookup, hvtp, hh, OwnAnswer]
      refine ⟨trivial, ?_⟩
      rw [if_pos h0, if_neg Bool.false_ne_true]
      exact ⟨f, hf, g, hg, by rw [hqp, hqpQ]; rfl⟩
    · have hvtp : (s.step READ i p).vtp =
          { s.vtp with
            findPdValid := false
            qpPdnum := (p.qpRdReg pdnumiIdx).setWidth 24
            st := .reqPd } := by
        cases READ <;> simp [Side.step, Vtp.step, Vtp.rdStep, Vtp.wrStep, hst, hr, hask, h0]
      simp only [AtLookup, hvtp, hh]
      exact ⟨trivial, h0, f, hf, by rw [hqp]; rfl⟩

/-- The protection-domain entry arrives, and the answer is assembled. -/
theorem atLookup_step_prepResp (hst : s.vtp.st = .prepResp)
    (hs : s.handler.reqState = .getPaddr)
    (hcmd : s.vtp.findPd = Vtp.pdCmd s.handler.reqAddrPdidx)
    (hz : s.handler.offsVaddr ≠ 0#64)
    (hpdnum : ∃ f ∈ files, s.vtp.qpPdnum =
      (f.qp (s.handler.qpn.setWidth 8) pdnumiIdx).setWidth 24)
    (hp : p.findPdReady = true → Answers files s.vtp p) :
    AtLookup READ files (s.step READ i p) := by
  have hh : (s.step READ i p).handler = s.handler := Side.handler_step_of_lookup hs (by simp [hst])
  cases hr : p.findPdReady with
  | false =>
    have hvtp : (s.step READ i p).vtp = s.vtp := by
      cases READ <;> simp [Side.step, Vtp.step, Vtp.rdStep, Vtp.wrStep, Vtp.Regs.finish, hst, hr]
    simp only [AtLookup, hvtp, hh, hst]
    exact ⟨hcmd, hz, hpdnum⟩
  | true =>
    obtain ⟨f, hf, hq⟩ := hpdnum
    obtain ⟨g, hg, hpdQ⟩ := (hp hr).pdQ (by rw [hcmd]; rfl)
    rw [hcmd] at hpdQ
    have hvtp : (s.step READ i p).vtp =
        { s.vtp with
          findPdValid := false
          respAddrData := Vtp.prepResp s.vtp.respAddrData s.vtp.qpPdnum p.pdRdRegQ
          st := .valid } := by
      cases READ <;> simp [Side.step, Vtp.step, Vtp.rdStep, Vtp.wrStep, Vtp.Regs.finish, hst, hr]
    simp only [AtLookup, hvtp, hh, OwnAnswer]
    refine ⟨trivial, ?_⟩
    rw [if_neg hz]
    exact ⟨s.vtp.respAddrData, f, hf, g, hg, by rw [hq, hpdQ]; rfl⟩

/-- One clock edge of a side, when a pulse answers its own question. -/
theorem SideOk.step (h : SideOk READ files s)
    (hp : p.findPdReady = true → Waiting s.vtp → Answers files s.vtp p) :
    SideOk READ files (s.step READ i p) := by
  have hl := h.lookup
  have hstay (hne : s.vtp.st ≠ .idle) (hnv : s.vtp.st ≠ .valid) :
      (s.step READ i p).vtp.st ≠ .idle → (s.step READ i p).handler.reqState = .getPaddr := by
    intro _
    rw [Side.handler_step_of_lookup (h.asking hne) hnv, h.asking hne]
  unfold AtLookup at hl
  cases hst : s.vtp.st <;> simp only [hst] at hl
  case idle =>
    by_cases hs : s.handler.reqState = .getPaddr
    · refine ⟨fun _ => ?_, atLookup_step_idle hst hs hl⟩
      rw [Side.handler_step_of_lookup hs (by simp [hst]), hs]
    · have hidle : (s.step READ i p).vtp = s.vtp := Side.vtp_step_of_not_getPaddr hst hs
      refine ⟨fun hno => absurd (by rw [hidle, hst]) hno, ?_⟩
      simp only [AtLookup, hidle, hst]
      exact hl
  case rdPdn =>
    exact ⟨hstay (by simp [hst]) (by simp [hst]),
      atLookup_step_rdPdn hst (h.asking (by simp [hst])) hl.1 hl.2 fun hr => hp hr (Or.inl hst)⟩
  case reqPd =>
    have hs := h.asking (by simp [hst])
    refine ⟨hstay (by simp [hst]) (by simp [hst]), ?_⟩
    have hvtp : (s.step READ i p).vtp = s.vtp.askPd s.lookup := by
      cases READ <;> simp [Side.step, Vtp.step, Vtp.rdStep, Vtp.wrStep, hst]
    simp only [AtLookup, hvtp,
      Side.handler_step_of_lookup hs (show s.vtp.st ≠ .valid by simp [hst]), Vtp.Regs.askPd,
      Side.lookup_of_getPaddr hs]
    exact ⟨trivial, hl.2⟩
  case prepResp =>
    exact ⟨hstay (by simp [hst]) (by simp [hst]),
      atLookup_step_prepResp hst (h.asking (by simp [hst])) hl.1 hl.2.1 hl.2.2
        fun hr => hp hr (Or.inr hst)⟩
  case valid =>
    have hs := h.asking (by simp [hst])
    have hidle : (s.step READ i p).vtp = { s.vtp with st := .idle } := by
      cases READ <;> simp [Side.step, Vtp.step, Vtp.rdStep, Vtp.wrStep, Vtp.Regs.finish, hst,
        Handler.respAddrReady, hs]
    refine ⟨fun hno => absurd (by rw [hidle]) hno, ?_⟩
    simp only [AtLookup, hidle]
    exact hl.1

end Side

/-! ## Runs -/

/-- The invariant of the composition. -/
structure Inv (s : State × List RegFile) : Prop where
  port : PortOk s.2 s.1.port
  rd : SideOk true s.2 s.1.rd
  wr : SideOk false s.2 s.1.wr

/-- A pulse that finds a side waiting for it answers the question of the side. -/
theorem PortOk.answers {files : List RegFile} {p : Port} {v : Vtp.Regs} (h : PortOk files p)
    (hr : p.findPdReady = true) (hv : v.findPd = p.lRdCmd) : Answers files v (view p) := by
  simp only [Port.findPdReady, Bool.and_eq_true, beq_iff_eq] at hr
  have hd := h.delivered hr.1.1 hr.2
  refine ⟨?_, ?_, ?_⟩ <;> rw [hv]
  · exact hd.qp
  · exact hd.qpQ
  · exact hd.pdQ

theorem Inv.step {s : State × List RegFile} {i : Input} (h : Inv s) (hsep : Separate s i) :
    Inv (s.1.step i, noteFiles s.2 s.1 i) := by
  have hsub : s.2 ⊆ noteFiles s.2 s.1 i := List.subset_cons_self _ _
  refine ⟨h.port.step ?_, ?_, ?_⟩
  · rintro c (hc | hc | hc)
    · obtain ⟨a, -, rfl⟩ := Option.map_eq_some_iff.mp hc
      rfl
    · exact h.rd.readAll hc
    · exact h.wr.readAll hc
  · exact (h.rd.step fun hr hw => h.port.answers hr ((hsep hr).1 hw)).mono hsub
  · exact (h.wr.step fun hr hw => h.port.answers hr ((hsep hr).2 hw)).mono hsub

theorem SideOk.ownAnswer {READ : Bool} {files : List RegFile} {s : Side}
    (h : SideOk READ files s) (hv : s.vtp.respValid = true) :
    OwnAnswer READ files s.handler s.vtp.respAddrData := by
  have hst : s.vtp.st = .valid := by simpa [Vtp.Regs.respValid] using hv
  have hl := h.lookup
  simp only [AtLookup, hst] at hl
  exact hl.2

/-- A packet that asks for the protection-domain entry `pd` on behalf of the queue pair
`qpn`. -/
def SideIn.request (opcode : BitVec 5) (qpn : BitVec 16) (pd : BitVec 24) : SideIn where
  reqValid := true
  reqData := { (default : Req) with
    opcode := opcode, qpn := qpn, vaddr := 0x100, tag := pd ++ 0#8, len := 64, last := true }
  cmdReady := false

/-- No packet. -/
def SideIn.none : SideIn := ⟨false, default, false⟩

/-- A cycle in which nothing arrives. -/
def Input.quiet : Input := ⟨SideIn.none, SideIn.none, false, [], true, .none, .none, WbIn.none⟩

/-- A remote read through entry 1 for queue pair 1. -/
def readRequest : SideIn := SideIn.request rcRdmaReadRequest 1 1

/-- An inbound write through entry 2 for queue pair 2. -/
def writeRequest : SideIn := SideIn.request rcRdmaWriteOnly 2 2

/-- The region of entry `n` starts at `n` times `0x1000`. -/
def regions : RegFile :=
  { RegFile.zero with
    pd := fun a r => if r = virtaddrlsbIdx then a.setWidth 32 <<< 12 else 0 }

/-- The read, its lookup, and then the write and its lookup. -/
def oneAfterTheOther : List Input :=
  { Input.quiet with rdIn := readRequest } :: List.replicate 12 Input.quiet ++
    { Input.quiet with wrIn := writeRequest } :: List.replicate 12 Input.quiet

/-- The read and the write arrive in the same cycle. -/
def bothAtOnce : List Input :=
  { Input.quiet with rdIn := readRequest, wrIn := writeRequest } :: List.replicate 10 Input.quiet

end Translation
end RecoNIC
