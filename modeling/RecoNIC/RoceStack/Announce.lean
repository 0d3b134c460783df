import RecoNIC.RoceStack.Csr
import RecoNIC.RoceStack.SendPsn
import RecoNIC.Synchronous.AsyncFifo

/-!
# What the stack has been told

A write of the host to certain registers of a queue pair is announced to the stack: the AXI-Lite
machine queues a command, and the register port, in the other clock domain, takes it out of the
FIFO, reads the row of the queue pair and shows it for one cycle.  The row is read later than
the write, in pieces of its own, and the host goes on writing meanwhile.

Does the stack end up with what is in the registers?  It does (`told_run`): when the last row
that was announced for a queue pair differs from the registers in one of these places, then a
command for that queue pair is still on its way.  So an old row is never the last one, and
nothing that the host writes is forgotten between the two domains.

The FIFO is that of the vendor, in its standard mode: a word that is taken appears in an output
register one cycle later, with `valid`, and a word that is accepted is acknowledged one cycle
later, with `wr_ack`.
-/

namespace RecoNIC
namespace Announce

open Synchronous AxilPort RegisterPort
open RegisterPort hiding step Input note Ledger
open SendPsn (Ask)

variable (F : AsyncFifo AxilCmd)

/-! ## The two domains with their FIFO -/

/-- The two machines of the registers, the words of `reg_cmd_cdc_fifo`, and its output
registers. -/
structure State where
  csr : Csr.State
  fifo : F.State
  cmdFifoInAck : Bool
  /-- `cmd_fifo_out`, where it is valid. -/
  cmdFifoOut : Option AxilCmd

/-- What is asked of the register port in a cycle by its clients. -/
structure Clients where
  rdQp : Option (BitVec 8)
  findPdRd : Option Ask
  findPdWr : Option Ask
  wb : WbIn

/-- A clock edge of one of the domains.  The acknowledgement of the FIFO is not taken from the
wires. -/
inductive Edge where
  | axil (i : AxilIn)
  | axis (wires : AxilIn) (i : Clients)

variable {F}

namespace State

variable (s : State F)

/-- `cmd_fifo_wr_en`. -/
def cmdFifoWrEn : Bool := s.csr.axil.rwState == .writeCmd && !s.cmdFifoInAck

/-- `cmd_fifo_in_q`, which is zero after reset. -/
def cmdFifoIn : AxilCmd := s.csr.axil.cmdFifoIn.getD (.glb 0)

/-- `cmd_fifo_rd_en`. -/
def cmdFifoRdEn (wires : AxilIn) : Bool :=
  match s.csr.port.lReg with
  | .idle => !F.empty s.fifo && !s.csr.axil.writing wires
  | .readCmd => s.cmdFifoOut.isNone
  | _ => false

/-- What the register port sees. -/
def portIn (wires : AxilIn) (i : Clients) : RegisterPort.Input where
  writing := s.csr.axil.writing wires
  portA := []
  cmdFifoEmpty := F.empty s.fifo
  cmdFifoOut := s.cmdFifoOut
  rdQp := i.rdQp.map rdQpCmd
  findPdRd := i.findPdRd.map Ask.cmd
  findPdWr := i.findPdWr.map Ask.cmd
  wb := i.wb

/-- One clock edge. -/
def step : Edge → State F
  | .axil i =>
    { s with
      csr := Csr.step s.csr (.axil { i with cmdFifoInAck := s.cmdFifoInAck })
      fifo := F.stepWr s.fifo s.cmdFifoWrEn s.cmdFifoIn
      cmdFifoInAck := s.cmdFifoWrEn && (!F.full s.fifo && !F.wrRstBusy s.fifo) }
  | .axis wires i =>
    { s with
      csr := Csr.step s.csr (.axis wires (s.portIn wires i))
      fifo := F.stepRd s.fifo (s.cmdFifoRdEn wires)
      cmdFifoOut :=
        if s.cmdFifoRdEn wires && !F.empty s.fifo then some (F.dout s.fifo) else none }

end State

variable (F) in
/-- After reset, over any contents of the RAMs. -/
def State.reset (regs : RegFile) : State F := ⟨(Csr.csr regs).reset, F.reset, false, none⟩

/-! ## What is announced -/

/-- The announcements whose registers nobody but the host writes. -/
inductive Kind where
  /-- `conn_configured_o`. -/
  | conn
  /-- `sq_updated_o`. -/
  | sq
  deriving DecidableEq

/-- The registers whose write leads to the announcement. -/
def Kind.events : Kind → List QpEvent
  | .conn => [.destqpconfi, .ipdesaddr1i, .macdesaddlsbi, .macdesaddmsbi]
  | .sq => [.sqpii]

/-- The port makes the announcement, for the queue pair `QPidx` and with the row in
`QP_RD_REG_AXIS_Q`. -/
def Kind.announced : Kind → Port → Bool
  | .conn => Port.connConfigured
  | .sq => Port.sqUpdated

/-- The last row that was announced for each queue pair. -/
def note (k : Kind) (told : BitVec 8 → RegRow) (s : State F) : Edge → BitVec 8 → RegRow
  | .axil _ => told
  | .axis _ _ =>
    if k.announced s.csr.port then
      Function.update told s.csr.port.qpIdx s.csr.port.qpRdRegQ else told

variable (F) in
/-- The registers, with what the stack has been told.  It begins with what is in the RAMs. -/
def announcer (k : Kind) (regs : RegFile) : Machine (State F × (BitVec 8 → RegRow)) Edge :=
  Machine.watch ⟨State.reset F regs, State.step⟩ regs.qp (note k)

/-- The command is on its way to the port: it is about to be queued, it is in the FIFO or in its
output register, or its read has not begun. -/
inductive Pending (s : State F) (c : AxilCmd) : Prop
  | written (hst : s.csr.axil.rwState = .write) (hc : s.csr.axil.decoded.cmd = some c)
  | offered (hst : s.csr.axil.rwState = .writeCmd) (hack : s.cmdFifoInAck = false)
      (hc : s.csr.axil.cmdFifoIn = some c)
  | queued (hc : c ∈ F.contents s.fifo)
  | taken (hc : s.cmdFifoOut = some c)
  | latched (hst : s.csr.port.lReg = .readMulti) (hhold : s.csr.port.holdAxis = 0)
      (hc : s.csr.port.lRdCmd = c.toRdCmd)

/-- The command that the port has latched leads to the announcement. -/
def Latches (k : Kind) (p : Port) : Prop :=
  p.lRdCmd.region = 2 ∧ ∃ ev ∈ k.events, p.lRdCmd.bramIdx = ev.idx

instance (k : Kind) (p : Port) : Decidable (Latches k p) := inferInstanceAs (Decidable (_ ∧ _))

/-- The row that has been read for a queue pair and is about to be announced. -/
def delivering (k : Kind) (p : Port) (q : BitVec 8) : Option RegRow :=
  if Latches k p ∧ p.lRdCmd.address = q then
    if p.lReg = .readMulti ∧ p.holdAxis = 1 then some p.qpRdReg
    else if p.lReg = .readReady then some p.qpRdRegQ
    else none
  else none

/-- **Told.**  For each queue pair, what the stack has been told last of a register is what is in
it, unless an announcement for this queue pair is on its way. -/
def Told (k : Kind) (x : State F × (BitVec 8 → RegRow)) : Prop :=
  ∀ q, ∀ ev ∈ k.events, x.2 q ev.idx = x.1.csr.port.regs.qp q ev.idx ∨
    Pending x.1 (.qp ev q) ∨ (delivering k x.1.csr.port q).isSome = true

/-! ## The AXI-Lite side -/

section Decoder

variable {k : Kind} {ev : QpEvent}

/-- The registers that are announced are not written back. -/
theorem not_mem_wbRegs (hev : ev ∈ k.events) : ev.idx ∉ Csr.wbRegs := by
  have hall : ∀ ev ∈ k.events, ev.idx ∉ Csr.wbRegs := by cases k <;> decide
  exact hall ev hev

/-- They are written in one row of the table, which queues their command. -/
theorem event_of_lookup (hev : ev ∈ k.events) {a : BitVec 8} {rs : List RegIdx}
    {event : Option QpEvent} (h : qpWriteTable.lookup a = some (rs, event)) (hr : ev.idx ∈ rs) :
    event = some ev := by
  have hall : ∀ ev ∈ k.events, ∀ e ∈ qpWriteTable, ev.idx ∈ e.2.1 → e.2.2 = some ev := by
    cases k <;> decide
  exact hall ev hev _ (Csr.mem_of_lookup h) hr

/-- A write that reaches such a register queues its command. -/
theorem cmd_of_target (hev : ev ∈ k.events) {addr : BitVec 18} {data : BitVec 32}
    {strb : BitVec 4} {c : WrCmd} {q : BitVec 8} (hc : c ∈ (decode addr data strb).writes)
    (htarget : RegFile.target c = some (.qp q ev.idx)) :
    (decode addr data strb).cmd = some (.qp ev q) := by
  have hregion : c.region = 2 := by
    by_contra hne
    exact Csr.spares_of_region hne q htarget
  rw [RegFile.target, if_pos hregion, Option.some.injEq, RegFile.Cell.qp.injEq] at htarget
  unfold decode at hc ⊢
  split_ifs at hc ⊢
  · unfold decodePd at hc
    cases hl : pdTable.lookup (addr.setWidth 8) with
    | none => simp [hl, Decode.refused] at hc
    | some r =>
      simp only [hl, List.mem_singleton] at hc
      rw [hc] at hregion
      exact absurd hregion (by simp)
  · unfold decodeQp at hc ⊢
    split_ifs at hc ⊢
    · simp [Decode.refused] at hc
    · cases hl : qpWriteTable.lookup (addr.setWidth 8) with
      | none => simp [hl, Decode.refused] at hc
      | some e =>
        obtain ⟨rs, event⟩ := e
        simp only [hl, List.mem_map] at hc ⊢
        obtain ⟨r, hr, rfl⟩ := hc
        obtain rfl : r = ev.idx := htarget.2
        rw [event_of_lookup hev hl hr, ← htarget.1]
        rfl
  · unfold decodeGlb at hc
    cases hl : glbWriteTable.lookup (addr.setWidth 9) with
    | some queued =>
      simp only [hl, List.mem_singleton] at hc
      rw [hc] at hregion
      exact absurd hregion (by simp)
    | none =>
      simp only [hl] at hc
      split_ifs at hc
      · rw [List.mem_singleton.mp hc] at hregion
        exact absurd hregion (by simp)
      · simp at hc
      · simp [Decode.refused] at hc

end Decoder

section Axil

variable {s : Axil} {regs : RegFile} {i : AxilIn}

theorem cmdFifoIn_foldl_answer (cs : List WrCmd) :
    (cs.foldl (fun s' c => s'.answer regs c) s).cmdFifoIn = s.cmdFifoIn := by
  induction cs generalizing s with
  | nil => rfl
  | cons c cs ih =>
    rw [List.foldl_cons, ih]
    unfold Axil.answer
    split_ifs <;> rfl

/-- `WRITE` goes on with the same write, or it ends and the command is offered. -/
theorem step_write (hst : s.rwState = .write) {c : AxilCmd} (hc : s.decoded.cmd = some c) :
    (s.step regs i).rwState = .write ∧ (s.step regs i).decoded.cmd = some c ∨
      (s.step regs i).rwState = .writeCmd ∧ (s.step regs i).cmdFifoIn = some c := by
  obtain ⟨ha, hd, hb, hr⟩ := writeAccess_wAddr s regs
  have hcmd : (s.writeAccess regs).cmdFifoIn = some c := by
    rw [Axil.writeAccess, cmdFifoIn_foldl_answer, hc]
    rfl
  unfold Axil.step
  simp only [hst]
  by_cases hhold : s.holdWr = 1
  · rw [if_pos hhold]
    exact Or.inr ⟨by simp [hc], hcmd⟩
  · rw [if_neg hhold]
    refine Or.inl ⟨hr.trans hst, ?_⟩
    rw [Axil.decoded] at hc ⊢
    simp only [ha, hd, hb]
    exact hc

end Axil

/-! ## The register port -/

theorem announced_iff {k : Kind} {p : Port} :
    k.announced p = true ↔ p.lReg = .readReady ∧ Latches k p := by
  cases k <;>
    simp [Kind.announced, Port.connConfigured, Port.sqUpdated, Latches, Kind.events, QpEvent.idx,
      and_assoc, or_assoc]

/-- An access takes two cycles, and a row that is about to be announced has been read as a whole,
for the queue pair in `QPidx`. -/
structure Control (k : Kind) (p : Port) : Prop where
  rest : p.lReg ≠ .readSingle → p.lReg ≠ .readMulti → p.lReg ≠ .write → p.holdAxis = 0
  hold : p.holdAxis = 0 ∨ p.holdAxis = 1
  single : p.lReg = .readSingle → ¬ Latches k p
  qpIdx : Latches k p → (p.lReg = .readMulti ∧ p.holdAxis = 1 ∨ p.lReg = .readReady) →
    p.qpIdx = p.lRdCmd.address

/-- What holds of the registers and the FIFO in each cycle. -/
structure Steady (k : Kind) (s : State F) : Prop where
  slots : ∀ ev ∈ k.events, ∀ w, Csr.Spares ev.idx (s.csr.port.slots w).cmd
  lWrCmd : ∀ ev ∈ k.events, Csr.Spares ev.idx s.csr.port.lWrCmd
  control : Control k s.csr.port
  out : s.csr.port.lReg = .readCmd ↔ s.cmdFifoOut.isSome = true

section Port

variable {k : Kind} {s : State F} {wires : AxilIn} {i : Clients}

/-- A client reads a row as a whole, under a number of its own. -/
theorem of_pick_read {c : RdCmd} (h : pick s.csr.port.slots (s.portIn wires i) = some (.read c)) :
    c.readAll = true ∧ ∀ ev ∈ k.events, c.bramIdx ≠ ev.idx := by
  have hq : ∀ ev ∈ k.events, numQpRegs ≠ ev.idx := by cases k <;> decide
  have hp : ∀ ev ∈ k.events, pdnumiIdx ≠ ev.idx := by cases k <;> decide
  have hask (a : Ask) : a.cmd.readAll = true ∧ ∀ ev ∈ k.events, a.cmd.bramIdx ≠ ev.idx := by
    cases a <;> exact ⟨rfl, hp⟩
  rcases asked_of_pick_read _ h with h | h | h
  · obtain ⟨q, -, rfl⟩ := Option.map_eq_some_iff.mp h
    exact ⟨rfl, hq⟩
  · obtain ⟨a, -, rfl⟩ := Option.map_eq_some_iff.mp h
    exact hask a
  · obtain ⟨a, -, rfl⟩ := Option.map_eq_some_iff.mp h
    exact hask a

/-- A command of the AXI-Lite side that leads to an announcement reads the whole row. -/
theorem readAll_of_toRdCmd {a : AxilCmd} (hregion : a.toRdCmd.region = 2) :
    a.toRdCmd.readAll = true := by
  cases a with
  | pdpdnum a => exact absurd hregion (by decide +revert)
  | qp event a => rfl
  | glb a => exact absurd hregion (by decide +revert)

theorem Control.of_rest {p : Port} (hhold : p.holdAxis = 0) (hsingle : p.lReg ≠ .readSingle)
    (hready : p.lReg ≠ .readReady) : Control k p where
  rest _ _ _ := hhold
  hold := Or.inl hhold
  single h := absurd h hsingle
  qpIdx _ h := by
    rcases h with ⟨-, h⟩ | h
    · exact absurd (hhold.symm.trans h) (by decide)
    · exact absurd h hready

/-- A read begins. -/
theorem Control.startRead {p : Port} (hhold : p.holdAxis = 0) {c : RdCmd}
    (hc : c.region = 2 → (∃ ev ∈ k.events, c.bramIdx = ev.idx) → c.readAll = true) :
    Control k (p.startRead c) where
  rest _ _ _ := hhold
  hold := Or.inl hhold
  single h := by
    rintro ⟨hregion, hev⟩
    have hall := hc hregion hev
    simp [Port.lReg_startRead, hall] at h
  qpIdx _ h := by
    rcases h with ⟨-, h⟩ | h
    · exact absurd (hhold.symm.trans h) (by decide)
    · cases hall : c.readAll <;> simp [Port.lReg_startRead, hall] at h

/-- A row is read. -/
theorem Control.multi {p : Port} (h : Control k p) (hs : p.lReg = .readMulti) :
    Control k (p.accessMulti.endAccess .readReady) := by
  have hidx : Latches k (p.accessMulti.endAccess .readReady) →
      (p.accessMulti.endAccess .readReady).qpIdx =
        (p.accessMulti.endAccess .readReady).lRdCmd.address := by
    rintro ⟨hregion, -⟩
    simp only [Port.lRdCmd_endAccess, Port.control_accessMulti] at hregion
    simp [Port.accessMulti, hregion]
  rcases h.hold with hhold | hhold
  · exact ⟨by simp [hhold, hs], by simp [hhold], by simp [hhold, hs], fun hl _ => hidx hl⟩
  · exact ⟨by simp [hhold], by simp [hhold], by simp [hhold], fun hl _ => hidx hl⟩

theorem Control.lStep (h : Control k s.csr.port) :
    Control k (RegisterPort.lStep s.csr.port (s.portIn wires i)) := by
  obtain ⟨p', hstep, hedge⟩ := exists_lEdge s.csr.port (s.portIn wires i)
  rw [hstep]
  cases hedge with
  | stay => exact h
  | cmdFifo hs =>
    exact .of_rest (h.rest (by simp [hs]) (by simp [hs]) (by simp [hs])) (by simp) (by simp)
  | start c hs hc =>
    have hhold : s.csr.port.holdAxis = 0 := by
      rcases hs with hs | hs <;> exact h.rest (by simp [hs]) (by simp [hs]) (by simp [hs])
    refine .startRead hhold fun hregion hev => ?_
    rcases hc with ⟨-, hpick⟩ | ⟨a, -, rfl⟩
    · exact (of_pick_read (k := k) hpick).1
    · exact readAll_of_toRdCmd hregion
  | writeBack w hs =>
    exact .of_rest (h.rest (by simp [hs]) (by simp [hs]) (by simp [hs])) (by simp) (by simp)
  | single hs =>
    have hlatch : ¬ Latches k (s.csr.port.accessSingle.endAccess .readReady) := by
      intro hl
      rw [Latches] at hl
      simp only [Port.lRdCmd_endAccess, Port.control_accessSingle] at hl
      exact h.single hs hl
    rcases h.hold with hhold | hhold
    · exact ⟨by simp [hhold, hs], by simp [hhold], fun _ => hlatch, fun hl => absurd hl hlatch⟩
    · exact ⟨by simp [hhold], by simp [hhold], fun _ => hlatch, fun hl => absurd hl hlatch⟩
  | multi hs => exact h.multi hs
  | write hs =>
    rcases h.hold with hhold | hhold
    · exact ⟨by simp [hhold, hs], by simp [hhold], by simp [hhold, hs], by simp [hhold, hs]⟩
    · exact .of_rest (by simp [hhold]) (by simp [hhold]) (by simp [hhold])
  | announce hs =>
    refine .of_rest (h.rest (by simp [hs]) (by simp [hs]) (by simp [hs])) ?_ ?_ <;> dsimp only <;>
      split_ifs <;> simp
  | rest hs =>
    exact .of_rest (h.rest (by simp [hs]) (by simp [hs]) (by simp [hs])) (by simp) (by simp)

/-- `L_READ_CMD` is entered from `L_IDLE`. -/
theorem lReg_lStep_ne {p : Port} (i : RegisterPort.Input) (hidle : p.lReg ≠ .idle)
    (hcmd : p.lReg ≠ .readCmd) : (RegisterPort.lStep p i).lReg ≠ .readCmd := by
  cases hs : p.lReg with
  | idle => exact absurd hs hidle
  | readCmd => exact absurd hs hcmd
  | readReady =>
    simp only [lStep, hs]
    split_ifs <;> simp
  | hold => simp [lStep, hs]
  | _ => by_cases hhold : p.holdAxis = 1#2 <;> simp [lStep, hs, hhold]

/-- A word that is taken out of the FIFO is read in the cycle in which it is valid. -/
theorem out_axis (hout : s.csr.port.lReg = .readCmd ↔ s.cmdFifoOut.isSome = true) :
    (lStep s.csr.port (s.portIn wires i)).lReg = .readCmd ↔
      (s.step (.axis wires i)).cmdFifoOut.isSome = true := by
  have hnext : (s.step (.axis wires i)).cmdFifoOut =
      if s.cmdFifoRdEn wires && !F.empty s.fifo then some (F.dout s.fifo) else none := rfl
  rw [hnext]
  cases hs : s.csr.port.lReg with
  | idle =>
    have hrd : (s.cmdFifoRdEn wires && !F.empty s.fifo) =
        (!s.csr.axil.writing wires && !F.empty s.fifo) := by
      simp only [State.cmdFifoRdEn, hs]
      cases F.empty s.fifo <;> simp
    have hpick : pick s.csr.port.slots (s.portIn wires i) = some .cmdFifo ↔
        (!s.csr.axil.writing wires && !F.empty s.fifo) = true := by
      unfold pick
      cases hw : s.csr.axil.writing wires <;> cases he : F.empty s.fifo <;>
        simp [State.portIn, hw, he]
      split_ifs <;> simp
    rw [hrd]
    simp only [lStep, hs]
    by_cases hgo : (!s.csr.axil.writing wires && !F.empty s.fifo) = true
    · rw [hpick.mpr hgo, hgo]
      simp
    · have hno := hpick.not.mpr hgo
      rw [Bool.not_eq_true] at hgo
      rw [hgo]
      refine iff_of_false ?_ (by simp)
      cases hp : pick s.csr.port.slots (s.portIn wires i) with
      | none => simp [hs]
      | some t =>
        cases t with
        | cmdFifo => exact absurd hp hno
        | read c => simp only [Port.lReg_startRead]; split_ifs <;> simp
        | wb w => simp
  | readCmd =>
    obtain ⟨c, hc⟩ := Option.isSome_iff_exists.mp (hout.mp hs)
    have hin : (s.portIn wires i).cmdFifoOut = some c := hc
    have hrd : s.cmdFifoRdEn wires = false := by simp [State.cmdFifoRdEn, hs, hc]
    rw [hrd]
    simp only [lStep, hs, hin, Port.lReg_startRead]
    refine iff_of_false ?_ (by simp)
    split_ifs <;> simp
  | _ =>
    have hrd : s.cmdFifoRdEn wires = false := by simp only [State.cmdFifoRdEn, hs]
    rw [hrd]
    exact iff_of_false (lReg_lStep_ne _ (by simp [hs]) (by simp [hs])) (by simp)

theorem Steady.axil (h : Steady k s) (i : AxilIn) : Steady k (s.step (.axil i)) :=
  ⟨h.slots, h.lWrCmd, ⟨h.control.rest, h.control.hold, h.control.single, h.control.qpIdx⟩, h.out⟩

theorem Steady.axis (h : Steady k s) (wires : AxilIn) (i : Clients) :
    Steady k (s.step (.axis wires i)) := by
  have hcontrol : Control k (lStep s.csr.port (s.portIn wires i)) := h.control.lStep
  refine ⟨fun ev hev w => ?_, fun ev hev => ?_, ?_, out_axis h.out⟩
  · exact Csr.spares_capture (h.slots ev hev w) fun c hc =>
      Csr.spares_of_not_mem_wbRegs (not_mem_wbRegs hev) _ _ hc
  · exact Csr.lStep_lWrCmd _ _ (h.lWrCmd ev hev) (h.slots ev hev)
  · exact ⟨hcontrol.rest, hcontrol.hold, hcontrol.single, hcontrol.qpIdx⟩

theorem steady_reset (F : AsyncFifo AxilCmd) (k : Kind) (regs : RegFile) :
    Steady k (State.reset F regs) where
  slots _ _ _ := Csr.spares_of_region (show (0 : BitVec 2) ≠ 2 by decide)
  lWrCmd _ _ := Csr.spares_of_region (show (0 : BitVec 2) ≠ 2 by decide)
  control := .of_rest rfl nofun nofun
  out := iff_of_false nofun Bool.false_ne_true

/-! ## Commands on their way -/

variable {ev : QpEvent} {q : BitVec 8}

/-- An edge of the AXI-Lite side loses no command. -/
theorem Pending.axil {c : AxilCmd} (h : Pending s c) (i : AxilIn) :
    Pending (s.step (.axil i)) c := by
  have hcont : F.contents (s.step (.axil i)).fifo = F.contents s.fifo ++
      if s.cmdFifoWrEn && (!F.full s.fifo && !F.wrRstBusy s.fifo) then [s.cmdFifoIn] else [] :=
    F.contents_stepWr ..
  have hack : (s.step (.axil i)).cmdFifoInAck =
      (s.cmdFifoWrEn && (!F.full s.fifo && !F.wrRstBusy s.fifo)) := rfl
  cases h with
  | written hst hc =>
    have hwr : s.cmdFifoWrEn = false := by simp [State.cmdFifoWrEn, hst]
    rw [hwr, Bool.false_and] at hack
    rcases step_write hst hc with ⟨hst', hc'⟩ | ⟨hst', hc'⟩
    · exact .written hst' hc'
    · exact .offered hst' hack hc'
  | offered hst hno hc =>
    have hwr : s.cmdFifoWrEn = true := by simp [State.cmdFifoWrEn, hst, hno]
    have hin : s.cmdFifoIn = c := by rw [State.cmdFifoIn, hc]; rfl
    rw [hwr, Bool.true_and] at hack hcont
    cases hroom : !F.full s.fifo && !F.wrRstBusy s.fifo with
    | true =>
      rw [hroom, hin] at hcont
      refine .queued ?_
      rw [hcont]
      exact List.mem_append_right _ List.mem_cons_self
    | false =>
      -- the FIFO has no room, and the command is offered again
      have hstay : (s.step (.axil i)).csr.axil = s.csr.axil := by
        show s.csr.axil.step s.csr.port.regs { i with cmdFifoInAck := s.cmdFifoInAck } = _
        simp [Axil.step, hst, hno]
      exact .offered (by rw [hstay]; exact hst) (hack.trans hroom) (by rw [hstay]; exact hc)
  | queued hc =>
    refine .queued ?_
    rw [hcont]
    exact List.mem_append_left _ hc
  | taken hc => exact .taken hc
  | latched hst hhold hc => exact .latched hst hhold hc

/-- An edge of the other side brings a command nearer, or reads its row. -/
theorem Pending.axis (h : Pending s (.qp ev q)) (hev : ev ∈ k.events) (hs : Steady k s)
    (wires : AxilIn) (i : Clients) :
    Pending (s.step (.axis wires i)) (.qp ev q) ∨
      delivering k (s.step (.axis wires i)).csr.port q = some (s.csr.port.regs.qp q) := by
  cases h with
  | written hst hc => exact Or.inl (.written hst hc)
  | offered hst hno hc => exact Or.inl (.offered hst hno hc)
  | queued hc =>
    have hcont : F.contents (s.step (.axis wires i)).fifo =
        if s.cmdFifoRdEn wires && !F.empty s.fifo then (F.contents s.fifo).tail
        else F.contents s.fifo := F.contents_stepRd ..
    have hout : (s.step (.axis wires i)).cmdFifoOut =
        if s.cmdFifoRdEn wires && !F.empty s.fifo then some (F.dout s.fifo) else none := rfl
    cases hrd : s.cmdFifoRdEn wires && !F.empty s.fifo with
    | false =>
      rw [hrd] at hcont
      exact Or.inl (.queued (hcont ▸ hc))
    | true =>
      rw [hrd, if_pos rfl] at hcont hout
      have hempty : F.empty s.fifo = false := by
        simpa using (Bool.and_eq_true_iff.mp hrd).2
      rw [F.contents_eq_cons s.fifo hempty] at hc
      rcases List.mem_cons.mp hc with hhead | htail
      · exact Or.inl (.taken (hout.trans (congrArg some hhead.symm)))
      · exact Or.inl (.queued (hcont ▸ htail))
  | taken hc =>
    have hst : s.csr.port.lReg = .readCmd := hs.out.mpr (by rw [hc]; rfl)
    have hin : (s.portIn wires i).cmdFifoOut = some (.qp ev q) := hc
    have hread : lStep s.csr.port (s.portIn wires i) =
        s.csr.port.startRead (AxilCmd.qp ev q).toRdCmd := by
      simp only [lStep, hst, hin]
    refine Or.inl (.latched ?_ ?_ ?_)
    · show (lStep s.csr.port (s.portIn wires i)).lReg = _
      rw [hread]
      rfl
    · show (lStep s.csr.port (s.portIn wires i)).holdAxis = _
      rw [hread]
      exact hs.control.rest (by simp [hst]) (by simp [hst]) (by simp [hst])
    · show (lStep s.csr.port (s.portIn wires i)).lRdCmd = _
      rw [hread]
      rfl
  | latched hst hhold hc =>
    have hread : lStep s.csr.port (s.portIn wires i) =
        s.csr.port.accessMulti.endAccess .readReady := by
      simp only [lStep, hst]
    have hregion : s.csr.port.lRdCmd.region = 2 := by rw [hc]; rfl
    have hcmd : (lStep s.csr.port (s.portIn wires i)).lRdCmd = (AxilCmd.qp ev q).toRdCmd := by
      rw [hread]
      simp [hc]
    have hlatch : Latches k (lStep s.csr.port (s.portIn wires i)) ∧
        (lStep s.csr.port (s.portIn wires i)).lRdCmd.address = q := by
      rw [Latches, hcmd]
      exact ⟨⟨rfl, ev, hev, rfl⟩, rfl⟩
    have hnow : (lStep s.csr.port (s.portIn wires i)).lReg = .readMulti ∧
        (lStep s.csr.port (s.portIn wires i)).holdAxis = 1 := by
      rw [hread]
      simp [hhold, hst]
    have hrow : (lStep s.csr.port (s.portIn wires i)).qpRdReg = s.csr.port.regs.qp q := by
      rw [hread, (Port.outputs_endAccess _ _).1, (Port.accessMulti_qp _ hregion).1, hc]
      rfl
    refine Or.inr ?_
    show delivering k (lStep s.csr.port (s.portIn wires i)) q = _
    rw [delivering, if_pos hlatch, if_pos hnow, hrow]

/-! ## What has been told, and what is about to be -/

/-- What the stack will have been told of a queue pair when the row that has been read is
announced. -/
def final (k : Kind) (x : State F × (BitVec 8 → RegRow)) (q : BitVec 8) : RegRow :=
  (delivering k x.1.csr.port q).getD (x.2 q)

theorem delivering_of_not_latches {p : Port} (h : ¬ (Latches k p ∧ p.lRdCmd.address = q)) :
    delivering k p q = none := if_neg h

theorem delivering_of_lReg {p : Port} (hmulti : p.lReg ≠ .readMulti)
    (hready : p.lReg ≠ .readReady) : delivering k p q = none := by
  simp only [delivering, hmulti, hready, false_and, if_false, ite_self]

theorem delivering_of_begin {p : Port} (hhold : p.holdAxis = 0) (hready : p.lReg ≠ .readReady) :
    delivering k p q = none := by
  have hno : ¬ (p.lReg = .readMulti ∧ p.holdAxis = 1) := fun h =>
    absurd (hhold.symm.trans h.2) (by decide)
  simp only [delivering, hno, hready, if_false, ite_self]

/-- The row that is announced, or the one that was. -/
theorem told_axis (hs : Steady k s) (told : BitVec 8 → RegRow) (wires : AxilIn) (i : Clients)
    (q : BitVec 8) : note k told s (.axis wires i) q =
      if s.csr.port.lReg = .readReady then (delivering k s.csr.port q).getD (told q)
      else told q := by
  show (if k.announced s.csr.port then _ else told) q = _
  by_cases hready : s.csr.port.lReg = .readReady
  · rw [if_pos hready]
    by_cases hl : Latches k s.csr.port
    · rw [if_pos (announced_iff.mpr ⟨hready, hl⟩), hs.control.qpIdx hl (Or.inr hready)]
      by_cases hq : s.csr.port.lRdCmd.address = q
      · rw [delivering, if_pos ⟨hl, hq⟩, if_neg (by simp [hready]), if_pos hready, hq,
          Function.update_self]
        rfl
      · rw [delivering_of_not_latches fun h => hq h.2, Function.update_of_ne (Ne.symm hq)]
        rfl
    · have hno : ¬ k.announced s.csr.port = true := fun h => hl (announced_iff.mp h).2
      rw [if_neg hno, delivering_of_not_latches fun h => hl h.1]
      rfl
  · have hno : ¬ k.announced s.csr.port = true := fun h => hready (announced_iff.mp h).1
    rw [if_neg hno, if_neg hready]

/-- An edge between two states in which no row is on its way. -/
theorem delivering_of_away {p p' : Port} (hmulti : p.lReg ≠ .readMulti)
    (hready : p.lReg ≠ .readReady) (hmulti' : p'.lReg ≠ .readMulti)
    (hready' : p'.lReg ≠ .readReady) (q : BitVec 8) :
    delivering k p' q = if p.lReg = .readReady then none else delivering k p q := by
  rw [if_neg hready, delivering_of_lReg hmulti' hready', delivering_of_lReg hmulti hready]

/-- The two cycles of `L_READ_MULTI`: the row is read, and then it is what is about to be
announced. -/
theorem delivering_accessMulti {p : Port} (hst : p.lReg = .readMulti)
    (hhold : p.holdAxis = 0 ∨ p.holdAxis = 1) (q : BitVec 8) :
    delivering k (p.accessMulti.endAccess .readReady) q = some (p.regs.qp q) ∨
      delivering k (p.accessMulti.endAccess .readReady) q = delivering k p q := by
  have hsame : (Latches k (p.accessMulti.endAccess .readReady) ∧
      (p.accessMulti.endAccess .readReady).lRdCmd.address = q) ↔
        (Latches k p ∧ p.lRdCmd.address = q) := by
    rw [Latches, Latches]
    simp only [Port.lRdCmd_endAccess, Port.control_accessMulti]
  by_cases hl : Latches k p ∧ p.lRdCmd.address = q
  · obtain ⟨hrow, hrowQ⟩ := Port.accessMulti_qp _ hl.1.1
    rcases hhold with hhold | hhold
    · refine Or.inl ?_
      rw [delivering, if_pos (hsame.mpr hl), if_pos (by simp [hhold, hst]),
        (Port.outputs_endAccess _ _).1, hrow, hl.2]
    · refine Or.inr ?_
      rw [delivering, if_pos (hsame.mpr hl), if_neg (by simp [hhold]), if_pos (by simp [hhold]),
        (Port.outputs_endAccess _ _).2.1, hrowQ, delivering, if_pos hl, if_pos ⟨hst, hhold⟩]
  · rw [delivering_of_not_latches (hsame.not.mpr hl), delivering_of_not_latches hl]
    exact Or.inr rfl

/-- A row that is read, or one that was about to be announced, or nothing. -/
theorem delivering_axis (hs : Steady k s) (wires : AxilIn) (i : Clients) (q : BitVec 8) :
    delivering k (s.step (.axis wires i)).csr.port q = some (s.csr.port.regs.qp q) ∨
      delivering k (s.step (.axis wires i)).csr.port q =
        if s.csr.port.lReg = .readReady then none else delivering k s.csr.port q := by
  show delivering k (lStep s.csr.port (s.portIn wires i)) q = _ ∨
    delivering k (lStep s.csr.port (s.portIn wires i)) q = _
  obtain ⟨p', hstep, hedge⟩ := exists_lEdge s.csr.port (s.portIn wires i)
  rw [hstep]
  have hcontrol := hs.control
  cases hedge with
  | stay hst =>
    have hne : s.csr.port.lReg ≠ .readReady := by rcases hst with h | h <;> simp [h]
    rw [if_neg hne]
    exact Or.inr rfl
  | cmdFifo hst =>
    exact Or.inr (delivering_of_away (by simp [hst]) (by simp [hst]) (by simp) (by simp) q)
  | start c hst =>
    have hhold : s.csr.port.holdAxis = 0 := by
      rcases hst with h | h <;> exact hcontrol.rest (by simp [h]) (by simp [h]) (by simp [h])
    have hne : s.csr.port.lReg ≠ .readReady ∧ s.csr.port.lReg ≠ .readMulti := by
      rcases hst with h | h <;> simp [h]
    have hready : (s.csr.port.startRead c).lReg ≠ .readReady := by
      rw [Port.lReg_startRead]
      split_ifs <;> simp
    have hafter : delivering k (s.csr.port.startRead c) q = none :=
      delivering_of_begin hhold hready
    rw [if_neg hne.1, hafter, delivering_of_lReg hne.2 hne.1]
    exact Or.inr rfl
  | writeBack w hst =>
    exact Or.inr (delivering_of_away (by simp [hst]) (by simp [hst]) (by simp) (by simp) q)
  | single hst =>
    have hlatch : ¬ (Latches k (s.csr.port.accessSingle.endAccess .readReady) ∧
        (s.csr.port.accessSingle.endAccess .readReady).lRdCmd.address = q) := by
      rintro ⟨hl, -⟩
      rw [Latches] at hl
      simp only [Port.lRdCmd_endAccess, Port.control_accessSingle] at hl
      exact hcontrol.single hst hl
    rw [if_neg (by simp [hst]), delivering_of_not_latches hlatch,
      delivering_of_lReg (by simp [hst]) (by simp [hst])]
    exact Or.inr rfl
  | multi hst =>
    rw [if_neg (by simp [hst])]
    exact delivering_accessMulti hst hcontrol.hold q
  | write hst =>
    have hnext : (s.csr.port.accessWrite.endAccess .idle).lReg ≠ .readMulti ∧
        (s.csr.port.accessWrite.endAccess .idle).lReg ≠ .readReady := by
      rcases hcontrol.hold with hhold | hhold <;> simp [hhold, hst]
    exact Or.inr (delivering_of_away (by simp [hst]) (by simp [hst]) hnext.1 hnext.2 q)
  | announce hst =>
    rw [if_pos hst]
    refine Or.inr (delivering_of_lReg ?_ ?_) <;> dsimp only <;> split_ifs <;> simp
  | rest hst =>
    exact Or.inr (delivering_of_away (by simp [hst]) (by simp [hst]) (by simp) (by simp) q)

end Port

/-! ## Runs -/

/-- The invariant: what the stack will have been told is what is in the registers, unless a
command is on its way. -/
structure Inv (k : Kind) (x : State F × (BitVec 8 → RegRow)) : Prop where
  steady : Steady k x.1
  fresh : ∀ q, ∀ ev ∈ k.events, final k x q ev.idx = x.1.csr.port.regs.qp q ev.idx ∨
    Pending x.1 (.qp ev q)

section Run

variable {k : Kind} {regs : RegFile} {x : State F × (BitVec 8 → RegRow)}

theorem inv_reset (F : AsyncFifo AxilCmd) (k : Kind) (regs : RegFile) :
    Inv k (announcer F k regs).reset := by
  refine ⟨steady_reset F k regs, fun q ev _ => Or.inl ?_⟩
  have hidle : delivering k (announcer F k regs).reset.1.csr.port q = none :=
    delivering_of_lReg (show LState.idle ≠ .readMulti by decide)
      (show LState.idle ≠ .readReady by decide)
  rw [final, hidle]
  rfl

/-- An edge of the AXI-Lite side changes a register only with its command on the way. -/
theorem Inv.axil (h : Inv k x) (i : AxilIn) : Inv k ((announcer F k regs).step x (.axil i)) := by
  refine ⟨h.steady.axil i, fun q ev hev => ?_⟩
  rcases h.fresh q ev hev with hfresh | hpending
  · by_cases hhit : ∃ c ∈ x.1.csr.axil.ramWrites, RegFile.target c = some (.qp q ev.idx)
    · obtain ⟨c, hc, htarget⟩ := hhit
      unfold Axil.ramWrites at hc
      split_ifs at hc with hst
      · exact Or.inr (Pending.axil (.written hst (cmd_of_target hev hc htarget)) i)
      · cases hc
    · left
      have hkeep : (x.1.csr.axil.nextRegs x.1.csr.port.regs).qp q ev.idx =
          x.1.csr.port.regs.qp q ev.idx := by
        refine RegFile.read_foldl_write_of_ne (x := .qp q ev.idx) (fun c hc htarget => ?_) _
        exact hhit ⟨c, hc, htarget⟩
      exact hfresh.trans hkeep.symm
  · exact Or.inr (hpending.axil i)

/-- An edge of the other side. -/
theorem Inv.axis (h : Inv k x) (wires : AxilIn) (i : Clients) :
    Inv k ((announcer F k regs).step x (.axis wires i)) := by
  refine ⟨h.steady.axis wires i, fun q ev hev => ?_⟩
  have hkeep : ((announcer F k regs).step x (.axis wires i)).1.csr.port.regs.qp q ev.idx =
      x.1.csr.port.regs.qp q ev.idx := Csr.lStep_qp _ _ (h.steady.lWrCmd ev hev) q
  have htold : ((announcer F k regs).step x (.axis wires i)).2 q = _ :=
    told_axis h.steady x.2 wires i q
  rw [hkeep]
  rcases delivering_axis h.steady wires i q with hrow | hsame
  · left
    show ((delivering k (x.1.step (.axis wires i)).csr.port q).getD _) ev.idx = _
    rw [hrow]
    rfl
  · have hfinal : final k ((announcer F k regs).step x (.axis wires i)) q = final k x q := by
      show (delivering k (x.1.step (.axis wires i)).csr.port q).getD _ = _
      rw [hsame, htold, final]
      split_ifs <;> rfl
    rw [hfinal]
    rcases h.fresh q ev hev with hfresh | hpending
    · exact Or.inl hfresh
    · rcases hpending.axis hev h.steady wires i with hpending' | hrow
      · exact Or.inr hpending'
      · left
        rw [← hfinal]
        show ((delivering k (x.1.step (.axis wires i)).csr.port q).getD _) ev.idx = _
        rw [hrow]
        rfl

theorem Inv.told (h : Inv k x) : Told k x := by
  intro q ev hev
  rcases h.fresh q ev hev with hfresh | hpending
  · cases hrow : delivering k x.1.csr.port q with
    | none =>
      rw [final, hrow] at hfresh
      exact Or.inl hfresh
    | some row => exact Or.inr (Or.inr rfl)
  · exact Or.inr (Or.inl hpending)

end Run

theorem inv_run (F : AsyncFifo AxilCmd) (k : Kind) (regs : RegFile) (es : List Edge) :
    (announcer F k regs).Always (Inv k) (announcer F k regs).reset es := by
  refine Machine.always_of_step (fun x e h => ?_) (inv_reset F k regs) es
  cases e with
  | axil i => exact h.axil i
  | axis wires i => exact h.axis wires i

/-- Nothing is on its way. -/
structure AtRest (s : State F) : Prop where
  axil : s.csr.axil.rwState ≠ .write ∧ s.csr.axil.rwState ≠ .writeCmd
  fifo : F.contents s.fifo = []
  out : s.cmdFifoOut = none
  port : s.csr.port.lReg ≠ .readMulti ∧ s.csr.port.lReg ≠ .readReady

/-- Then the stack has been told what is in the registers. -/
theorem Inv.of_atRest {k : Kind} {x : State F × (BitVec 8 → RegRow)} (h : Inv k x)
    (hrest : AtRest x.1) (q : BitVec 8) {ev : QpEvent} (hev : ev ∈ k.events) :
    x.2 q ev.idx = x.1.csr.port.regs.qp q ev.idx := by
  have hfinal : final k x q = x.2 q := by
    rw [final, delivering_of_lReg hrest.port.1 hrest.port.2]
    rfl
  rcases h.fresh q ev hev with hfresh | hpending
  · rwa [hfinal] at hfresh
  · cases hpending with
    | written hst => exact absurd hst hrest.axil.1
    | offered hst => exact absurd hst hrest.axil.2
    | queued hc => exact absurd (hrest.fifo ▸ hc) List.not_mem_nil
    | taken hc => exact absurd (hrest.out.symm.trans hc) nofun
    | latched hst => exact absurd hst hrest.port.1

/-- **No write is forgotten.**  For each FIFO that is as its data sheet says, over any contents
of the registers, any traffic of the host and of the clients of the port, and any order of the
edges of the two clocks: at each moment what the stack has been told last of a connection or of
a send queue is what is in its registers, unless an announcement for it is on its way. -/
theorem told_run (F : AsyncFifo AxilCmd) (k : Kind) (regs : RegFile) (es : List Edge) :
    (announcer F k regs).Always (Told k) (announcer F k regs).reset es :=
  (inv_run F k regs es).mono fun _ h => h.told

end Announce
end RecoNIC
