import RecoNIC.RoceStack.AxilPort

/-!
# Both sides of the registers

`roce_stack_csr.sv` as a whole: the AXI-Lite machine in one clock domain and the register
port in the other, over the same block RAMs.  A run is a list of clock edges of the two
domains in any order.  What crosses between them without the RAMs are the `writing` flag
and the command FIFO, which is vendor code and stays an input.

There are two kinds of writer, the write decoder and the write-backs.  Some registers of a
queue pair are in the range of neither: `qp_run_of_unwritten`.
-/

namespace RecoNIC
namespace Csr

open Synchronous AxilPort RegisterPort
open RegisterPort hiding step

/-- The two machines; the RAM contents are those of the port. -/
structure State where
  axil : Axil
  port : Port

/-- A clock edge of one of the domains.  An edge of the second one comes with the wires of
the first one, as `writing` depends on them. -/
inductive Edge where
  | axil (i : AxilIn)
  | axis (wires : AxilIn) (i : RegisterPort.Input)

/-- One clock edge. -/
def step (s : State) : Edge → State
  | .axil i =>
    ⟨s.axil.step s.port.regs i, { s.port with regs := s.axil.nextRegs s.port.regs }⟩
  | .axis wires i =>
    ⟨s.axil, RegisterPort.step s.port
      { i with writing := s.axil.writing wires, portA := [] }⟩

/-- The registers over any contents of the RAMs. -/
def csr (regs : RegFile) : Machine State Edge := ⟨⟨Axil.reset, Port.reset regs⟩, step⟩

/-! ## Registers without a writer -/

/-- The registers of a queue pair that are written back. -/
def wbRegs : List RegIdx :=
  [cqheadiIdx, sqpsniIdx, lstrqreqiIdx, statrqbufcaiIdx, statrqbufcamsbiIdx, statrqpidbiIdx]

/-- Neither the write decoder nor a write-back knows the register. -/
def Unwritten (r : RegIdx) : Prop := (∀ e ∈ qpWriteTable, r ∉ e.2.1) ∧ r ∉ wbRegs

instance (r : RegIdx) : Decidable (Unwritten r) := inferInstanceAs (Decidable (_ ∧ _))

/-- The command leaves the register of every queue pair alone. -/
def Spares (r : RegIdx) (c : WrCmd) : Prop := ∀ q, RegFile.target c ≠ some (.qp q r)

section Spares

variable {r : RegIdx} {c : WrCmd}

theorem spares_of_region (h : c.region ≠ 2) : Spares r c := by
  intro q
  rw [RegFile.target, if_neg h]
  split_ifs <;> simp

theorem spares_of_bramIdx (h : c.bramIdx ≠ r) : Spares r c := by
  intro q
  unfold RegFile.target
  split_ifs <;> simp [h]

theorem Spares.qp_write (h : Spares r c) (regs : RegFile) (q : BitVec 8) :
    (regs.write c).qp q r = regs.qp q r := by
  have hread := RegFile.read_write regs c (.qp q r)
  rwa [if_neg (h q)] at hread

theorem qp_foldl_write {cs : List WrCmd} (h : ∀ c ∈ cs, Spares r c) (regs : RegFile)
    (q : BitVec 8) : (cs.foldl RegFile.write regs).qp q r = regs.qp q r :=
  RegFile.read_foldl_write_of_ne (x := .qp q r) (fun c hc => h c hc q) regs

theorem mem_of_lookup {α β : Type} [BEq α] [LawfulBEq α] {l : List (α × β)} {a : α} {b : β}
    (h : l.lookup a = some b) : (a, b) ∈ l := by
  obtain ⟨l₁, l₂, rfl, -⟩ := List.lookup_eq_some_iff.mp h
  exact List.mem_append_right _ List.mem_cons_self

/-- The write decoder does not reach the register. -/
theorem spares_decode (hr : ∀ e ∈ qpWriteTable, r ∉ e.2.1) (addr : BitVec 18) (data : BitVec 32)
    (strb : BitVec 4) : ∀ c ∈ (decode addr data strb).writes, Spares r c := by
  unfold decode
  split_ifs
  · unfold decodePd
    cases pdTable.lookup (addr.setWidth 8) with
    | none => simp [Decode.refused]
    | some e =>
      intro c hc
      rw [List.mem_singleton.mp hc]
      exact spares_of_region (by simp)
  · unfold decodeQp
    split_ifs
    · simp [Decode.refused]
    · cases hl : qpWriteTable.lookup (addr.setWidth 8) with
      | none => simp [Decode.refused]
      | some e =>
        intro c hc
        obtain ⟨r', hr', rfl⟩ := List.mem_map.mp hc
        refine spares_of_bramIdx fun heq => hr _ (mem_of_lookup hl) ?_
        rwa [← show r' = r from heq]
  · unfold decodeGlb
    cases glbWriteTable.lookup (addr.setWidth 9) with
    | some queued =>
      intro c hc
      rw [List.mem_singleton.mp hc]
      exact spares_of_region (by simp)
    | none =>
      simp only
      intro c hc
      split_ifs at hc
      · rw [List.mem_singleton.mp hc]
        exact spares_of_region (by simp)
      · simp at hc
      · simp [Decode.refused] at hc

/-- No write-back reaches a register that is not among theirs. -/
theorem spares_of_not_mem_wbRegs (hr : r ∉ wbRegs) (w : WbIn) (k : WbKind)
    (h : w.cmd k = some c) : Spares r c := by
  simp only [wbRegs, List.mem_cons, not_or] at hr
  obtain ⟨h0, h1, h2, h3, h4, h5, -⟩ := hr
  cases k <;> simp only [WbIn.cmd, Option.map_eq_some_iff] at h <;> obtain ⟨d, -, rfl⟩ := h
  · exact spares_of_bramIdx (Ne.symm h0)
  · exact spares_of_bramIdx (Ne.symm h1)
  · exact spares_of_bramIdx (Ne.symm h2)
  · exact spares_of_bramIdx (Ne.symm h3)
  · exact spares_of_bramIdx (Ne.symm h4)
  · exact spares_of_bramIdx (Ne.symm h5)
  all_goals exact spares_of_region (by simp [glbWb])

/-- No write-back reaches it. -/
theorem spares_cmd (hr : Unwritten r) (w : WbIn) (k : WbKind) (h : w.cmd k = some c) :
    Spares r c := spares_of_not_mem_wbRegs hr.2 w k h

end Spares

/-! ## Runs -/

/-- No command for the register is on its way, and it has its first value. -/
structure Kept (r : RegIdx) (regs : RegFile) (s : State) : Prop where
  slots : ∀ k, Spares r (s.port.slots k).cmd
  lWrCmd : Spares r s.port.lWrCmd
  qp : ∀ q, s.port.regs.qp q r = regs.qp q r

section Run

variable {r : RegIdx} {regs : RegFile} {s : State}

theorem kept_reset : Kept r regs (csr regs).reset where
  slots _ := spares_of_region (show (0 : BitVec 2) ≠ 2 by decide)
  lWrCmd := spares_of_region (show (0 : BitVec 2) ≠ 2 by decide)
  qp _ := rfl

theorem spares_capture {slot : Slot} {pulse : Option WrCmd} {ready : Bool}
    (hslot : Spares r slot.cmd) (hpulse : ∀ c ∈ pulse, Spares r c) :
    Spares r (slot.capture pulse ready).cmd := by
  unfold Slot.capture
  cases pulse with
  | some c => exact hpulse c rfl
  | none => split_ifs <;> exact hslot

/-- The port writes only in `L_WRITE`, and only the command it has latched. -/
theorem lStep_qp (p : Port) (i : RegisterPort.Input) (h : Spares r p.lWrCmd) (q : BitVec 8) :
    (lStep p i).regs.qp q r = p.regs.qp q r := by
  obtain ⟨p', hstep, hedge⟩ := exists_lEdge p i
  rw [hstep]
  cases hedge with
  | single =>
    rw [Port.regs_endAccess, Port.accessSingle]
    dsimp only
    split_ifs <;> rfl
  | multi =>
    rw [Port.regs_endAccess, Port.accessMulti]
    split_ifs <;> rfl
  | write =>
    rw [Port.regs_endAccess, Port.accessWrite]
    split_ifs
    · exact h.qp_write _ q
    · exact h.qp_write _ q
    · exact h.qp_write _ q
    · rfl
  | _ => rfl

/-- A latched command comes from a slot. -/
theorem lStep_lWrCmd (p : Port) (i : RegisterPort.Input) (h : Spares r p.lWrCmd)
    (hslots : ∀ k, Spares r (p.slots k).cmd) : Spares r (lStep p i).lWrCmd := by
  obtain ⟨p', hstep, hedge⟩ := exists_lEdge p i
  rw [hstep]
  cases hedge with
  | writeBack k => exact hslots k
  | single =>
    rw [Port.lWrCmd_endAccess, Port.accessSingle]
    dsimp only
    split_ifs <;> exact h
  | multi =>
    rw [Port.lWrCmd_endAccess, Port.accessMulti]
    split_ifs <;> exact h
  | write =>
    rw [Port.lWrCmd_endAccess, (Port.control_accessWrite p).2.1]
    exact h
  | _ => exact h

theorem Kept.step (hr : Unwritten r) (h : Kept r regs s) (e : Edge) :
    Kept r regs (Csr.step s e) := by
  cases e with
  | axil i =>
    refine ⟨h.slots, h.lWrCmd, fun q => ?_⟩
    refine Eq.trans (qp_foldl_write (fun c hc => ?_) _ q) (h.qp q)
    unfold Axil.ramWrites at hc
    split_ifs at hc
    · exact spares_decode hr.1 _ _ _ c hc
    · simp at hc
  | axis wires i =>
    refine ⟨fun k => spares_capture (h.slots k) fun c hc => spares_cmd hr _ k hc, ?_, fun q => ?_⟩
    · exact lStep_lWrCmd _ _ h.lWrCmd h.slots
    · exact (lStep_qp _ _ h.lWrCmd q).trans (h.qp q)

/-- **Registers without a writer.**  Whatever the host writes and the stack reports, such a
register has in every reachable state the value it came up with. -/
theorem qp_run_of_unwritten (hr : Unwritten r) (regs : RegFile) (es : List Edge) (q : BitVec 8) :
    ((csr regs).run es).port.regs.qp q r = regs.qp q r :=
  (Machine.always_of_step (P := Kept r regs) (fun _ e h => h.step hr e) kept_reset es).last.qp q

/-- The address is one of a queue pair, and the read decoder goes for the register. -/
def ReadsQp (a : BitVec 18) (q : BitVec 8) (r : RegIdx) : Prop :=
  ∀ regs, readValue regs a = regs.qp q r

/-- The host gets this value when it reads the register. -/
theorem rData_run_of_unwritten (hr : Unwritten r) (regs : RegFile) (es : List Edge)
    {a : BitVec 18} {q : BitVec 8} (ha : ReadsQp a q r)
    (hst : ((csr regs).run es).axil.rwState = .rValid)
    (haddr : ((csr regs).run es).axil.rAddr = a) :
    ((csr regs).run es).axil.rData = regs.qp q r := by
  have hrun : (csr regs).Always
      (fun s => Kept r regs s ∧ Reading a (regs.qp q r) s.axil) (csr regs).reset es := by
    refine Machine.always_of_step ?_ ⟨kept_reset, reading_reset _ _⟩ es
    rintro s e ⟨hkept, hread⟩
    refine ⟨hkept.step hr e, ?_⟩
    cases e with
    | axil i => exact hread.step ((ha _).trans (hkept.qp q))
    | axis wires i => exact hread
  exact hrun.last.2.valid hst haddr

end Run

end Csr
end RecoNIC
