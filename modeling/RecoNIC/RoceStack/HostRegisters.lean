import RecoNIC.RoceStack.Csr

/-!
# The registers that are the host's

Most of the registers have one writer, the host: no write-back of the stack goes to them.  Such a
register holds what the writes of the host, one after the other, make of it, whatever the stack
reads and writes back meanwhile and whichever clock comes first (`read_hosted_run`).
-/

namespace RecoNIC
namespace HostRegisters

open Synchronous AxilPort RegisterPort Csr
open RegisterPort hiding step

/-- No write-back reaches the register. -/
def HostOnly (x : RegFile.Cell) : Prop :=
  ∀ (w : WbIn) (k : WbKind) (c : WrCmd), w.cmd k = some c → RegFile.target c ≠ some x

theorem hostOnly_qp {r : RegIdx} (hr : r ∉ wbRegs) (q : BitVec 8) : HostOnly (.qp q r) :=
  fun w k _ h => spares_of_not_mem_wbRegs hr w k h q

theorem hostOnly_pd (e : BitVec 8) (r : RegIdx) : HostOnly (.pd e r) := by
  intro w k c h
  cases k <;> simp only [WbIn.cmd, Option.map_eq_some_iff] at h <;> obtain ⟨d, -, rfl⟩ := h <;>
    simp [RegFile.target, qpWb, glbWb]

/-- The global registers that are written back, by their word addresses. -/
def wbGlb : List (BitVec 8) := [0x40#8, 0x41#8, 0x47#8, 0x43#8, 0x42#8, 0x4E#8, 0x5F#8]

theorem hostOnly_glb {a : BitVec 8} (ha : a ∉ wbGlb) : HostOnly (.glb a) := by
  intro w k c h
  simp only [wbGlb, List.mem_cons, List.not_mem_nil, or_false, not_or] at ha
  cases k <;> simp only [WbIn.cmd, Option.map_eq_some_iff] at h <;> obtain ⟨d, -, rfl⟩ := h <;>
    simp [RegFile.target, qpWb, glbWb, eq_comm, ha]

/-! ## The writes of the host -/

/-- One edge in the list of the accepted writes. -/
def noteWrite (ws : List HostWrite) (s : Csr.State) : Csr.Edge → List HostWrite
  | .axil i => ws ++ (acceptedWrite s.axil i).toList
  | .axis _ _ => ws

/-- The registers with the writes that have been accepted. -/
def hosted (regs : RegFile) : Machine (Csr.State × List HostWrite) Csr.Edge :=
  Machine.watch (csr regs) [] noteWrite

/-- The contents with the write that `WRITE` makes. -/
def settled (s : Csr.State) : RegFile :=
  if s.axil.rwState = .write then applyWrite s.port.regs (s.axil.wAddr, s.axil.wData, s.axil.wStrb)
  else s.port.regs

/-- The invariant for a register: no write-back for it waits or is being made, and it holds what
the host has written. -/
structure Owned (regs₀ : RegFile) (x : RegFile.Cell) (s : Csr.State × List HostWrite) : Prop where
  slots : ∀ k, (s.1.port.slots k).valid = true → RegFile.target (s.1.port.slots k).cmd ≠ some x
  lWrCmd : s.1.port.lReg = .write → RegFile.target s.1.port.lWrCmd ≠ some x
  cell : (settled s.1).read x = (s.2.foldl applyWrite regs₀).read x

section Step

variable {regs₀ f g : RegFile} {x : RegFile.Cell} {s : Csr.State × List HostWrite} {p : Port}

/-- Each register goes its own way. -/
theorem read_applyWrite_congr (h : f.read x = g.read x) (w : HostWrite) :
    (applyWrite f w).read x = (applyWrite g w).read x := by
  obtain ⟨word, hword⟩ := decode_uniform w.1 w.2.1 w.2.2
  rw [applyWrite, applyWrite, RegFile.read_foldl_write hword, RegFile.read_foldl_write hword, h]

theorem read_foldl_applyWrite_congr (h : f.read x = g.read x) (ws : List HostWrite) :
    (ws.foldl applyWrite f).read x = (ws.foldl applyWrite g).read x := by
  induction ws generalizing f g with
  | nil => exact h
  | cons w ws ih => exact ih (read_applyWrite_congr h w)

/-- A command that is taken comes from a slot that is occupied. -/
theorem valid_of_pick {slots : WbKind → Slot} {i : RegisterPort.Input} {k : WbKind}
    (h : pick slots i = some (.wb k)) : (slots k).valid = true := by
  unfold pick at h
  split_ifs at h
  · simp at h
  · simp at h
  · simp at h
  · simp at h
  · obtain ⟨k', hk, hwb⟩ := Option.map_eq_some_iff.mp h
    cases hwb
    exact (List.find?_some hk :)

/-- The port writes only in `L_WRITE`, and only the command it has latched. -/
theorem lStep_read (i : RegisterPort.Input)
    (h : p.lReg = .write → RegFile.target p.lWrCmd ≠ some x) :
    (lStep p i).regs.read x = p.regs.read x := by
  obtain ⟨p', hstep, hedge⟩ := exists_lEdge p i
  rw [hstep]
  cases hedge with
  | single =>
    rw [Port.regs_endAccess, Port.accessSingle]
    dsimp only
    split_ifs <;> rfl
  | multi =>
    rw [Port.regs_endAccess, Port.accessMulti]
    split_ifs <;> rfl
  | write hst =>
    have hwrite := RegFile.read_write p.regs p.lWrCmd x
    rw [if_neg (h hst)] at hwrite
    rw [Port.regs_endAccess, Port.accessWrite]
    split_ifs
    · exact hwrite
    · exact hwrite
    · exact hwrite
    · rfl
  | _ => rfl

/-- A latched command comes from a slot. -/
theorem lStep_lWrCmd (i : RegisterPort.Input)
    (h : p.lReg = .write → RegFile.target p.lWrCmd ≠ some x)
    (hslots : ∀ k, (p.slots k).valid = true → RegFile.target (p.slots k).cmd ≠ some x)
    (hst : (lStep p i).lReg = .write) : RegFile.target (lStep p i).lWrCmd ≠ some x := by
  obtain ⟨p', hstep, hedge⟩ := exists_lEdge p i
  rw [hstep] at hst ⊢
  cases hedge with
  | stay => exact h hst
  | writeBack k hidle hk => exact hslots k (valid_of_pick hk)
  | start c =>
    rw [Port.lReg_startRead] at hst
    split_ifs at hst
  | single hs => simp [hs] at hst; split_ifs at hst
  | multi hs => simp [hs] at hst; split_ifs at hst
  | write hs =>
    rw [Port.lWrCmd_endAccess, (Port.control_accessWrite p).2.1]
    exact h hs
  | announce =>
    dsimp only at hst
    split_ifs at hst
  | _ => cases hst

theorem Owned.axil (h : Owned regs₀ x s) (i : AxilIn) :
    Owned regs₀ x (Csr.step s.1 (.axil i), noteWrite s.2 s.1 (.axil i)) := by
  refine ⟨h.slots, h.lWrCmd, ?_⟩
  have hstart : Written (settled s.1) ((s.1.axil, s.1.port.regs), []) := rfl
  have hnext : settled (Csr.step s.1 (.axil i)) =
      (acceptedWrite s.1.axil i).toList.foldl applyWrite (settled s.1) := written_step hstart
  show (settled (Csr.step s.1 (.axil i))).read x =
    ((s.2 ++ (acceptedWrite s.1.axil i).toList).foldl applyWrite regs₀).read x
  rw [hnext, List.foldl_append]
  exact read_foldl_applyWrite_congr h.cell _

theorem Owned.axis (hx : HostOnly x) (h : Owned regs₀ x s) (wires : AxilIn)
    (i : RegisterPort.Input) :
    Owned regs₀ x (Csr.step s.1 (.axis wires i), noteWrite s.2 s.1 (.axis wires i)) := by
  refine ⟨fun k hk => ?_, fun hst => ?_, ?_⟩
  · show RegFile.target ((s.1.port.slots k).capture (i.wb.cmd k) _).cmd ≠ some x
    have hvalid : ((s.1.port.slots k).capture (i.wb.cmd k) _).valid = true := hk
    unfold Slot.capture at hvalid ⊢
    cases hcmd : i.wb.cmd k with
    | some c => exact hx i.wb k c hcmd
    | none =>
      simp only [hcmd] at hvalid ⊢
      split_ifs at hvalid ⊢
      exact h.slots k hvalid
  · exact lStep_lWrCmd _ h.lWrCmd h.slots hst
  · refine Eq.trans ?_ h.cell
    have hport : (Csr.step s.1 (.axis wires i)).port.regs.read x = s.1.port.regs.read x :=
      lStep_read _ h.lWrCmd
    by_cases hwrite : s.1.axil.rwState = .write
    · have hnext : settled (Csr.step s.1 (.axis wires i)) = _ := if_pos hwrite
      have hnow : settled s.1 = _ := if_pos hwrite
      rw [hnext, hnow]
      exact read_applyWrite_congr hport _
    · have hnext : settled (Csr.step s.1 (.axis wires i)) = _ := if_neg hwrite
      have hnow : settled s.1 = _ := if_neg hwrite
      rw [hnext, hnow]
      exact hport

end Step

theorem owned_hosted_reset (regs : RegFile) (x : RegFile.Cell) :
    Owned regs x (hosted regs).reset := ⟨nofun, nofun, rfl⟩

/-- **The host's registers.**  In any run of the two sides, with any order of their edges, a
register that is not written back holds what the accepted writes make of it. -/
theorem read_hosted_run {x : RegFile.Cell} (hx : HostOnly x) (regs : RegFile)
    (es : List Csr.Edge) (hst : ((hosted regs).run es).1.axil.rwState ≠ .write) :
    ((hosted regs).run es).1.port.regs.read x =
      (((hosted regs).run es).2.foldl applyWrite regs).read x := by
  have hrun : (hosted regs).Always (Owned regs x) (hosted regs).reset es := by
    refine Machine.always_of_step (fun s e h => ?_) (owned_hosted_reset regs x) es
    cases e with
    | axil i => exact h.axil i
    | axis wires i => exact h.axis hx wires i
  have hlast : Owned regs x ((hosted regs).run es) := hrun.last
  have hsettled : settled ((hosted regs).run es).1 = _ := if_neg hst
  rw [← hsettled]
  exact hlast.cell

end HostRegisters
end RecoNIC
