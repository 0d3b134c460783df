import Mathlib.Data.List.Chain
import RecoNIC.RoceStack.Settled
import RecoNIC.RoceStack.Vtp
import RecoNIC.RoceStack.WqLedger

/-!
# The packet sequence number of an element

Before an element is issued the `QP_*` machine hands the stack a context for its queue pair,
and with it the packet sequence number to start at.  The number is `SQPSNi`, read through
the register port; the stack writes it back after its packets, through a slot of the same
port, and `L_IDLE` prefers the read.

`settled` of `Settled` is the number once the waiting write-back has landed, so the number
that is read is fresh if nothing for the queue pair waits in the slot.  What is left is to
follow the read: `reading` says that a read under the tag `NUM_QP_REGS` is the one the
`QP_*` machine asks for, and the coupling of `Handover` keeps the element in place
meanwhile.
-/

namespace RecoNIC
namespace SendPsn

open Synchronous WqManager
open RegisterPort hiding Input step note Ledger Ledger.empty

/-! ## The composition -/

/-- What a lookup machine asks the port for. -/
inductive Ask where
  | qp (qpn : BitVec 16)
  | pd (pdidx : BitVec 24)

/-- The read command. -/
def Ask.cmd : Ask → RdCmd
  | .qp qpn => Vtp.qpCmd qpn
  | .pd pdidx => Vtp.pdCmd pdidx

/-- The work-queue manager and the register port. -/
structure State where
  wq : WqManager.State
  port : Port

/-- The inputs of one cycle.  Of `wq` and `wb` the wires between the two are not read. -/
structure Input where
  wq : WqManager.Input
  writing : Bool
  portA : List WrCmd
  cmdFifoEmpty : Bool
  cmdFifoOut : Option AxilCmd
  findPdRd : Option Ask
  findPdWr : Option Ask
  wb : WbIn

variable (s : State) (i : Input)

/-- The inputs of the work-queue manager.  The addresses of the connection, whose bytes the
wrapper swaps, stay inputs. -/
def wqIn : WqManager.Input :=
  let row := s.port.qpRdRegQ
  { i.wq with
    qpIdx := s.port.qpIdx
    connConfigured := s.port.connConfigured
    qpConfigured := s.port.qpConfigured
    sqUpdated := s.port.sqUpdated
    conf := s.port.conf
    qpConf := row qpconfiIdx
    destQpConf := (row destqpconfiIdx).setWidth 24
    sqPsn := (row sqpsniIdx).setWidth 24
    lstRqReq := row lstrqreqiIdx
    sqBa := row sqbamsbiIdx ++ row sqbaiIdx
    cqBa := row cqbamsbiIdx ++ row cqbaiIdx
    sqPi := row sqpiiIdx
    cqHead := row cqheadiIdx
    rdQpReady := s.port.rdQpReady }

/-- The inputs of the port. -/
def portIn : RegisterPort.Input where
  writing := i.writing
  portA := i.portA
  cmdFifoEmpty := i.cmdFifoEmpty
  cmdFifoOut := i.cmdFifoOut
  rdQp := s.wq.rdQpOut
  findPdRd := i.findPdRd.map Ask.cmd
  findPdWr := i.findPdWr.map Ask.cmd
  wb := { i.wb with cqheadi := s.wq.wbCqhead.map fun d => d.1 ++ d.2 }

/-- One clock edge. -/
def step : State := ⟨s.wq.step (wqIn s i), RegisterPort.step s.port (portIn s i)⟩

/-- Both after reset, over any register contents. -/
def reset (regs : RegFile) : State := ⟨WqManager.State.reset, Port.reset regs⟩

/-! ## The ledger -/

/-- What the stack has reported for one queue pair, and what it was handed. -/
structure Ledger where
  /-- The last number under `WB_SQPSNi`, or the configured one. -/
  last : BitVec 24
  /-- The numbers of the updates that were handed over, the last one first. -/
  updates : List (BitVec 24)
  /-- Between any two of them the stack has reported another number. -/
  moved : Bool

/-- The context for an element of `q` is offered to the stack. -/
def Offered (q : BitVec 8) (s : State) : Prop :=
  s.wq.qp.st = .sqValid ∧ s.wq.sq.output.sqIdx = q

instance (q : BitVec 8) (s : State) : Decidable (Offered q s) :=
  inferInstanceAs (Decidable (_ ∧ _))

/-- What the stack reports for `q` in a cycle. -/
def report (q : BitVec 8) (i : Input) : Option (BitVec 24) :=
  i.wb.sqpsni.bind fun d => if d.extractLsb' 24 8 = q then some (d.setWidth 24) else none

/-- One cycle in the ledger of the queue pair `q`. -/
def note (q : BitVec 8) (l : Ledger) (s : State) (i : Input) : Ledger :=
  let handed := decide (Offered q s) && i.wq.qpReady
  { last := (report q i).getD l.last
    updates := if handed then s.wq.qp.ctx.localPsn :: l.updates else l.updates
    moved := if handed then l.moved && decide (l.updates.head? ≠ some l.last) else l.moved }

/-- The composition with its ledger. -/
def sending (q : BitVec 8) (regs : RegFile) : Machine (State × Ledger) Input :=
  Machine.watch ⟨reset regs, step⟩ ⟨(regs.qp q sqpsniIdx).setWidth 24, [], true⟩ (note q)

@[simp] theorem sending_step (q : BitVec 8) (regs : RegFile) (s : State × Ledger) (i : Input) :
    (sending q regs).step s i = (step s.1 i, note q s.2 s.1 i) := rfl

/-- **The number is fresh.**  The context for an element of `q` has the last number that the
stack has reported for `q`.  So two updates in a row have different numbers if the stack has
reported another number in between. -/
structure Fresh (q : BitVec 8) (s : State × Ledger) : Prop where
  offered : Offered q s.1 → s.1.wq.qp.ctx.localPsn = s.2.last
  noReuse : s.2.moved = true → s.2.updates.IsChain (· ≠ ·)

/-! ## What must not happen -/

/-- The port announces the row of `q` to the `QP_*` machine. -/
def Announced (q : BitVec 8) (s : State) : Prop :=
  s.port.rdQpReady = true ∧ s.port.lRdCmd.address = q

instance (q : BitVec 8) (s : State) : Decidable (Announced q s) :=
  inferInstanceAs (Decidable (_ ∧ _))

/-- A cycle in which no write-back is overtaken by a read. -/
structure Orderly (q : BitVec 8) (s : State) (i : Input) : Prop where
  /-- No report for another queue pair takes the slot. -/
  kept : Kept s.port (portIn s i) .sqpsni q
  /-- The row was read after the last write-back. -/
  current : Announced q s → ¬ s.port.Holds .sqpsni q
  /-- No report comes between the announcement and the end of the hand-over. -/
  quiet : Announced q s ∨ (Offered q s ∧ i.wq.qpReady = false) → report q i = none
  /-- The AXI-Lite side leaves the register alone. -/
  untouched : Untouched (portIn s i) q sqpsniIdx

/-! ## The write-back -/

section WriteBack

variable {q : BitVec 8} {s : State} {i : Input} {l : Ledger}

/-- The three bytes of a report replace the three bytes of the register. -/
theorem setWidth_mergeBytes (old : BitVec 32) (d : BitVec 24) :
    (mergeBytes old 0b0111 (d.setWidth 32)).setWidth 24 = d := by
  have hmask : ∀ j < 24, (strobeMask 0b0111#4).getLsbD j = true := by decide
  ext j hj
  simp [mergeBytes, hmask j hj]

/-- A report lands in the register of its queue pair. -/
theorem setWidth_after (a : BitVec 8) (d : BitVec 24) (old : BitVec 32) :
    (after (qpWb sqpsniIdx a 0b0111 (d.setWidth 32)) q sqpsniIdx old).setWidth 24 =
      if a = q then d else old.setWidth 24 := by
  by_cases ha : a = q
  · rw [if_pos ha, after, if_pos ⟨rfl, ha.symm, rfl⟩]
    exact setWidth_mergeBytes old d
  · rw [if_neg ha, after_of_not_hits fun hhits => ha hhits.2.1.symm]

/-- **What a cycle does to the number that will be read.**  A report replaces it, and nothing
else does. -/
theorem psn_step (howned : Owned s.port)
    (hpsn : (s.port.settled .sqpsni q).setWidth 24 = l.last) (ho : Orderly q s i) :
    ((step s i).port.settled .sqpsni q).setWidth 24 = (note q l s i).last := by
  have hstep := settled_step (by decide) howned ho.untouched ho.kept
  have hport : (step s i).port = RegisterPort.step s.port (portIn s i) := rfl
  have hcmd : (portIn s i).wb.cmd .sqpsni = i.wb.sqpsni.map fun d =>
      qpWb sqpsniIdx (d.extractLsb' 24 8) 0b0111 ((d.setWidth 24).setWidth 32) := rfl
  rw [hport, hstep, hcmd]
  cases hd : i.wb.sqpsni with
  | none => simpa [note, report, hd] using hpsn
  | some d =>
    have hafter := setWidth_after (q := q) (d.extractLsb' 24 8) (d.setWidth 24)
      (s.port.settled .sqpsni q)
    simp only [Option.map_some]
    refine hafter.trans ?_
    by_cases ha : d.extractLsb' 24 8 = q <;> simp [note, report, hd, ha, hpsn]

end WriteBack

/-! ## The read -/

/-- The port works on a read command, or announces its row. -/
def reading (s : Port) : Prop :=
  s.lReg = .readSingle ∨ s.lReg = .readMulti ∨ s.lReg = .readReady

/-- No command of the AXI-Lite side has the tag of the work-queue manager. -/
theorem toRdCmd_ne (c : AxilCmd) : c.toRdCmd.bramIdx ≠ numQpRegs := by
  cases c with
  | pdpdnum a => exact (by decide : pdpdnumIdx ≠ numQpRegs)
  | qp event a =>
    have hidx : event.idx ≠ numQpRegs := by cases event <;> decide
    exact hidx
  | glb a => exact (by decide : (0 : RegIdx) ≠ numQpRegs)

theorem cmd_ne (c : Ask) : c.cmd.bramIdx ≠ numQpRegs := by
  cases c <;> exact (by decide : pdnumiIdx ≠ numQpRegs)

/-- A read under the tag of the work-queue manager is one it asks for, or goes on. -/
theorem reading_of_step {s : Port} {i : RegisterPort.Input}
    (hrd : ∀ c ∈ i.findPdRd, c.bramIdx ≠ numQpRegs)
    (hwr : ∀ c ∈ i.findPdWr, c.bramIdx ≠ numQpRegs)
    (hread : reading (RegisterPort.step s i))
    (htag : (RegisterPort.step s i).lRdCmd.bramIdx = numQpRegs) :
    (s.lReg = .idle ∧ i.rdQp = some (RegisterPort.step s i).lRdCmd) ∨
      (reading s ∧ s.lReg ≠ .readReady ∧ (RegisterPort.step s i).lRdCmd = s.lRdCmd) := by
  have hlReg : (RegisterPort.step s i).lReg = (lStep (s.afterPortA i) i).lReg := rfl
  have hcmd : (RegisterPort.step s i).lRdCmd = (lStep (s.afterPortA i) i).lRdCmd := rfl
  rw [reading, hlReg] at hread
  rw [hcmd] at htag ⊢
  obtain ⟨s', hstep, hedge⟩ := exists_lEdge (s.afterPortA i) i
  rw [hstep] at hread htag ⊢
  cases hedge with
  | stay hs =>
    rw [Port.afterPortA_lReg] at hs
    rcases hs with hs | hs <;> simp [hs] at hread
  | cmdFifo => simp at hread
  | start c hs hc =>
    rcases hc with ⟨hidle, hp⟩ | ⟨a, -, rfl⟩
    · rcases asked_of_pick_read i hp with hq | hr | hw
      · exact Or.inl ⟨hidle, hq⟩
      · exact absurd htag (hrd c hr)
      · exact absurd htag (hwr c hw)
    · exact absurd htag (toRdCmd_ne a)
  | writeBack k => simp at hread
  | single hs =>
    rw [Port.afterPortA_lReg] at hs
    exact Or.inr ⟨Or.inl hs, by simp [hs], by simp⟩
  | multi hs =>
    rw [Port.afterPortA_lReg] at hs
    exact Or.inr ⟨Or.inr (Or.inl hs), by simp [hs], by simp⟩
  | write hs =>
    rw [Port.afterPortA_lReg] at hs
    rw [Port.lReg_endAccess] at hread
    split_ifs at hread <;> simp [hs] at hread
  | announce =>
    dsimp only at hread
    split_ifs at hread <;> simp at hread
  | rest => simp at hread

/-! ## Asking for a row -/

/-- A read under the tag of the work-queue manager is for the element that is being
served. -/
structure Asking (s : State) : Prop where
  coupled : Coupled s.wq
  rdQp : s.wq.qp.st.serving = true → s.wq.qp.rdQp = rdQpCmd s.wq.sq.output.sqIdx
  asked : reading s.port → s.port.lRdCmd.bramIdx = numQpRegs →
    s.wq.qp.st = .sqRdQp ∧ s.port.lRdCmd = s.wq.qp.rdQp

theorem asking_reset (regs : RegFile) : Asking (reset regs) where
  coupled := coupled_reset
  rdQp h := nomatch h
  asked h := by rcases h with h | h | h <;> cases h

section Asking

variable {s : State} {i : Input}

/-- The `QP_*` machine asks for the row of the element it takes, and keeps asking for it. -/
theorem rdQp_qpStep {w : WqManager.State} {j : WqManager.Input}
    (h : (w.qpStep j).st.serving = true) :
    (w.newWqeFetchedAck j = true ∧ (w.qpStep j).rdQp = rdQpCmd w.sq.output.sqIdx) ∨
      (w.qp.st.serving = true ∧ (w.qpStep j).rdQp = w.qp.rdQp) := by
  rcases (w.serving_qpStep_iff j).mp h with hnew | ⟨hold, -⟩
  · refine Or.inl ⟨hnew, ?_⟩
    simp only [WqManager.State.newWqeFetchedAck, Bool.and_eq_true, beq_iff_eq,
      Bool.not_eq_true'] at hnew
    obtain ⟨⟨hidle, hconf⟩, hnew⟩ := hnew
    simp [WqManager.State.qpStep, hidle, hconf, hnew, rdQpCmd]
  · refine Or.inr ⟨hold, ?_⟩
    cases hst : w.qp.st with
    | sqRdQp =>
      simp only [WqManager.State.qpStep, hst]
      split_ifs <;> rfl
    | sqValid =>
      simp only [WqManager.State.qpStep, hst]
      split_ifs <;> rfl
    | sqDone =>
      simp only [WqManager.State.qpStep, hst]
      split_ifs <;> rfl
    | idle => simp [hst, QpState.serving] at hold
    | valid => simp [hst, QpState.serving] at hold
    | ifValid => simp [hst, QpState.serving] at hold

/-- The element that is being served stays where it is. -/
theorem Asking.sqIdx_step (h : Asking s) (hserve : (step s i).wq.qp.st.serving = true) :
    (step s i).wq.sq.output.sqIdx = s.wq.sq.output.sqIdx := by
  have hwait : s.wq.sq.st = .waitQp := by
    rcases (s.wq.serving_qpStep_iff (wqIn s i)).mp hserve with hnew | ⟨hold, -⟩
    · exact (h.coupled.ack_iff hnew).2.1
    · exact h.coupled.serving hold
  exact congrArg SQdata.sqIdx
    (s.wq.output_sqStep (wqIn s i) (by simp [hwait]) (by simp [hwait]))

theorem Asking.step_rdQp (h : Asking s) (hserve : (step s i).wq.qp.st.serving = true) :
    (step s i).wq.qp.rdQp = rdQpCmd (step s i).wq.sq.output.sqIdx := by
  rw [h.sqIdx_step hserve]
  rcases rdQp_qpStep (j := wqIn s i) hserve with ⟨-, hnew⟩ | ⟨hold, hsame⟩
  · exact hnew
  · exact hsame.trans (h.rdQp hold)

/-- The `QP_*` machine waits for the row while the port has not announced it. -/
theorem waits_step (hst : s.wq.qp.st = .sqRdQp) (hready : s.port.rdQpReady = false) :
    (step s i).wq.qp.st = .sqRdQp ∧ (step s i).wq.qp.rdQp = s.wq.qp.rdQp := by
  have hin : (wqIn s i).rdQpReady = false := hready
  simp [step, WqManager.State.step, WqManager.State.qpStep, hst, hin]

theorem Asking.step_asked (h : Asking s) (hread : reading (step s i).port)
    (htag : (step s i).port.lRdCmd.bramIdx = numQpRegs) :
    (step s i).wq.qp.st = .sqRdQp ∧ (step s i).port.lRdCmd = (step s i).wq.qp.rdQp := by
  have hask : ∀ o : Option Ask, ∀ c ∈ o.map Ask.cmd, c.bramIdx ≠ numQpRegs := by
    intro o c hc
    obtain ⟨a, -, rfl⟩ := Option.map_eq_some_iff.mp hc
    exact cmd_ne a
  rcases reading_of_step (hask i.findPdRd) (hask i.findPdWr) hread htag with
    ⟨hidle, hrd⟩ | ⟨hold, hnot, hcmd⟩
  · -- the port has just taken the command of the `QP_*` machine
    have hrd' : s.wq.rdQpOut = some (step s i).port.lRdCmd := hrd
    rw [WqManager.State.rdQpOut] at hrd'
    split_ifs at hrd' with hst
    obtain ⟨hst', hrdQp⟩ := waits_step (i := i) hst (by simp [Port.rdQpReady, hidle])
    exact ⟨hst', by rw [hrdQp]; exact (Option.some.inj hrd').symm⟩
  · have hcmd' : (step s i).port.lRdCmd = s.port.lRdCmd := hcmd
    rw [hcmd'] at htag ⊢
    obtain ⟨hst, hown⟩ := h.asked hold htag
    obtain ⟨hst', hrdQp⟩ := waits_step (i := i) hst (by simp [Port.rdQpReady, hnot])
    exact ⟨hst', hown.trans hrdQp.symm⟩

theorem Asking.step (h : Asking s) : Asking (SendPsn.step s i) :=
  ⟨h.coupled.step, h.step_rdQp, h.step_asked⟩

/-- The row that is announced is the one the `QP_*` machine has asked for. -/
theorem Asking.announced (h : Asking s) (hready : s.port.rdQpReady = true) :
    s.port.lReg = .readReady ∧ s.port.lRdCmd = rdQpCmd s.wq.sq.output.sqIdx := by
  simp only [Port.rdQpReady, Bool.and_eq_true, beq_iff_eq] at hready
  obtain ⟨⟨hlReg, -⟩, htag⟩ := hready
  obtain ⟨hst, hown⟩ := h.asked (Or.inr (Or.inr hlReg)) htag
  exact ⟨hlReg, hown.trans (h.rdQp (by simp [hst, QpState.serving]))⟩

end Asking

/-! ## The invariant -/

/-- **The invariant.**  The number that will be read is the one that was reported, and a
read under the tag of the work-queue manager is for the element that is being served. -/
structure Inv (q : BitVec 8) (s : State × Ledger) : Prop where
  owned : Owned s.1.port
  rows : Rows q sqpsniIdx s.1.port
  psn : (s.1.port.settled .sqpsni q).setWidth 24 = s.2.last
  asking : Asking s.1
  fresh : Fresh q s

section Step

variable {q : BitVec 8} {s : State} {i : Input} {l : Ledger}

/-- A context is offered when its row has been announced, or has been offered before. -/
theorem offered_of_step (h : Inv q (s, l)) (hoffered : Offered q (step s i)) :
    (Announced q s ∧ (step s i).wq.qp.ctx.localPsn =
        (s.port.qpRdRegQ sqpsniIdx).setWidth 24) ∨
      ((Offered q s ∧ i.wq.qpReady = false) ∧
        (step s i).wq.qp.ctx.localPsn = s.wq.qp.ctx.localPsn) := by
  obtain ⟨hst, hidx⟩ := hoffered
  have hidx' : s.wq.sq.output.sqIdx = q := by
    rw [← hidx, h.asking.sqIdx_step (by simp [hst, QpState.serving])]
  have hqp : (step s i).wq.qp = s.wq.qpStep (wqIn s i) := rfl
  rw [hqp] at hst ⊢
  rcases s.wq.of_qpStep_sqValid (wqIn s i) hst with ⟨-, hready, hctx⟩ | ⟨hold, hready, hctx⟩
  · refine Or.inl ⟨⟨hready, ?_⟩, by rw [hctx]; rfl⟩
    rw [(h.asking.announced hready).2, rdQpCmd, hidx']
  · exact Or.inr ⟨⟨⟨hold, hidx'⟩, hready⟩, by rw [hctx]⟩

theorem Inv.step_offered (h : Inv q (s, l)) (ho : Orderly q s i)
    (hoffered : Offered q (step s i)) :
    (step s i).wq.qp.ctx.localPsn = (note q l s i).last := by
  rcases offered_of_step h hoffered with ⟨hann, hpsn⟩ | ⟨hold, hpsn⟩
  · have hlast : (note q l s i).last = l.last := by
      rw [note, ho.quiet (Or.inl hann)]
      rfl
    obtain ⟨hlReg, hown⟩ := h.asking.announced hann.1
    have hcmd : s.port.lRdCmd.readAll = true ∧ s.port.lRdCmd.region = 2 := by
      rw [hown]
      exact ⟨rfl, rfl⟩
    have hrow := (h.rows.settled (k := .sqpsni) (by decide) h.owned hlReg hcmd hann.2
      (ho.current hann)).2
    rw [hpsn, hlast, ← h.psn]
    exact congrArg (BitVec.setWidth 24) hrow
  · have hlast : (note q l s i).last = l.last := by
      rw [note, ho.quiet (Or.inr hold)]
      rfl
    rw [hpsn, hlast]
    exact h.fresh.offered hold.1

theorem Inv.step_noReuse (h : Inv q (s, l)) (hmoved : (note q l s i).moved = true) :
    (note q l s i).updates.IsChain (· ≠ ·) := by
  cases hhanded : decide (Offered q s) && i.wq.qpReady with
  | false =>
    simp only [note, hhanded, if_false, Bool.false_eq_true] at hmoved ⊢
    exact h.fresh.noReuse hmoved
  | true =>
    simp only [note, hhanded, if_true, Bool.and_eq_true, decide_eq_true_eq] at hmoved ⊢
    have hpsn : s.wq.qp.ctx.localPsn = l.last :=
      h.fresh.offered (of_decide_eq_true (Bool.and_eq_true_iff.mp hhanded).1)
    have hchain : l.updates.IsChain (· ≠ ·) := h.fresh.noReuse hmoved.1
    rw [hpsn]
    cases hup : l.updates with
    | nil => exact .singleton _
    | cons u us =>
      rw [hup] at hchain hmoved
      exact .cons_cons (fun heq => hmoved.2 (congrArg some heq.symm)) hchain

theorem Inv.step (h : Inv q (s, l)) (ho : Orderly q s i) :
    Inv q (SendPsn.step s i, note q l s i) where
  owned := h.owned.step
  rows := h.rows.step ho.untouched
  psn := psn_step h.owned h.psn ho
  asking := h.asking.step
  fresh := ⟨h.step_offered ho, h.step_noReuse⟩

theorem inv_reset (q : BitVec 8) (regs : RegFile) : Inv q (sending q regs).reset where
  owned := owned_reset regs
  rows := rows_reset regs
  psn := rfl
  asking := asking_reset regs
  fresh := ⟨fun h => (nomatch h.1), fun _ => List.IsChain.nil⟩

/-- **The number is fresh.**  For every queue pair and any register contents, in every
orderly run of the work-queue manager and the register port: the context that is offered to
the stack for an element of `q` has the last number that the stack has reported for `q`, or
the configured one, and no two updates in a row have the same number as long as the stack
has reported another one in between. -/
theorem psn_fresh_run (q : BitVec 8) (regs : RegFile) (is : List Input)
    (hrun : (sending q regs).Guarded (fun s i => Orderly q s.1 i) (sending q regs).reset is) :
    (sending q regs).Always (Fresh q) (sending q regs).reset is :=
  (Machine.always_of_guarded (fun _ _ hs ho => hs.step ho) (inv_reset q regs) hrun).mono
    fun _ hs => hs.fresh

end Step

/-! ### Two elements -/

instance (q : BitVec 8) (s : State) (i : Input) : Decidable (Orderly q s i) :=
  decidable_of_iff
    (Kept s.port (portIn s i) .sqpsni q ∧ (Announced q s → ¬ s.port.Holds .sqpsni q) ∧
      (Announced q s ∨ (Offered q s ∧ i.wq.qpReady = false) → report q i = none) ∧
      Untouched (portIn s i) q sqpsniIdx)
    ⟨fun h => ⟨h.1, h.2.1, h.2.2.1, h.2.2.2⟩,
      fun h => ⟨h.kept, h.current, h.quiet, h.untouched⟩⟩

/-- The queue pair 1 is enabled, its first packet has the number 100, and two elements
wait. -/
def twoElements : RegFile :=
  { RegFile.zero with
    qp := fun q reg =>
      if q = 1 then
        if reg = qpconfiIdx then 1
        else if reg = sqpiiIdx then 2
        else if reg = sqpsniIdx then 100
        else 0
      else 0 }

/-- Memory and stack are ready, and an element that is read is a write. -/
def idle (writing : Bool) : Input where
  wq := ⟨0, false, false, false, 0, 0, 0, 0, 0, 0, 0, 0, 0, 0, 0, false, true, true, true, none,
    true, true, true, true, some (0, true), false⟩
  writing := writing
  portA := []
  cmdFifoEmpty := true
  cmdFifoOut := none
  findPdRd := none
  findPdWr := none
  wb := WbIn.none

/-- The queue pair 1 rings its doorbell and the first element is handed over.  The stack
reports 101, then the element is acknowledged, and the second one is handed over; `writing`
says whether an AXI-Lite write is under way from the report to the read. -/
def bothElements (writing : Bool) : List Input :=
  [{ idle false with cmdFifoEmpty := false },
    { idle false with cmdFifoOut := some (.qp .sqpii 1) }] ++
  List.replicate 21 (idle false) ++
  [{ idle writing with wb := { WbIn.none with sqpsni := some 0x1000065 } },
    { idle writing with
      wq := { (idle writing).wq with ack := some { (default : Ack) with qpNum := 1 } } }] ++
  List.replicate 12 (idle writing) ++ List.replicate 5 (idle false)

theorem fresh_bothElements :
    (sending 1 twoElements).Always (Fresh 1) (sending 1 twoElements).reset (bothElements false) :=
  psn_fresh_run 1 twoElements (bothElements false) (by decide +kernel)

/-- The read overtakes the write-back, and both elements start at 100. -/
theorem overtaken_not_fresh :
    ((sending 1 twoElements).run (bothElements true)).2.last = 101 ∧
    ((sending 1 twoElements).run (bothElements true)).2.updates = [100, 100] ∧
    ¬ (sending 1 twoElements).Always (Fresh 1) (sending 1 twoElements).reset
      (bothElements true) := by
  have hupdates : ((sending 1 twoElements).run (bothElements true)).2.updates = [100, 100] := by
    decide +kernel
  refine ⟨by decide +kernel, hupdates, fun h => ?_⟩
  have hchain : ((sending 1 twoElements).run (bothElements true)).2.updates.IsChain (· ≠ ·) :=
    h.last.noReuse (by decide +kernel)
  rw [hupdates] at hchain
  simp at hchain

end SendPsn
end RecoNIC
