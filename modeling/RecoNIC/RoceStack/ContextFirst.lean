import RecoNIC.RoceStack.Segmentation
import RecoNIC.RoceStack.SendPsn

/-!
# The context before the request

The stack takes the remote address and the key of a message from the last context it was
handed for the queue pair.  The work-queue manager reads the row of the queue pair through
the register port, hands over a context with the address and the key of the element, and
issues the requests of the element afterwards.  That it is afterwards, and that the context
is not the one of the element before, is left to the flags between the three machines.

The ledger has the element that was fetched last and the contexts that the stack has taken
since.  `context_first_run` says that whenever a request is on the interface, one of them is
for its element, and is the last one for the queue pair unless the host has configured the
queue pair in between.
-/

namespace RecoNIC
namespace ContextFirst

open Synchronous
open WqManager hiding State Input Ledger Indexed
open RegisterPort hiding Input step note Ledger Ledger.empty
open SendPsn hiding Ledger note Inv

/-! ## The label of a row -/

/-- While a whole row of a queue pair is announced, `QPidx_o` is the queue pair. -/
structure Labelled (s : Port) : Prop where
  single : s.lReg = .readSingle → s.lRdCmd.readAll = false
  label : s.lReg = .readReady → s.lRdCmd.readAll = true → s.lRdCmd.region = 2 →
    s.qpIdx = s.lRdCmd.address

section Labelled

variable {s : Port} {i : RegisterPort.Input}

theorem Labelled.of_control (hsingle : s.lReg ≠ .readSingle) (hready : s.lReg ≠ .readReady) :
    Labelled s :=
  ⟨fun h => absurd h hsingle, fun h => absurd h hready⟩

theorem Labelled.lStep (h : Labelled s) : Labelled (lStep s i) := by
  obtain ⟨s', hstep, hedge⟩ := exists_lEdge s i
  rw [hstep]
  cases hedge with
  | stay => exact h
  | cmdFifo => exact .of_control (by simp) (by simp)
  | start c =>
    constructor
    · intro hs
      cases hall : c.readAll <;> simp [hall] at hs ⊢
    · intro hs
      cases hall : c.readAll <;> simp [hall] at hs
  | writeBack => exact .of_control (by simp) (by simp)
  | single hs =>
    have hall := h.single hs
    constructor
    · intro _
      simpa using hall
    · intro _ hno
      simp [hall] at hno
  | multi hs =>
    constructor
    · intro hs'
      rw [Port.lReg_endAccess] at hs'
      split_ifs at hs'
      simp [hs] at hs'
    · intro _ _ hregion
      simp only [Port.lRdCmd_endAccess, Port.control_accessMulti] at hregion ⊢
      rw [Port.qpIdx_endAccess]
      simp [Port.accessMulti, hregion]
  | write hs =>
    refine .of_control ?_ ?_ <;> rw [Port.lReg_endAccess] <;> split_ifs <;> simp [hs]
  | announce => refine .of_control ?_ ?_ <;> dsimp only <;> split_ifs <;> simp
  | rest => exact .of_control (by simp) (by simp)

theorem Labelled.step (h : Labelled s) : Labelled (RegisterPort.step s i) := by
  have hA : Labelled (s.afterPortA i) := ⟨h.single, h.label⟩
  have hL := hA.lStep (i := i)
  exact ⟨hL.single, hL.label⟩

theorem labelled_reset (regs : RegFile) : Labelled (Port.reset regs) :=
  .of_control nofun nofun

end Labelled

/-! ## The ledger -/

/-- The element that was fetched last, with its queue pair, and what has happened since. -/
structure Ledger where
  fetched : Option (BitVec 8 × BitVec 512)
  /-- The contexts the stack has taken, the last one first. -/
  accepted : List RdmaQpCtx
  /-- The queue pairs of the pulses `qp_configured_i`. -/
  pulses : List (BitVec 8)

/-- The element that arrives with the last beat of a read. -/
def fetches (w : WqManager.State) (i : WqManager.Input) : Option (BitVec 512) :=
  if w.ar.st = .reading then i.rData.bind fun d => if d.2 then some d.1 else none else none

/-- The context the stack takes, from `QP_VALID` or from `QP_SQ_VALID`. -/
def accepts (w : WqManager.State) (i : WqManager.Input) : List RdmaQpCtx :=
  if (w.qp.st = .valid ∨ w.qp.st = .sqValid) ∧ i.qpReady = true then [w.qp.ctx] else []

/-- The queue pair of a pulse. -/
def configures (i : WqManager.Input) : List (BitVec 8) :=
  if i.qpConfigured then [i.qpIdx] else []

/-- One cycle of the ledger. -/
def note (l : Ledger) (s : State) (i : Input) : Ledger :=
  match fetches s.wq (wqIn s i) with
  | some wqe => ⟨some (s.wq.sq.output.sqIdx, wqe), [], []⟩
  | none =>
    { l with
      accepted := accepts s.wq (wqIn s i) ++ l.accepted
      pulses := configures (wqIn s i) ++ l.pulses }

/-- The work-queue manager and the register port with this ledger. -/
def handing (regs : RegFile) : Machine (State × Ledger) Input :=
  Machine.watch ⟨reset regs, step⟩ ⟨none, [], []⟩ note

@[simp] theorem handing_step (regs : RegFile) (x : State × Ledger) (i : Input) :
    (handing regs).step x i = (step x.1 i, note x.2 x.1 i) := rfl

/-- The context of the queue pair `q` has the remote address and the key of the element. -/
structure Carries (q : BitVec 8) (wqe : BitVec 512) (c : RdmaQpCtx) : Prop where
  qpNum : c.qpNum = 0#16 ++ q
  vaddr : c.vaddr = SqIf.wqeRemote wqe
  rKey : c.rKey = wqe.extractLsb' 224 32

/-- The stack has taken the context of the element, and uses it for the queue pair unless a
pulse for it came in between. -/
structure Accepted (q : BitVec 8) (wqe : BitVec 512) (l : Ledger) : Prop where
  taken : ∃ c ∈ l.accepted, Carries q wqe c
  last : q ∉ l.pulses →
    ∃ c, l.accepted.find? (fun c => c.qpNum == 0#16 ++ q) = some c ∧ Carries q wqe c

/-- **The context comes first.**  A request on the interface is one for the element that was
fetched last, and the stack has taken the context of this element since. -/
def Prepared (x : State × Ledger) : Prop :=
  x.1.wq.sq.st = .valid → ∃ q wqe, x.2.fetched = some (q, wqe) ∧ x.1.wq.ar.wqe = wqe ∧
    x.1.wq.sq.req.req1.qpn = 0#8 ++ q ∧ Accepted q wqe x.2

/-! ## Taking a context -/

section Accepted

variable {q : BitVec 8} {wqe : BitVec 512} {l : Ledger} {cs : List RdmaQpCtx}
  {ps : List (BitVec 8)}

/-- The number of a queue pair on the register wires. -/
theorem append_inj {p q : BitVec 8} (h : 0#16 ++ p = 0#16 ++ q) : p = q := by
  refine BitVec.eq_of_getLsbD_eq fun k hk => ?_
  have hbit := congrArg (fun x => x.getLsbD k) h
  simp only [BitVec.getLsbD_append] at hbit
  rwa [if_pos hk, if_pos hk] at hbit

/-- It is taken. -/
theorem accepted_of_carries {c : RdmaQpCtx} (h : Carries q wqe c) (hc : l.accepted.head? = some c) :
    Accepted q wqe l := by
  obtain ⟨cs, hcs⟩ := List.head?_eq_some_iff.mp hc
  refine ⟨⟨c, by simp [hcs], h⟩, fun _ => ⟨c, ?_, h⟩⟩
  rw [hcs, List.find?_cons_of_pos (by simp [h.qpNum])]

/-- Contexts that come from pulses are for the queue pairs of the pulses. -/
theorem Accepted.append (h : Accepted q wqe l)
    (hcs : ∀ c ∈ cs, ∃ p ∈ l.pulses, c.qpNum = 0#16 ++ p) :
    Accepted q wqe { l with accepted := cs ++ l.accepted, pulses := ps ++ l.pulses } where
  taken := h.taken.imp fun c hc => ⟨List.mem_append_right _ hc.1, hc.2⟩
  last hq := by
    have hq' : q ∉ l.pulses := fun hmem => hq (List.mem_append_right _ hmem)
    have hnone : cs.find? (fun c => c.qpNum == 0#16 ++ q) = none := by
      rw [List.find?_eq_none]
      intro c hc heq
      obtain ⟨p, hp, hnum⟩ := hcs c hc
      rw [hnum, beq_iff_eq] at heq
      exact hq' (append_inj heq ▸ hp)
    show ∃ c, (cs ++ l.accepted).find? _ = some c ∧ Carries q wqe c
    rw [List.find?_append, hnone]
    exact h.last hq'

end Accepted

/-! ## Where the element is -/

/-- An element has been fetched, and its last request has not been taken. -/
def Has (w : WqManager.State) : Prop :=
  w.ar.st = .done ∨ w.qp.st.serving = true ∨ w.sq.st.issuing = true

/-- The `SQ_*` machine has it back, or is about to. -/
def Returned (w : WqManager.State) : Prop := w.qp.st = .sqDone ∨ w.sq.st.issuing = true

section Has

variable {w : WqManager.State} {j : WqManager.Input}

theorem ne_of_issuing {st : SqState} (h : st.issuing = true) :
    st ≠ .waitQp ∧ st ≠ .ifReady ∧ st ≠ .idle ∧ st ≠ .readCache := by
  refine ⟨?_, ?_, ?_, ?_⟩ <;> rintro rfl <;> cases h

theorem Has.sq (h : Has w) (hw : Coupled w) : w.sq.st = .waitQp ∨ w.sq.st.issuing = true := by
  rcases h with hdone | hserve | hissue
  · exact Or.inl (hw.fetching (by simp [hdone])).1
  · exact Or.inl (hw.serving hserve)
  · exact Or.inr hissue

theorem Returned.has (h : Returned w) : Has w := by
  rcases h with hdone | hissue
  · exact Or.inr (Or.inl (by rw [hdone]; rfl))
  · exact Or.inr (Or.inr hissue)

/-- The queue pair stays while the `SQ_*` machine waits or issues. -/
theorem output_step (hst : w.sq.st = .waitQp ∨ w.sq.st.issuing = true) :
    (w.step j).sq.output = w.sq.output := by
  rcases hst with hwait | hissue
  · exact w.output_sqStep j (by simp [hwait]) (by simp [hwait])
  · obtain ⟨-, -, hidle, hread⟩ := ne_of_issuing hissue
    exact w.output_sqStep j hidle hread

/-- An element that is served or issued is the one that stays. -/
theorem kept_step (hw : Coupled w) (hst : w.qp.st.serving = true ∨ w.sq.st.issuing = true) :
    fetches w j = none ∧ (w.step j).ar.wqe = w.ar.wqe := by
  have hor : w.qp.st.serving = true ∨ w.sq.st ≠ .waitQp :=
    hst.imp_right fun h => (ne_of_issuing h).1
  have hready : w.sq.st ≠ .ifReady := by
    rcases hst with hserve | hissue
    · simp [hw.serving hserve]
    · exact (ne_of_issuing hissue).2.1
  refine ⟨if_neg ?_, hw.wqe_step hor hready⟩
  simp [hw.ar_idle hor]

/-- An element that is there has just been fetched, or was there before. -/
theorem has_of_step (hw : Coupled w) (h : Has (w.step j)) :
    (fetches w j = some (w.step j).ar.wqe ∧ w.sq.st = .waitQp) ∨
      (Has w ∧ fetches w j = none ∧ (w.step j).ar.wqe = w.ar.wqe) := by
  rcases h with hdone | hserve | hissue
  · change (w.arStep j).st = .done at hdone
    change fetches w j = some (w.arStep j).wqe ∧ _ ∨ _ ∧ _ ∧ (w.arStep j).wqe = _
    cases har : w.ar.st with
    | reading =>
      have hwait := (hw.fetching (by simp [har])).1
      rcases hr : j.rData with _ | ⟨rdata, rlast⟩
      · simp [WqManager.State.arStep, har, hr] at hdone
      · cases rlast with
        | false => simp [WqManager.State.arStep, har, hr] at hdone
        | true => exact Or.inl ⟨by simp [fetches, WqManager.State.arStep, har, hr], hwait⟩
    | done =>
      refine Or.inr ⟨Or.inl har, if_neg (by simp [har]), ?_⟩
      simp only [WqManager.State.arStep, har]
      split_ifs <;> rfl
    | idle => cases hf : w.sq.fetchWqe <;> simp [WqManager.State.arStep, har, hf] at hdone
    | calcAddr => simp [WqManager.State.arStep, har] at hdone
    | valid => cases hr : j.arReady <;> simp [WqManager.State.arStep, har, hr] at hdone
  · right
    rcases (w.serving_qpStep_iff j).mp hserve with hnew | ⟨hold, -⟩
    · have hdone := (hw.ack_iff hnew).1
      refine ⟨Or.inl hdone, if_neg (by simp [hdone]), ?_⟩
      simp [WqManager.State.step, WqManager.State.arStep, hdone, hnew]
    · exact ⟨Or.inr (Or.inl hold), kept_step hw (Or.inl hold)⟩
  · right
    rcases issuing_sqNext hissue with ⟨-, hdone⟩ | hold
    · have hserve : w.qp.st.serving = true := by
        rw [hw.intfDone.mp hdone]
        rfl
      exact ⟨Or.inr (Or.inl hserve), kept_step hw (Or.inl hserve)⟩
    · exact ⟨Or.inr (Or.inr hold), kept_step hw (Or.inr hold)⟩

/-- The element is returned once the stack has taken its context. -/
theorem returned_of_step (hw : Coupled w) (h : Returned (w.step j)) :
    (w.qp.st = .sqValid ∧ j.qpReady = true) ∨ Returned w := by
  rcases h with hdone | hissue
  · change (w.qpStep j).st = .sqDone at hdone
    cases hqp : w.qp.st with
    | sqValid =>
      cases hready : j.qpReady with
      | true => exact Or.inl ⟨rfl, rfl⟩
      | false => simp [WqManager.State.qpStep, hqp, hready] at hdone
    | sqDone => exact Or.inr (Or.inl hqp)
    | idle =>
      simp only [WqManager.State.qpStep, hqp] at hdone
      split_ifs at hdone
    | sqRdQp =>
      simp only [WqManager.State.qpStep, hqp] at hdone
      split_ifs at hdone
    | valid =>
      simp only [WqManager.State.qpStep, hqp] at hdone
      split_ifs at hdone
    | ifValid => simp [WqManager.State.qpStep, hqp] at hdone
  · rcases issuing_sqNext hissue with ⟨-, hdone⟩ | hold
    · exact Or.inr (Or.inl (hw.intfDone.mp hdone))
    · exact Or.inr (Or.inr hold)

end Has

/-! ## The invariant -/

/-- **The invariant.**  The element that is there is the one of the ledger.  Its context is
offered with its own address and key, and has been taken once the element is returned. -/
structure Inv (x : State × Ledger) : Prop where
  asking : Asking x.1
  labelled : Labelled x.1.port
  fetched : Has x.1.wq → x.2.fetched = some (x.1.wq.sq.output.sqIdx, x.1.wq.ar.wqe)
  offered : x.1.wq.qp.st = .sqValid →
    Carries x.1.wq.sq.output.sqIdx x.1.wq.ar.wqe x.1.wq.qp.ctx
  accepted : Returned x.1.wq → Accepted x.1.wq.sq.output.sqIdx x.1.wq.ar.wqe x.2
  /-- Another context comes from a pulse. -/
  pulsed : x.1.wq.sq.st.issuing = true → x.1.wq.qp.st = .valid →
    ∃ p ∈ x.2.pulses, x.1.wq.qp.ctx.qpNum = 0#16 ++ p
  qpn : x.1.wq.sq.st = .valid → x.1.wq.sq.req.req1.qpn = 0#8 ++ x.1.wq.sq.output.sqIdx

theorem inv_reset (regs : RegFile) : Inv (handing regs).reset where
  asking := asking_reset regs
  labelled := labelled_reset regs
  fetched h := by rcases h with h | h | h <;> cases h
  offered h := nomatch h
  accepted h := by rcases h with h | h <;> cases h
  pulsed h := nomatch h
  qpn h := nomatch h

theorem Inv.prepared {x : State × Ledger} (h : Inv x) : Prepared x := by
  intro hst
  have hissue : x.1.wq.sq.st.issuing = true := by rw [hst]; rfl
  exact ⟨_, _, h.fetched (Or.inr (Or.inr hissue)), rfl, h.qpn hst, h.accepted (Or.inr hissue)⟩

section Step

variable {s : State} {i : Input} {l : Ledger}

/-- A cycle in which no element arrives. -/
theorem note_of_kept (h : fetches s.wq (wqIn s i) = none) :
    note l s i = { l with
      accepted := accepts s.wq (wqIn s i) ++ l.accepted
      pulses := configures (wqIn s i) ++ l.pulses } := by
  simp only [note, h]

theorem Inv.step_fetched (h : Inv (s, l)) (hhas : Has (step s i).wq) :
    (note l s i).fetched = some ((step s i).wq.sq.output.sqIdx, (step s i).wq.ar.wqe) := by
  have hcoupled : Coupled s.wq := h.asking.coupled
  have hwq : (step s i).wq = s.wq.step (wqIn s i) := rfl
  rw [hwq] at hhas ⊢
  rcases has_of_step hcoupled hhas with ⟨hfetch, hwait⟩ | ⟨hold, hnone, hwqe⟩
  · rw [output_step (Or.inl hwait), note, hfetch]
  · rw [output_step (hold.sq hcoupled), hwqe, note_of_kept hnone]
    exact h.fetched hold

/-- The context is loaded from the row and the element, and then stays. -/
theorem Inv.step_offered (h : Inv (s, l)) (hst : (step s i).wq.qp.st = .sqValid) :
    Carries (step s i).wq.sq.output.sqIdx (step s i).wq.ar.wqe (step s i).wq.qp.ctx := by
  have hcoupled : Coupled s.wq := h.asking.coupled
  rw [h.asking.sqIdx_step (by rw [hst]; rfl)]
  change (s.wq.qpStep (wqIn s i)).st = .sqValid at hst
  show Carries _ (s.wq.step (wqIn s i)).ar.wqe (s.wq.qpStep (wqIn s i)).ctx
  rcases s.wq.of_qpStep_sqValid (wqIn s i) hst with ⟨hqp, hready, hctx⟩ | ⟨hqp, -, hctx⟩
  · -- the row that is announced is the one of the element
    obtain ⟨hlReg, hcmd⟩ := h.asking.announced hready
    have hlabel : s.port.qpIdx = s.port.lRdCmd.address :=
      h.labelled.label hlReg (by rw [hcmd]; rfl) (by rw [hcmd]; rfl)
    rw [(kept_step hcoupled (Or.inl (by rw [hqp]; rfl))).2, hctx]
    refine ⟨?_, rfl, rfl⟩
    show 0#16 ++ s.port.qpIdx = 0#16 ++ s.wq.sq.output.sqIdx
    rw [hlabel, hcmd]
    rfl
  · rw [(kept_step hcoupled (Or.inl (by rw [hqp]; rfl))).2, hctx]
    exact h.offered hqp

/-- After the element is returned, a context that is taken comes from a pulse. -/
theorem Inv.accepts (h : Inv (s, l)) (hret : Returned s.wq) :
    ∀ c ∈ accepts s.wq (wqIn s i), ∃ p ∈ l.pulses, c.qpNum = 0#16 ++ p := by
  intro c hc
  rw [ContextFirst.accepts] at hc
  split_ifs at hc with htaken
  · rw [List.mem_singleton] at hc
    subst hc
    rcases hret with hdone | hissue
    · simp [hdone] at htaken
    · rcases htaken.1 with hvalid | hvalid
      · exact h.pulsed hissue hvalid
      · have hwait : s.wq.sq.st = .waitQp := h.asking.coupled.serving (by rw [hvalid]; rfl)
        exact absurd hwait (ne_of_issuing hissue).1
  · cases hc

theorem Inv.step_accepted (h : Inv (s, l)) (hret : Returned (step s i).wq) :
    Accepted (step s i).wq.sq.output.sqIdx (step s i).wq.ar.wqe (note l s i) := by
  have hcoupled : Coupled s.wq := h.asking.coupled
  have hwq : (step s i).wq = s.wq.step (wqIn s i) := rfl
  rw [hwq] at hret ⊢
  rcases returned_of_step hcoupled hret with ⟨hvalid, hready⟩ | hold
  · have hserve : s.wq.qp.st.serving = true := by rw [hvalid]; rfl
    obtain ⟨hnone, hwqe⟩ := kept_step (j := wqIn s i) hcoupled (Or.inl hserve)
    rw [hwqe, output_step (Or.inl (hcoupled.serving hserve)), note_of_kept hnone]
    exact accepted_of_carries (h.offered hvalid) (by simp [ContextFirst.accepts, hvalid, hready])
  · have hst : s.wq.qp.st.serving = true ∨ s.wq.sq.st.issuing = true :=
      hold.imp_left fun hdone => by rw [hdone]; rfl
    obtain ⟨hnone, hwqe⟩ := kept_step (j := wqIn s i) hcoupled hst
    rw [hwqe, output_step (hold.has.sq hcoupled), note_of_kept hnone]
    exact (h.accepted hold).append (h.accepts hold)

theorem Inv.step_pulsed (h : Inv (s, l)) (hissue : (step s i).wq.sq.st.issuing = true)
    (hst : (step s i).wq.qp.st = .valid) :
    ∃ p ∈ (note l s i).pulses, (step s i).wq.qp.ctx.qpNum = 0#16 ++ p := by
  have hcoupled : Coupled s.wq := h.asking.coupled
  change (s.wq.qpStep (wqIn s i)).st = .valid at hst
  show ∃ p ∈ _, (s.wq.qpStep (wqIn s i)).ctx.qpNum = _
  rcases issuing_sqNext (i := wqIn s i) hissue with ⟨-, hdone⟩ | hold
  · simp only [WqManager.State.qpStep, hcoupled.intfDone.mp hdone] at hst
    split_ifs at hst
  · rw [note_of_kept (kept_step hcoupled (Or.inr hold)).1]
    rcases s.wq.of_qpStep_valid (wqIn s i) hst with ⟨-, hconf, -, hctx⟩ | ⟨hqp, -, hctx⟩
    · exact ⟨(wqIn s i).qpIdx, by simp [configures, hconf], by rw [hctx]; rfl⟩
    · obtain ⟨p, hp, hnum⟩ := h.pulsed hold hqp
      exact ⟨p, List.mem_append_right _ hp, by rw [hctx]; exact hnum⟩

theorem qpn_writeStep (w : SqIf) (wqe : BitVec 512) :
    (w.writeStep wqe).req.req1.qpn = 0#8 ++ (w.writeStep wqe).output.sqIdx := by
  unfold SqIf.writeStep
  split_ifs <;> rfl

theorem qpn_sendStep (w : SqIf) (wqe : BitVec 512) :
    (w.sendStep wqe).req.req1.qpn = 0#8 ++ (w.sendStep wqe).output.sqIdx := by
  unfold SqIf.sendStep
  split_ifs <;> rfl

/-- A request is loaded with the number of the queue pair, and then stays. -/
theorem Inv.step_qpn (h : Inv (s, l)) (hst : (step s i).wq.sq.st = .valid) :
    (step s i).wq.sq.req.req1.qpn = 0#8 ++ (step s i).wq.sq.output.sqIdx := by
  change (s.wq.sqNext (wqIn s i)).st = .valid at hst
  show (s.wq.sqNext (wqIn s i)).req.req1.qpn = 0#8 ++ (s.wq.sqNext (wqIn s i)).output.sqIdx
  cases hsq : s.wq.sq.st with
  | write =>
    simp only [WqManager.State.sqNext, hsq]
    exact qpn_writeStep _ _
  | send =>
    simp only [WqManager.State.sqNext, hsq]
    exact qpn_sendStep _ _
  | read =>
    simp only [WqManager.State.sqNext, hsq]
    rfl
  | valid =>
    simp only [WqManager.State.sqNext, hsq] at hst ⊢
    split_ifs at hst ⊢ <;> exact h.qpn hsq
  | idle | checkQueueBusy | ifReady | waitQp =>
    simp only [WqManager.State.sqNext, hsq] at hst
    split_ifs at hst <;> simp [hsq] at hst
  | _ => simp [WqManager.State.sqNext, hsq] at hst

/-- **One cycle keeps the invariant.** -/
theorem Inv.step (h : Inv (s, l)) : Inv (SendPsn.step s i, note l s i) where
  asking := h.asking.step
  labelled := h.labelled.step
  fetched := h.step_fetched
  offered := h.step_offered
  accepted := h.step_accepted
  pulsed := h.step_pulsed
  qpn := h.step_qpn

end Step

/-- **The context comes first.**  In every run of the work-queue manager and the register
port, over any register contents and whatever memory, stack and host do: when a request is
on the interface, the stack has taken a context for its queue pair, with the remote address
and the key of its element, after this element was fetched.  It is the last context for the
queue pair, unless a pulse has configured the queue pair in between. -/
theorem context_first_run (regs : RegFile) (is : List Input) :
    (handing regs).Always Prepared (handing regs).reset is :=
  (Machine.always_of_step (fun _ _ h => h.step) (inv_reset regs) is).mono fun _ h => h.prepared

/-- The first element of `bothElements`: its context has been taken when its request is on
the interface. -/
example :
    ((handing twoElements).run ((bothElements false).take 23)).1.wq.sq.st = .valid ∧
      ((handing twoElements).run ((bothElements false).take 23)).2.accepted.map (·.localPsn) =
        [100] := by
  decide +kernel

end ContextFirst
end RecoNIC
