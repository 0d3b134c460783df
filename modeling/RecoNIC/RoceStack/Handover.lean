import RecoNIC.RoceStack.WqManager

/-!
# Handing an element from machine to machine

A work-queue element goes from the `SQ_*` machine to the `AR_*` machine, which
fetches it, from there to the `QP_*` machine, which updates the context of its
queue pair, and back.  `Coupled` says where it can be: while the `AR_*` machine works
or the `QP_*` machine serves an element, the `SQ_*` machine waits, and never do both
have it.

The `QP_*` machine drops the element if the queue pair is disabled or its MTU field
is not one of the defined values, and the `SQ_*` machine answers an element of
unknown opcode by staying where it is.  In both cases nobody has the element any
more, and the `SQ_*` machine waits for it for good.  `not_wedged_iff` says that there
is no third way: a run never wedges iff every element is served.
-/

namespace RecoNIC
namespace WqManager

open Synchronous

/-! ## States of one machine -/

/-- The `QP_*` machine has an element. -/
def QpState.serving : QpState → Bool
  | .sqRdQp | .sqValid | .sqDone => true
  | _ => false

namespace SqIf

@[simp] theorem st_packet (s : SqIf) (opcode : BitVec 5) (last : Bool) (vaddr : BitVec 64)
    (len : BitVec 32) (paddr : BitVec 64) :
    (s.packet opcode last vaddr len paddr).st = .valid := rfl

@[simp] theorem st_writeStep (s : SqIf) (wqe : BitVec 512) : (s.writeStep wqe).st = .valid := by
  unfold writeStep
  split_ifs <;> rfl

@[simp] theorem st_sendStep (s : SqIf) (wqe : BitVec 512) : (s.sendStep wqe).st = .valid := by
  unfold sendStep
  split_ifs <;> rfl

@[simp] theorem st_readStep (s : SqIf) (wqe : BitVec 512) : (s.readStep wqe).st = .valid := rfl

end SqIf

namespace State

variable (s : State) (i : Input)

@[simp] theorem st_sqStep : (s.sqStep i).st = (s.sqNext i).st := rfl

@[simp] theorem fetchWqe_sqStep : (s.sqStep i).fetchWqe = s.fetchWqeNext := rfl

/-- The element is one the `SQ_*` machine knows. -/
def opcodeKnown : Bool :=
  wqeOpcode s.ar.wqe == 0x00#8 || wqeOpcode s.ar.wqe == 0x02#8 || wqeOpcode s.ar.wqe == 0x04#8

/-- The `SQ_*` machine waits in the next cycle iff its element is about to be fetched, or
it waits and does not get a known element back. -/
theorem sqNext_st_eq_waitQp_iff :
    (s.sqNext i).st = .waitQp ↔
      (s.sq.st = .ifReady ∧ s.sq.output.cqHeadIdx < s.sq.output.sqProdIdx ∧
        s.fetchWqeAck = true) ∨
      (s.sq.st = .waitQp ∧ (s.qp.intfDone = true → s.opcodeKnown = false)) := by
  cases hst : s.sq.st with
  | ifReady =>
    simp only [sqNext, hst, true_and, reduceCtorEq, false_and, or_false]
    by_cases hle : s.sq.output.sqProdIdx ≤ s.sq.output.cqHeadIdx
    · simp [hle, BitVec.not_lt.mpr hle]
    · cases s.fetchWqeAck <;> simp [hle, BitVec.not_le.mp hle]
  | waitQp =>
    simp only [sqNext, hst, opcodeKnown]
    cases s.qp.intfDone
    · simp [hst]
    · simp only [if_true]
      split_ifs <;> simp [*]
  | valid =>
    simp only [sqNext, hst]
    split_ifs <;> simp [hst]
  | idle =>
    simp only [sqNext, hst]
    split_ifs <;> simp [hst]
  | checkQueueBusy =>
    simp only [sqNext, hst]
    split_ifs <;> simp
  | _ => simp [sqNext, hst]

theorem fetchWqeNext_iff :
    s.fetchWqeNext = true ↔
      s.sq.st = .ifReady ∧ s.sq.output.cqHeadIdx < s.sq.output.sqProdIdx ∧
        s.fetchWqeAck = false := by
  simp [fetchWqeNext, and_assoc]

/-- The fetched flag is the state of the `AR_*` machine. -/
theorem newWqeFetched_arStep :
    (s.arStep i).newWqeFetched = true ↔ (s.arStep i).st = .done := by
  cases hst : s.ar.st with
  | idle => cases hf : s.sq.fetchWqe <;> simp [arStep, hst, hf]
  | calcAddr => simp [arStep, hst]
  | valid => cases hr : i.arReady <;> simp [arStep, hst, hr]
  | reading =>
    rcases hr : i.rData with _ | ⟨rdata, rlast⟩
    · simp [arStep, hst, hr]
    · cases rlast <;> simp [arStep, hst, hr]
  | done => cases ha : s.newWqeFetchedAck i <;> simp [arStep, hst, ha]

/-- The done flag is the state of the `QP_*` machine. -/
theorem intfDone_qpStep : (s.qpStep i).intfDone = true ↔ (s.qpStep i).st = .sqDone := by
  cases hst : s.qp.st with
  | idle =>
    simp only [qpStep, hst]
    split_ifs <;> simp
  | sqRdQp =>
    simp only [qpStep, hst]
    split_ifs <;> simp
  | sqDone =>
    simp only [qpStep, hst]
    split_ifs <;> simp
  | valid => cases hr : i.qpReady <;> simp [qpStep, hst, hr]
  | sqValid => cases hr : i.qpReady <;> simp [qpStep, hst, hr]
  | ifValid => simp [qpStep, hst]

/-- The `AR_*` machine starts when it is asked to, and ends when the element is taken. -/
theorem arStep_st_ne_idle_iff :
    (s.arStep i).st ≠ .idle ↔
      (s.ar.st = .idle ∧ s.sq.fetchWqe = true) ∨
      (s.ar.st ≠ .idle ∧ ¬ (s.ar.st = .done ∧ s.newWqeFetchedAck i = true)) := by
  cases hst : s.ar.st with
  | idle => cases hf : s.sq.fetchWqe <;> simp [arStep, hst, hf]
  | calcAddr => simp [arStep, hst]
  | valid => cases hr : i.arReady <;> simp [arStep, hst, hr]
  | reading =>
    rcases hr : i.rData with _ | ⟨rdata, rlast⟩
    · simp [arStep, hst, hr]
    · cases rlast <;> simp [arStep, hst, hr]
  | done => cases ha : s.newWqeFetchedAck i <;> simp [arStep, hst, ha]

/-- The `QP_*` machine begins to serve when it takes an element, and stops when it drops
it or has given it back. -/
theorem serving_qpStep_iff :
    (s.qpStep i).st.serving = true ↔
      (s.newWqeFetchedAck i = true) ∨
      (s.qp.st.serving = true ∧
        ¬ (s.qp.st = .sqRdQp ∧ i.rdQpReady = true ∧ qpEnabled i.qpConf = false) ∧
        ¬ (s.qp.st = .sqDone ∧ s.qpIntfDoneAck = true)) := by
  cases hst : s.qp.st with
  | idle =>
    simp only [qpStep, hst, newWqeFetchedAck]
    split_ifs <;> simp [QpState.serving, *]
  | sqRdQp =>
    simp only [qpStep, hst, newWqeFetchedAck]
    split_ifs <;> simp [QpState.serving, *]
  | sqDone =>
    simp only [qpStep, hst, newWqeFetchedAck]
    split_ifs <;> simp [QpState.serving, *]
  | valid => cases hr : i.qpReady <;> simp [qpStep, hst, hr, newWqeFetchedAck, QpState.serving]
  | sqValid => cases hr : i.qpReady <;> simp [qpStep, hst, hr, newWqeFetchedAck, QpState.serving]
  | ifValid => simp [qpStep, hst, newWqeFetchedAck, QpState.serving]

/-- A context that is offered for an element has just been loaded, or waits to be taken. -/
theorem of_qpStep_sqValid (h : (s.qpStep i).st = .sqValid) :
    (s.qp.st = .sqRdQp ∧ i.rdQpReady = true ∧
      (s.qpStep i).ctx = qpCtx i (SqIf.wqeRemote s.ar.wqe) (s.ar.wqe.extractLsb' 224 32)) ∨
    (s.qp.st = .sqValid ∧ i.qpReady = false ∧ (s.qpStep i).ctx = s.qp.ctx) := by
  cases hst : s.qp.st with
  | sqRdQp =>
    simp only [qpStep, hst] at h
    split_ifs at h with hready hon
    exact Or.inl ⟨rfl, hready, by simp [qpStep, hst, hready, hon, SqIf.wqeRemote]⟩
  | sqValid =>
    simp only [qpStep, hst] at h
    split_ifs at h with hready
    exact Or.inr ⟨rfl, Bool.eq_false_iff.mpr hready, by simp [qpStep, hst, hready]⟩
  | ifValid => simp [qpStep, hst] at h
  | _ =>
    simp only [qpStep, hst] at h
    split_ifs at h

/-- The same for one that comes from a pulse. -/
theorem of_qpStep_valid (h : (s.qpStep i).st = .valid) :
    (s.qp.st = .idle ∧ i.qpConfigured = true ∧ qpEnabled i.qpConf = true ∧
      (s.qpStep i).ctx = qpCtx i 0 0) ∨
    (s.qp.st = .valid ∧ i.qpReady = false ∧ (s.qpStep i).ctx = s.qp.ctx) := by
  cases hst : s.qp.st with
  | idle =>
    simp only [qpStep, hst] at h
    split_ifs at h with hconf hon
    exact Or.inl ⟨rfl, hconf, hon, by simp [qpStep, hst, hconf, hon]⟩
  | valid =>
    simp only [qpStep, hst] at h
    split_ifs at h with hready
    exact Or.inr ⟨rfl, Bool.eq_false_iff.mpr hready, by simp [qpStep, hst, hready]⟩
  | ifValid => simp [qpStep, hst] at h
  | _ =>
    simp only [qpStep, hst] at h
    split_ifs at h

end State

/-! ## The coupling -/

/-- Where an element can be. -/
structure Coupled (s : State) : Prop where
  /-- The `SQ_*` machine asks for an element it has a right to. -/
  fetchWqe : s.sq.fetchWqe = true →
    s.sq.st = .ifReady ∧ s.sq.output.cqHeadIdx < s.sq.output.sqProdIdx
  newWqeFetched : s.ar.newWqeFetched = true ↔ s.ar.st = .done
  intfDone : s.qp.intfDone = true ↔ s.qp.st = .sqDone
  /-- It waits while the `AR_*` machine works, -/
  fetching : s.ar.st ≠ .idle → s.sq.st = .waitQp ∧ s.qp.st.serving = false
  /-- and while the `QP_*` machine serves. -/
  serving : s.qp.st.serving = true → s.sq.st = .waitQp

theorem coupled_reset : Coupled State.reset where
  fetchWqe h := nomatch h
  newWqeFetched := ⟨nofun, nofun⟩
  intfDone := ⟨nofun, nofun⟩
  fetching h := absurd rfl h
  serving h := nomatch h

section Step

variable {s : State} {i : Input}

/-- Who hands an element over has it. -/
theorem Coupled.ack_iff (h : Coupled s) (hnew : s.newWqeFetchedAck i = true) :
    s.ar.st = .done ∧ s.sq.st = .waitQp ∧ s.qp.intfDone = false := by
  simp only [State.newWqeFetchedAck, Bool.and_eq_true, beq_iff_eq] at hnew
  have hdone := h.newWqeFetched.mp hnew.2
  refine ⟨hdone, (h.fetching (by simp [hdone])).1, ?_⟩
  rw [← Bool.not_eq_true, h.intfDone, hnew.1.1]
  simp

/-- The `AR_*` machine rests while the `QP_*` machine serves, and while the `SQ_*` machine
does not wait. -/
theorem Coupled.ar_idle (h : Coupled s)
    (hst : s.qp.st.serving = true ∨ s.sq.st ≠ .waitQp) : s.ar.st = .idle := by
  by_contra hbusy
  obtain ⟨hwait, hserve⟩ := h.fetching hbusy
  rcases hst with hold | hne
  · simp [hserve] at hold
  · exact hne hwait

/-- The element stays in its register while the `AR_*` machine rests and is not asked for
another one. -/
theorem Coupled.wqe_step (h : Coupled s)
    (hst : s.qp.st.serving = true ∨ s.sq.st ≠ .waitQp) (hready : s.sq.st ≠ .ifReady) :
    (s.step i).ar.wqe = s.ar.wqe := by
  have hfetch : s.sq.fetchWqe = false := by
    rw [← Bool.not_eq_true]
    exact fun hf => hready (h.fetchWqe hf).1
  simp [State.step, State.arStep, h.ar_idle hst, hfetch]

/-- The `SQ_*` machine keeps waiting while it gets nothing back. -/
theorem waitQp_of_not_done (hst : s.sq.st = .waitQp) (hdone : s.qp.intfDone = false) :
    (s.step i).sq.st = .waitQp :=
  (s.sqNext_st_eq_waitQp_iff i).mpr (Or.inr ⟨hst, by simp [hdone]⟩)

theorem Coupled.step (h : Coupled s) : Coupled (s.step i) where
  fetchWqe hf := by
    obtain ⟨hst, hlt, hack⟩ := s.fetchWqeNext_iff.mp hf
    have hnle := BitVec.not_le.mpr hlt
    simp [State.step, State.sqStep, State.sqNext, hst, hack, hnle, hlt]
  newWqeFetched := s.newWqeFetched_arStep i
  intfDone := s.intfDone_qpStep i
  fetching har := by
    rcases (s.arStep_st_ne_idle_iff i).mp har with ⟨hidle, hf⟩ | ⟨hbusy, hkeep⟩
    · obtain ⟨hst, hlt⟩ := h.fetchWqe hf
      refine ⟨(s.sqNext_st_eq_waitQp_iff i).mpr (Or.inl ⟨hst, hlt, ?_⟩), ?_⟩
      · simp [State.fetchWqeAck, hidle, hf]
      · rw [← Bool.not_eq_true]
        intro hserve
        rcases (s.serving_qpStep_iff i).mp hserve with hnew | ⟨hold, -⟩
        · rw [(h.ack_iff hnew).1] at hidle
          cases hidle
        · rw [h.serving hold] at hst
          cases hst
    · obtain ⟨hwait, hserve⟩ := h.fetching hbusy
      have hdone : s.qp.intfDone = false := by
        rw [← Bool.not_eq_true, h.intfDone]
        intro hqp
        simp [hqp, QpState.serving] at hserve
      refine ⟨waitQp_of_not_done hwait hdone, ?_⟩
      rw [← Bool.not_eq_true]
      intro hserve'
      rcases (s.serving_qpStep_iff i).mp hserve' with hnew | ⟨hold, -⟩
      · exact hkeep ⟨(h.ack_iff hnew).1, hnew⟩
      · simp [hserve] at hold
  serving hserve := by
    rcases (s.serving_qpStep_iff i).mp hserve with hnew | ⟨hold, -, hkeep⟩
    · obtain ⟨-, hwait, hdone⟩ := h.ack_iff hnew
      exact waitQp_of_not_done hwait hdone
    · have hwait := h.serving hold
      refine waitQp_of_not_done hwait ?_
      rw [← Bool.not_eq_true]
      intro hdone
      refine hkeep ⟨h.intfDone.mp hdone, ?_⟩
      simp [State.qpIntfDoneAck, hwait, hdone]

end Step

/-! ## Wedged -/

/-- The `SQ_*` machine waits for an element that nobody has. -/
structure Wedged (s : State) : Prop where
  sq : s.sq.st = .waitQp
  qp : s.qp.st = .idle
  ar : s.ar.st = .idle
  fetchWqe : s.sq.fetchWqe = false
  newWqeFetched : s.ar.newWqeFetched = false
  intfDone : s.qp.intfDone = false

/-- The cycle does not drop an element: a queue pair that is read for one is enabled, with
one of the defined MTU values, and an element that is given back has a known opcode. -/
def Served (s : State) (i : Input) : Prop :=
  (s.qp.st = .sqRdQp → i.rdQpReady = true → qpEnabled i.qpConf = true) ∧
  (s.sq.st = .waitQp → s.qp.intfDone = true → s.opcodeKnown = true)

/-- Somebody has the element the `SQ_*` machine waits for. -/
structure Held (s : State) : Prop where
  coupled : Coupled s
  held : s.sq.st = .waitQp → s.ar.st ≠ .idle ∨ s.qp.st.serving = true

section Step

variable {s : State} {i : Input}

theorem Held.not_wedged (h : Held s) : ¬ Wedged s := by
  intro hw
  rcases h.held hw.sq with har | hqp
  · exact har hw.ar
  · simp [hw.qp, QpState.serving] at hqp

theorem Held.step (h : Held s) (hserved : Served s i) : Held (s.step i) := by
  refine ⟨h.coupled.step, fun hst => ?_⟩
  rcases (s.sqNext_st_eq_waitQp_iff i).mp hst with ⟨hready, hlt, hack⟩ | ⟨hwait, hunknown⟩
  · left
    simp only [State.fetchWqeAck, Bool.and_eq_true, beq_iff_eq] at hack
    exact (s.arStep_st_ne_idle_iff i).mpr (Or.inl hack)
  · by_cases hnew : s.newWqeFetchedAck i = true
    · exact Or.inr ((s.serving_qpStep_iff i).mpr (Or.inl hnew))
    · rcases h.held hwait with har | hqp
      · exact Or.inl ((s.arStep_st_ne_idle_iff i).mpr (Or.inr ⟨har, fun hack => hnew hack.2⟩))
      · refine Or.inr ((s.serving_qpStep_iff i).mpr (Or.inr ⟨hqp, ?_, ?_⟩))
        · rintro ⟨hrd, hready, hoff⟩
          simp [hserved.1 hrd hready] at hoff
        · rintro ⟨-, hack⟩
          simp only [State.qpIntfDoneAck, Bool.and_eq_true] at hack
          have := hserved.2 hwait hack.2
          simp [hunknown hack.2] at this

/-- A dropped element wedges the machines at once. -/
theorem Held.wedged (h : Held s) (hserved : ¬ Served s i) : Wedged (s.step i) := by
  have hcoupled := h.coupled.step (i := i)
  -- whoever drops the element is the `QP_*` machine, which goes back to `QP_IDLE`
  have hdrop : s.qp.st.serving = true ∧ (s.step i).qp.st = .idle ∧
      (s.step i).sq.st = .waitQp := by
    rw [Served, not_and_or] at hserved
    rcases hserved with hoff | hunknown
    · simp only [not_forall, Bool.not_eq_true] at hoff
      obtain ⟨hrd, hready, hoff⟩ := hoff
      have hserve : s.qp.st.serving = true := by simp [hrd, QpState.serving]
      have hdone : s.qp.intfDone = false := by
        rw [← Bool.not_eq_true, h.coupled.intfDone, hrd]
        simp
      refine ⟨hserve, ?_, waitQp_of_not_done (h.coupled.serving hserve) hdone⟩
      simp [State.step, State.qpStep, hrd, hready, hoff]
    · simp only [not_forall, Bool.not_eq_true] at hunknown
      obtain ⟨hwait, hdone, hunknown⟩ := hunknown
      have hst := h.coupled.intfDone.mp hdone
      refine ⟨by simp [hst, QpState.serving], ?_, ?_⟩
      · simp [State.step, State.qpStep, hst, State.qpIntfDoneAck, hwait, hdone]
      · exact (s.sqNext_st_eq_waitQp_iff i).mpr (Or.inr ⟨hwait, fun _ => hunknown⟩)
  obtain ⟨hserve, hqp, hwait⟩ := hdrop
  have har : (s.step i).ar.st = .idle := by
    by_contra hbusy
    rcases (s.arStep_st_ne_idle_iff i).mp hbusy with ⟨-, hf⟩ | ⟨hold, -⟩
    · have hready := (h.coupled.fetchWqe hf).1
      rw [h.coupled.serving hserve] at hready
      cases hready
    · exact hold (h.coupled.ar_idle (Or.inl hserve))
  refine ⟨hwait, hqp, har, ?_, ?_, ?_⟩
  · rw [← Bool.not_eq_true]
    intro hf
    rw [(hcoupled.fetchWqe hf).1] at hwait
    cases hwait
  · rw [← Bool.not_eq_true, hcoupled.newWqeFetched, har]
    simp
  · rw [← Bool.not_eq_true, hcoupled.intfDone, hqp]
    simp

end Step

/-- Once wedged, the `SQ_*` machine waits whatever happens: no doorbell of any queue pair
is served again. -/
theorem Wedged.forever {s : State} (h : Wedged s) (is : List Input) :
    (wqManager.runFrom s is).sq.st = .waitQp := by
  have hlost : wqManager.Always (fun t => t.sq.st = .waitQp ∧ t.qp.st.serving = false ∧
      t.qp.intfDone = false ∧ t.ar.st = .idle ∧ t.sq.fetchWqe = false ∧
        t.ar.newWqeFetched = false) s is := by
    refine Machine.always_of_step ?_ ?_ is
    · rintro t i ⟨hwait, hserve, hdone, har, hfetch, hnew⟩
      have har' : (t.arStep i).st = .idle := by simp [State.arStep, har, hfetch]
      have hserve' : (t.qpStep i).st.serving = false := by
        rw [← Bool.not_eq_true, State.serving_qpStep_iff]
        simp [State.newWqeFetchedAck, hnew, hserve]
      refine ⟨waitQp_of_not_done hwait hdone, hserve', ?_, har', ?_, ?_⟩
      · refine Bool.eq_false_iff.mpr fun hd => ?_
        rw [(t.intfDone_qpStep i).mp hd] at hserve'
        cases hserve'
      · exact Bool.eq_false_iff.mpr fun hf => by simp [(t.fetchWqeNext_iff.mp hf).1] at hwait
      · refine Bool.eq_false_iff.mpr fun hn => ?_
        rw [(t.newWqeFetched_arStep i).mp hn] at har'
        cases har'
    · exact ⟨h.sq, by rw [h.qp]; rfl, h.intfDone, h.ar, h.fetchWqe, h.newWqeFetched⟩
  exact hlost.last.1

/-- **When the engine cannot wedge.**  A run never has the `SQ_*` machine wait for an
element that nobody has iff no cycle of it drops an element. -/
theorem not_wedged_iff (is : List Input) :
    wqManager.Always (fun s => ¬ Wedged s) wqManager.reset is ↔
      wqManager.Guarded Served wqManager.reset is := by
  exact Machine.always_iff_guarded (fun s (hs : Held s) => hs.not_wedged)
    (fun s i hs _ hserved => hs.step hserved)
    (fun s i hs _ hserved => not_not_intro (hs.wedged hserved))
    ⟨coupled_reset, nofun⟩ (Machine.guarded_true _ _)

/-- A cycle in which nothing arrives and everybody who is asked is ready. -/
def Input.quiet : Input where
  qpIdx := 0
  connConfigured := false
  qpConfigured := false
  sqUpdated := false
  conf := 0
  qpConf := 0
  destQpConf := 0
  ipDesAddr1 := 0
  macDesAdd := 0
  sqPsn := 0
  lstRqReq := 0
  sqBa := 0
  cqBa := 0
  sqPi := 0
  cqHead := 0
  rdQpReady := false
  connReady := true
  qpReady := true
  sqReady := true
  ack := none
  awReady := true
  wReady := true
  bValid := true
  arReady := true
  rData := none
  bLast := false

/-- A doorbell of an enabled queue pair. -/
def ring (qp : BitVec 8) (pi head : BitVec 32) : Input :=
  { Input.quiet with qpIdx := qp, qpConf := 1, sqUpdated := true, sqPi := pi, cqHead := head }

/-- A cycle in which the registers of an enabled queue pair are read and the element `wqe`
is on the AXI read channel. -/
def serve (qp : BitVec 8) (wqe : BitVec 512) : Input :=
  { Input.quiet with qpIdx := qp, qpConf := 1, rdQpReady := true, rData := some (wqe, true) }

/-- The element of opcode `op`, with everything else zero. -/
def wqeOf (op : BitVec 8) : BitVec 512 := op.setWidth 512 <<< 128

/-- A cycle in which an element of `qp` is acknowledged. -/
def acknowledge (qp : BitVec 8) : Input :=
  { Input.quiet with ack := some { (default : Ack) with qpNum := qp.setWidth 16 } }

/-- A doorbell of `qp` with an element left, a write, and the cycles until it is issued. -/
def oneWrite (qp : BitVec 8) (pi head : BitVec 32) : List Input :=
  ring qp pi head :: List.replicate 17 (serve qp (wqeOf 0))

/-- A doorbell of queue pair 1 for one element, a write with immediate (`RNIC_OP_WRITE_IMMDT`),
and the cycles until it has been fetched and the context updated. -/
def writeImmdt : List Input := ring 1 1 0 :: List.replicate 14 (serve 1 (wqeOf 1))

/-- The write with immediate wedges the engine. -/
theorem writeImmdt_wedges : Wedged (wqManager.run writeImmdt) :=
  ⟨by decide +kernel, by decide +kernel, by decide +kernel, by decide +kernel,
    by decide +kernel, by decide +kernel⟩

end WqManager
end RecoNIC
