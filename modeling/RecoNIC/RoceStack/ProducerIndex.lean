import RecoNIC.RoceStack.Receiving

/-!
# The producer index

`STATRQPIDBi` is to count the SENDs to a queue pair.  An increment goes a long way: it
belongs to a message whose last packet the handler holds, then it waits in the slot of the
register port, then it is written.  `Counted` adds up the three stages.

The handler does not know what kind of message it ends.  It looks at the address that the
last lookup was made for, and takes every message that ends while this address is zero for
a SEND: a local READ response after a SEND or after reset, and an inbound write to the
address zero.  And it is ready in `RQ_WB_DBADD` without looking at what it is offered
there.  `Counting` rules these out, next to what makes a lookup stale.
-/

namespace RecoNIC
namespace Receiving

open Synchronous Translation
open RequestHandler hiding Input step
open RegisterPort hiding Input step note Ledger Ledger.empty

/-! ## Increments under way -/

/-- The handler holds the last packet of a SEND to `q`. -/
def inHandler (q : BitVec 8) (s : State) (l : Ledger) : Bool :=
  match s.wr.handler.reqState with
  | .idle => false
  | .wbDbAdd => s.wr.handler.qpn.setWidth 8 == q
  | _ => s.wr.handler.first && isSend l.message.opcode && l.message.qpn.setWidth 8 == q

/-- A write-back of the index of `q` waits in its slot, or is about to be written. -/
def inPort (q : BitVec 8) (p : Port) : Bool :=
  decide (p.Holds .statrqpidbi q ∨ p.Writes .statrqpidbi q ∧ p.holdAxis = 0)

/-- The register and the increments under way are the SENDs that have been accepted. -/
def Counted (init : BitVec 32) (q : BitVec 8) (s : State × Ledger) : Prop :=
  s.1.port.regs.qp q statrqpidbiIdx + BitVec.ofNat 32 (inPort q s.1.port).toNat +
      BitVec.ofNat 32 (inHandler q s.1 s.2).toNat =
    init + BitVec.ofNat 32 s.2.sends

/-- A cycle that neither hides a SEND nor shows one that is none. -/
structure Counting (q : BitVec 8) (s : State × Ledger) (i : Input) : Prop where
  orderly : Orderly q .statrqpidbi s.1 i
  /-- Nothing is offered while the handler writes back. -/
  heard : s.1.wr.handler.reqState = .wbDbAdd → i.wrIn.reqValid = false
  /-- A remote message is a SEND iff it has the address zero. -/
  zero : s.1.wr.handler.reqState = .idle → i.wrIn.reqValid = true →
    s.1.wr.handler.first = true → isLocal false i.wrIn.reqData.opcode = false →
    (isSend i.wrIn.reqData.opcode = true ↔ i.wrIn.reqData.vaddr = 0#64)

/-! ## From the port to the register -/

/-- The settled index is the register and the increment in the port. -/
structure Late (q : BitVec 8) (p : Port) : Prop where
  beat : p.lReg = .write → p.holdAxis = 0 ∨ p.holdAxis = 1
  alone : p.Holds .statrqpidbi q → ¬ p.Writes .statrqpidbi q
  waiting : p.Holds .statrqpidbi q → p.settled .statrqpidbi q = p.regs.qp q statrqpidbiIdx + 1
  writing : p.Writes .statrqpidbi q → p.holdAxis = 0 →
    p.settled .statrqpidbi q = p.regs.qp q statrqpidbiIdx + 1
  written : p.Writes .statrqpidbi q → p.holdAxis = 1 →
    p.settled .statrqpidbi q = p.regs.qp q statrqpidbiIdx

section Port

variable {q : BitVec 8} {p : Port} {i : RegisterPort.Input}

theorem settled_of_clear (howned : Owned p) (h : Clear p .statrqpidbi q) :
    p.settled .statrqpidbi q = p.regs.qp q statrqpidbiIdx := by
  rw [settled_of_not_holds (by decide) howned h.1, landed_of_not_writes h.2]
  rfl

theorem Late.regs_add (h : Late q p) (howned : Owned p) :
    p.regs.qp q statrqpidbiIdx + BitVec.ofNat 32 (inPort q p).toNat =
      p.settled .statrqpidbi q := by
  by_cases hholds : p.Holds .statrqpidbi q
  · simp [inPort, hholds, h.waiting hholds]
  · by_cases hwrites : p.Writes .statrqpidbi q
    · rcases h.beat hwrites.1 with h0 | h1
      · simp [inPort, hwrites, h0, h.writing hwrites h0]
      · simp [inPort, hholds, h1, h.written hwrites h1]
    · simp [inPort, hholds, hwrites, settled_of_clear howned ⟨hholds, hwrites⟩]

/-- The register in a cycle that does not write it. -/
theorem qp_step_of_not_writes (huntouched : Untouched i q statrqpidbiIdx)
    (h : ¬ p.Writes .statrqpidbi q) :
    (RegisterPort.step p i).regs.qp q statrqpidbiIdx = p.regs.qp q statrqpidbiIdx := by
  rw [qp_step huntouched]
  exact landed_of_not_writes (k := .statrqpidbi) h

theorem late_reset (regs : RegFile) : Late q (Port.reset regs) := by
  have hholds : ¬ (Port.reset regs).Holds .statrqpidbi q := fun h => Bool.false_ne_true h.1
  have hwrites : ¬ (Port.reset regs).Writes .statrqpidbi q := fun h =>
    nomatch (show LState.idle = .write from h.1)
  exact ⟨nofun, fun h => absurd h hholds, fun h => absurd h hholds,
    fun h => absurd h hwrites, fun h => absurd h hwrites⟩

/-- The hold counter during a write. -/
theorem Late.beat_step (h : Late q p) (hhold : p.lReg = .idle → p.holdAxis = 0)
    (hw : (RegisterPort.step p i).lReg = .write) :
    (RegisterPort.step p i).holdAxis = 0 ∨ (RegisterPort.step p i).holdAxis = 1 := by
  rcases of_lReg_step_write hw with ⟨-, -, -, hidle, heq⟩ | ⟨hold, -, hne, heq⟩
  · exact Or.inl (heq.trans (hhold hidle))
  · rcases h.beat hold with h0 | h1
    · exact Or.inr (by rw [heq, h0]; rfl)
    · exact absurd h1 hne

/-- A cycle without a write-back of the index of `q`. -/
theorem Late.step (h : Late q p) (howned : Owned p)
    (hhold : p.lReg = .idle → p.holdAxis = 0)
    (huntouched : Untouched i q statrqpidbiIdx)
    (hsettled : (RegisterPort.step p i).settled .statrqpidbi q = p.settled .statrqpidbi q)
    (hpulse : ∀ c ∈ i.wb.cmd .statrqpidbi, c.address ≠ q) :
    Late q (RegisterPort.step p i) := by
  have hholds (h' : (RegisterPort.step p i).Holds .statrqpidbi q) :
      p.Holds .statrqpidbi q ∧ taken p i .statrqpidbi = false := by
    rcases holds_of_step h' with ⟨c, hc, haddr⟩ | hold
    · exact absurd haddr (hpulse c hc)
    · exact hold
  have hwrites (h' : (RegisterPort.step p i).Writes .statrqpidbi q) :=
    writes_of_step (k := .statrqpidbi) (by decide) howned h'
  refine ⟨h.beat_step hhold, fun h' hw => ?_, fun h' => ?_, fun hw h0 => ?_, fun hw h1 => ?_⟩
  · obtain ⟨hold, hnot⟩ := hholds h'
    rcases hwrites hw with ⟨-, htaken⟩ | hold'
    · rw [hnot] at htaken
      cases htaken
    · exact h.alone hold hold'
  · obtain ⟨hold, -⟩ := hholds h'
    rw [hsettled, qp_step_of_not_writes huntouched (h.alone hold), h.waiting hold]
  · rcases of_lReg_step_write hw.1 with ⟨-, -, -, hidle, -⟩ | ⟨hwrite, -, hne, heq⟩
    · have hnot : ¬ p.Writes .statrqpidbi q := fun hno => nomatch hidle.symm.trans hno.1
      rw [hsettled, qp_step_of_not_writes huntouched hnot]
      rcases hwrites hw with ⟨hold, -⟩ | hold
      · exact h.waiting hold
      · exact absurd hold hnot
    · -- a write that goes on is in its second cycle
      rcases h.beat hwrite with hb | hb
      · rw [heq, hb] at h0
        exact absurd h0 (by decide)
      · exact absurd hb hne
  · rcases of_lReg_step_write hw.1 with ⟨-, -, -, hidle, heq⟩ | ⟨hwrite, hcmd, -, -⟩
    · rw [heq, hhold hidle] at h1
      exact absurd h1 (by decide)
    · have hold : p.Writes .statrqpidbi q := by
        have hhits := hw.2
        rw [hcmd] at hhits
        exact ⟨hwrite, hhits⟩
      have hnot : ¬ p.Holds .statrqpidbi q := fun hno => h.alone hno hold
      rw [hsettled, qp_step huntouched, settled_of_not_holds (by decide) howned hnot]
      rfl

/-- The write-back of an index of `q` that finds nothing on its way. -/
theorem Late.of_clear (howned : Owned p) (hclear : Clear p .statrqpidbi q)
    (hbeat : (RegisterPort.step p i).lReg = .write →
      (RegisterPort.step p i).holdAxis = 0 ∨ (RegisterPort.step p i).holdAxis = 1)
    (huntouched : Untouched i q statrqpidbiIdx)
    (hsettled : (RegisterPort.step p i).settled .statrqpidbi q =
      p.settled .statrqpidbi q + 1) :
    Late q (RegisterPort.step p i) := by
  have hregs := qp_step_of_not_writes huntouched hclear.2
  have hnot : ¬ (RegisterPort.step p i).Writes .statrqpidbi q := fun hw => by
    rcases writes_of_step (by decide) howned hw with ⟨hold, -⟩ | hold
    · exact hclear.1 hold
    · exact hclear.2 hold
  refine ⟨hbeat, fun _ => hnot, fun _ => ?_, fun hw => absurd hw hnot, fun hw => absurd hw hnot⟩
  rw [hsettled, settled_of_clear howned hclear, hregs]

end Port

/-! ## From the message to the handler -/

/-- The handler is in the middle of a message. -/
def Busy (h : Handler) : Prop :=
  h.reqState = .getPaddr ∨ h.reqState = .middle ∨ h.reqState = .sendCmd ∨
    h.reqState = .idle ∧ h.first = false

/-- The handler and the ledger agree on the message, and on the number of SENDs. -/
structure Synced (q : BitVec 8) (s : State) (l : Ledger) : Prop where
  first : l.first = s.wr.handler.first
  meaning : Busy s.wr.handler →
    (isSend l.message.opcode = true ∧ l.message.qpn.setWidth 8 = q ↔
      s.wr.handler.offsVaddr = 0#64 ∧ s.wr.handler.qpn.setWidth 8 = q)
  last : s.wr.handler.reqState = .wbDbAdd → s.wr.handler.first = true
  sends : l.sends = l.done.length + (inHandler q s l).toNat

section Message

variable {q : BitVec 8} {s : State} {i : Input} {l : Ledger} {init : Pointers}

theorem isSend_of_isLocal {opcode : BitVec 5} (h : isLocal false opcode = true) :
    isSend opcode = false := by
  revert opcode
  decide

/-- What the handler takes from a request. -/
theorem handler_step_idle (hs : s.wr.handler.reqState = .idle)
    (hready : (s.wr.handlerIn i.wrIn).reqAddrReady = true) (hv : i.wrIn.reqValid = true) :
    ((Receiving.step s i).wr.handler.reqState = .middle ∨
      (Receiving.step s i).wr.handler.reqState = .getPaddr) ∧
    (Receiving.step s i).wr.handler.first = i.wrIn.reqData.last ∧
    (Receiving.step s i).wr.handler.offsVaddr =
      (if s.wr.handler.first ∧ isLocal false i.wrIn.reqData.opcode = false then
        i.wrIn.reqData.vaddr else s.wr.handler.offsVaddr) ∧
    (Receiving.step s i).wr.handler.qpn =
      (if s.wr.handler.first ∧ isLocal false i.wrIn.reqData.opcode = false then
        i.wrIn.reqData.qpn else s.wr.handler.qpn) := by
  have hv' : (s.wr.handlerIn i.wrIn).reqValid = true := hv
  have hdata : (s.wr.handlerIn i.wrIn).reqData = i.wrIn.reqData := rfl
  rw [handler_step]
  cases hfirst : s.wr.handler.first <;>
    cases hlocal : isLocal false i.wrIn.reqData.opcode <;>
      simp [RequestHandler.step, hs, hv', hready, hdata, hfirst, hlocal]

/-- A request is accepted. -/
theorem Synced.step_accept (h : Synced q s l) (hs : s.wr.handler.reqState = .idle)
    (hready : (s.wr.handlerIn i.wrIn).reqAddrReady = true) (hv : i.wrIn.reqValid = true)
    (hremote : ¬ Local q s i)
    (hzero : s.wr.handler.first = true → isLocal false i.wrIn.reqData.opcode = false →
      (isSend i.wrIn.reqData.opcode = true ↔ i.wrIn.reqData.vaddr = 0#64)) :
    Synced q (Receiving.step s i) (note q l s i) := by
  obtain ⟨hst, hlast, hoffs, hqpn⟩ := handler_step_idle hs hready hv
  have hnote : (note q l s i).first = i.wrIn.reqData.last ∧
      (note q l s i).message = l.head i.wrIn.reqData ∧
      (note q l s i).sends = (l.accept q i.wrIn.reqData).sends ∧
      (note q l s i).done = l.done := by
    have hacc : accepts s i = true := by simp [accepts, hv, Handler.reqReady, hs]
    have hnot : completes q s = false := completes_eq_false (by simp [hs])
    simp [note, hacc, hnot, Ledger.accept]
  obtain ⟨hfirst', hmessage, hsends', hdone⟩ := hnote
  have hin : inHandler q (Receiving.step s i) (note q l s i) =
      (i.wrIn.reqData.last && isSend (l.head i.wrIn.reqData).opcode &&
        (l.head i.wrIn.reqData).qpn.setWidth 8 == q) := by
    rcases hst with hst | hst <;> simp [inHandler, hst, hlast, hmessage]
  have hsends := h.sends
  have hidle : inHandler q s l = false := by simp [inHandler, hs]
  rw [hidle] at hsends
  refine ⟨by rw [hfirst', hlast], fun _ => ?_, fun hno => ?_, ?_⟩
  · rw [hoffs, hqpn, hmessage, Ledger.head, h.first]
    cases hfirst : s.wr.handler.first with
    | false => simpa using h.meaning (Or.inr (Or.inr (Or.inr ⟨hs, hfirst⟩)))
    | true =>
      cases hlocal : isLocal false i.wrIn.reqData.opcode with
      | false => simp [hzero hfirst hlocal]
      | true =>
        have hno : ¬ (s.wr.handler.offsVaddr = 0#64 ∧ s.wr.handler.qpn.setWidth 8 = q) :=
          fun hboth => hremote ⟨hs, hv, hfirst, hlocal, hboth.1, hboth.2⟩
        simpa [isSend_of_isLocal hlocal] using hno
  · rcases hst with hst | hst <;> rw [hst] at hno <;> cases hno
  · rw [hin, hsends', hdone]
    simp only [Ledger.accept]
    split_ifs with hc
    · simp [hc, hsends]
    · simp [hc, hsends]

/-- A cycle in which the handler goes on with what it has. -/
theorem Synced.step_keep (h : Synced q s l) (hacc : accepts s i = false)
    (hnot : completes q s = false)
    (hfirst : (Receiving.step s i).wr.handler.first = s.wr.handler.first)
    (hbusy : Busy (Receiving.step s i).wr.handler → Busy s.wr.handler ∧
      (Receiving.step s i).wr.handler.offsVaddr = s.wr.handler.offsVaddr ∧
      (Receiving.step s i).wr.handler.qpn = s.wr.handler.qpn)
    (hlast : (Receiving.step s i).wr.handler.reqState = .wbDbAdd → s.wr.handler.first = true)
    (hin : inHandler q (Receiving.step s i) l = inHandler q s l) :
    Synced q (Receiving.step s i) (note q l s i) := by
  have hmessage : (note q l s i).message = l.message := by simp [note, hacc]
  have hin' : inHandler q (Receiving.step s i) (note q l s i) = inHandler q s l := by
    rw [← hin]
    simp only [inHandler, hmessage]
  refine ⟨?_, fun hb => ?_, fun hs => by rw [hfirst]; exact hlast hs, ?_⟩
  · rw [hfirst, ← h.first]
    simp [note, hacc]
  · obtain ⟨hb', hoffs, hqpn⟩ := hbusy hb
    rw [hmessage, hoffs, hqpn]
    exact h.meaning hb'
  · rw [hin', done_note hnot, ← h.sends]
    simp [note, hacc]

/-- The handler writes back and is done with its message. -/
theorem Synced.step_wbDbAdd (h : Synced q s l) (hs : s.wr.handler.reqState = .wbDbAdd)
    (hheard : i.wrIn.reqValid = false) :
    Synced q (Receiving.step s i) (note q l s i) := by
  have hacc : accepts s i = false := by simp [accepts, hheard]
  have hnext : (Receiving.step s i).wr.handler = { s.wr.handler with reqState := .idle } := by
    rw [handler_step]
    simp [RequestHandler.step, hs]
  have hlast := h.last hs
  refine ⟨?_, fun hb => ?_, fun hno => ?_, ?_⟩
  · rw [hnext, show (note q l s i).first = l.first by simp [note, hacc]]
    exact h.first
  · rw [hnext] at hb
    rcases hb with hb | hb | hb | ⟨-, hb⟩
    · cases hb
    · cases hb
    · cases hb
    · cases hlast.symm.trans hb
  · rw [hnext] at hno
    cases hno
  · have hsends := h.sends
    have hidle : inHandler q (Receiving.step s i) (note q l s i) = false := by
      simp [inHandler, hnext]
    have hnew : (note q l s i).sends = l.sends := by simp [note, hacc]
    have hwb : inHandler q s l = completes q s := by
      simp [inHandler, hs, completes, Handler.wbValid]
    rw [hidle, hnew, hsends, hwb]
    cases hc : completes q s with
    | false => simp [note, hc, hacc]
    | true => simp [note, hc]

/-- The handler waits. -/
theorem Synced.step_same (h : Synced q s l) (hacc : accepts s i = false)
    (hnot : completes q s = false) (hs : s.wr.handler.reqState ≠ .wbDbAdd)
    (hsame : (Receiving.step s i).wr.handler = s.wr.handler) :
    Synced q (Receiving.step s i) (note q l s i) := by
  refine h.step_keep hacc hnot (by rw [hsame]) (fun hb => ?_) (fun hno => ?_) ?_
  · rw [hsame] at hb ⊢
    exact ⟨hb, rfl, rfl⟩
  · rw [hsame] at hno
    exact absurd hno hs
  · simp only [inHandler, hsame]

/-- The handler asks for an address. -/
theorem Synced.step_getPaddr (h : Synced q s l) (hs : s.wr.handler.reqState = .getPaddr) :
    Synced q (Receiving.step s i) (note q l s i) := by
  have hnext : ((Receiving.step s i).wr.handler.reqState = .getPaddr ∨
      (Receiving.step s i).wr.handler.reqState = .middle) ∧
      (Receiving.step s i).wr.handler.first = s.wr.handler.first ∧
      (Receiving.step s i).wr.handler.offsVaddr = s.wr.handler.offsVaddr ∧
      (Receiving.step s i).wr.handler.qpn = s.wr.handler.qpn := by
    rw [handler_step s i]
    cases hv : (s.wr.handlerIn i.wrIn).respAddrValid <;> simp [RequestHandler.step, hs, hv]
  obtain ⟨hst, hfirst, hoffs, hqpn⟩ := hnext
  refine h.step_keep (by simp [accepts, Handler.reqReady, hs]) (completes_eq_false (by simp [hs]))
    hfirst (fun _ => ⟨Or.inl hs, hoffs, hqpn⟩) ?_ ?_
  · rcases hst with hst | hst <;> rw [hst] <;> rintro ⟨⟩
  · rcases hst with hst | hst <;> simp only [inHandler, hs, hst, hfirst]

/-- The handler cuts off the next command. -/
theorem Synced.step_middle (h : Synced q s l) (hs : s.wr.handler.reqState = .middle) :
    Synced q (Receiving.step s i) (note q l s i) := by
  have hnext : (Receiving.step s i).wr.handler.reqState = .sendCmd ∧
      (Receiving.step s i).wr.handler.first = s.wr.handler.first ∧
      (Receiving.step s i).wr.handler.offsVaddr = s.wr.handler.offsVaddr ∧
      (Receiving.step s i).wr.handler.qpn = s.wr.handler.qpn := by
    rw [handler_step s i]
    simp only [RequestHandler.step, hs]
    split_ifs <;> exact ⟨rfl, rfl, rfl, rfl⟩
  obtain ⟨hst, hfirst, hoffs, hqpn⟩ := hnext
  refine h.step_keep (by simp [accepts, Handler.reqReady, hs]) (completes_eq_false (by simp [hs]))
    hfirst (fun _ => ⟨Or.inr (Or.inl hs), hoffs, hqpn⟩) ?_ ?_
  · rw [hst]
    rintro ⟨⟩
  · simp only [inHandler, hs, hst, hfirst]

/-- A command is taken that is the last one of its message: a SEND goes on to its
write-back. -/
theorem Synced.step_sendCmd_first (h : Synced q s l) (hs : s.wr.handler.reqState = .sendCmd)
    (hr : (s.wr.handlerIn i.wrIn).cmdReady = true) (hfirst : s.wr.handler.first = true) :
    Synced q (Receiving.step s i) (note q l s i) := by
  have hacc : accepts s i = false := by simp [accepts, Handler.reqReady, hs]
  have hnot : completes q s = false := completes_eq_false (by simp [hs])
  have hmeaning := h.meaning (Or.inr (Or.inr (Or.inl hs)))
  by_cases h0 : s.wr.handler.offsVaddr = 0#64
  · have hnext : (Receiving.step s i).wr.handler.reqState = .wbDbAdd ∧
        (Receiving.step s i).wr.handler.first = true ∧
        (Receiving.step s i).wr.handler.qpn = s.wr.handler.qpn := by
      rw [handler_step s i, step_sendCmd_of_send hs hr hfirst h0]
      exact ⟨rfl, hfirst, rfl⟩
    obtain ⟨hst, hf, hqpn⟩ := hnext
    refine h.step_keep hacc hnot (by rw [hf, hfirst]) ?_ (fun _ => hfirst) ?_
    · intro hb
      rcases hb with hb | hb | hb | ⟨hb, -⟩ <;> rw [hst] at hb <;> cases hb
    · rw [Bool.eq_iff_iff]
      simp only [inHandler, hst, hqpn, hs, hfirst, Bool.true_and, Bool.and_eq_true,
        beq_iff_eq, hmeaning, h0, true_and]
  · have hnext : (Receiving.step s i).wr.handler.reqState = .idle ∧
        (Receiving.step s i).wr.handler.first = true := by
      rw [handler_step s i, step_sendCmd_of_last hs hr hfirst h0]
      exact ⟨rfl, hfirst⟩
    obtain ⟨hst, hf⟩ := hnext
    refine h.step_keep hacc hnot (by rw [hf, hfirst]) ?_ (fun _ => hfirst) ?_
    · intro hb
      rcases hb with hb | hb | hb | ⟨-, hb⟩
      · exact nomatch hst.symm.trans hb
      · exact nomatch hst.symm.trans hb
      · exact nomatch hst.symm.trans hb
      · exact nomatch hf.symm.trans hb
    · rw [Bool.eq_iff_iff]
      simp only [inHandler, hst, hs, hfirst, Bool.true_and, Bool.and_eq_true, beq_iff_eq,
        hmeaning, h0, false_and, Bool.false_eq_true]

/-- The handler offers a command. -/
theorem Synced.step_sendCmd (h : Synced q s l) (hs : s.wr.handler.reqState = .sendCmd) :
    Synced q (Receiving.step s i) (note q l s i) := by
  have hacc : accepts s i = false := by simp [accepts, Handler.reqReady, hs]
  have hnot : completes q s = false := completes_eq_false (by simp [hs])
  cases hr : (s.wr.handlerIn i.wrIn).cmdReady with
  | false =>
    refine h.step_same hacc hnot (by simp [hs]) ?_
    rw [handler_step s i]
    exact step_sendCmd_of_not_ready hs hr
  | true =>
    cases hfirst : s.wr.handler.first with
    | true => exact h.step_sendCmd_first hs hr hfirst
    | false =>
      have hnext : (Receiving.step s i).wr.handler = { s.wr.handler with reqState := .idle } := by
        rw [handler_step s i]
        exact step_sendCmd_of_later hs hr hfirst
      refine h.step_keep hacc hnot (by rw [hnext]) ?_ ?_ ?_
      · rw [hnext]
        exact fun _ => ⟨Or.inr (Or.inr (Or.inl hs)), rfl, rfl⟩
      · rw [hnext]
        rintro ⟨⟩
      · simp [inHandler, hnext, hs, hfirst]

/-- **One cycle.** -/
theorem Synced.step (h : Synced q s l)
    (hasking : s.wr.vtp.st ≠ .idle → s.wr.handler.reqState = .getPaddr)
    (hok : Counting q (s, l) i) : Synced q (Receiving.step s i) (note q l s i) := by
  cases hs : s.wr.handler.reqState with
  | idle =>
    cases hv : i.wrIn.reqValid with
    | true =>
      exact h.step_accept hs (reqReady_of_idle hasking hs) hv hok.orderly.remote (hok.zero hs hv)
    | false =>
      refine h.step_same (by simp [accepts, hv]) (completes_eq_false (by simp [hs]))
        (by simp [hs]) ?_
      rw [handler_step s i]
      exact step_idle_of_quiet hs hv
  | getPaddr => exact h.step_getPaddr hs
  | middle => exact h.step_middle hs
  | sendCmd => exact h.step_sendCmd hs
  | wbDbAdd => exact h.step_wbDbAdd hs (hok.heard hs)

end Message

/-! ## The result -/

section Run

variable {q : BitVec 8} {s : State} {i : Input} {l : Ledger} {init : Pointers}

/-- The invariant of the count. -/
structure CountInv (init : Pointers) (q : BitVec 8) (s : State × Ledger) : Prop where
  inv : Inv init (fun _ => True) q .statrqpidbi s
  late : Late q s.1.port
  synced : Synced q s.1 s.2

theorem late_step (h : CountInv init q (s, l)) (ho : Orderly q .statrqpidbi s i) :
    Late q (Receiving.step s i).port := by
  have hport : (Receiving.step s i).port = RegisterPort.step s.port (s.portIn (wired s i)) := rfl
  have hsettled := settled_step_wired (by decide) h.inv.owned ho
  have hhold : s.port.lReg = .idle → s.port.holdAxis = 0 := fun hidle =>
    h.inv.rows.holdAxis (by simp [hidle]) (by simp [hidle]) (by simp [hidle])
  rw [hport] at hsettled ⊢
  cases hc : completes q s with
  | false =>
    refine h.late.step h.inv.owned hhold ho.untouched (by simpa [hc] using hsettled) ?_
    intro c hcmd
    have hcmd' : (wired s i).wb.cmd .statrqpidbi = some c := hcmd
    rw [cmd_wired (by decide)] at hcmd'
    split_ifs at hcmd' with hv
    obtain rfl := Option.some.inj hcmd'
    simpa [completes, hv, qpWb] using hc
  | true =>
    have hs : s.wr.handler.reqState = .wbDbAdd := by
      by_contra hne
      rw [completes_eq_false hne] at hc
      cases hc
    have hat := h.inv.handler
    simp only [AtHandler, hs] at hat
    have hq := hc
    simp only [completes, Bool.and_eq_true, beq_iff_eq] at hq
    obtain ⟨hnext, hcur⟩ := hat.2 hq.2
    refine .of_clear h.inv.owned hcur.clear (h.late.beat_step hhold) ho.untouched ?_
    rw [hsettled, if_pos hc, h.inv.settled, ← hcur.word, hnext]
    rfl

theorem CountInv.step (h : CountInv init q (s, l)) (hok : Counting q (s, l) i) :
    CountInv init q (Receiving.step s i, note q l s i) :=
  ⟨h.inv.step (by decide) hok.orderly fun _ => trivial, late_step h hok.orderly,
    h.synced.step h.inv.asking hok⟩

/-- Every completed SEND adds one. -/
theorem index_left {done : List DmaReq} (h : FollowsAt .statrqpidbi init done) :
    (left init done).index = init.index + BitVec.ofNat 32 done.length := by
  induction done with
  | nil => simp [left]
  | cons resp rest ih =>
    have hresp : resp.rkey = (left init rest).index := h.1
    have hnext : (left init (resp :: rest)).index = resp.rkey + 1 := rfl
    rw [hnext, hresp, ih h.2, List.length_cons, BitVec.ofNat_add, BitVec.add_assoc]
    rfl

theorem CountInv.counted (h : CountInv init q (s, l)) : Counted init.index q (s, l) := by
  have hsettled : s.port.settled .statrqpidbi q = (left init l.done).index := h.inv.settled
  rw [Counted, h.late.regs_add h.inv.owned, hsettled, index_left h.inv.follows, h.synced.sends,
    BitVec.ofNat_add, BitVec.add_assoc]

/-- **The index counts the SENDs.**  In a run in which every message that ends under the
address zero is a SEND to the queue pair of the lookup, no request is offered while the
handler writes back, and nothing makes a lookup stale, `STATRQPIDBi` of `q` and its
increments under way are the SENDs to `q` that were accepted, in every state. -/
theorem counted_run (q : BitVec 8) (regs : RegFile) (is : List Input)
    (h : (receiving q regs).Guarded (Counting q) (receiving q regs).reset is) :
    (receiving q regs).Always (Counted (regs.qp q statrqpidbiIdx) q) (receiving q regs).reset
      is := by
  have hreset : CountInv (.ofRow (regs.qp q)) q (receiving q regs).reset := by
    refine ⟨inv_reset (by decide) regs, late_reset regs, rfl, fun hb => ?_, fun hno => ?_, rfl⟩
    · rcases hb with hb | hb | hb | ⟨-, hb⟩ <;> cases hb
    · cases hno
  have hinv := Machine.always_of_guarded (fun s i (hs : CountInv _ q s) hok => hs.step hok) hreset h
  exact hinv.mono fun s hs => hs.counted

end Run

/-! ### A READ response after a SEND -/

instance (init : BitVec 32) (q : BitVec 8) (s : State × Ledger) : Decidable (Counted init q s) :=
  inferInstanceAs (Decidable (_ = _))

instance (q : BitVec 8) (s : State × Ledger) (i : Input) : Decidable (Counting q s i) :=
  decidable_of_iff (Orderly q .statrqpidbi s.1 i ∧
    (s.1.wr.handler.reqState = .wbDbAdd → i.wrIn.reqValid = false) ∧
    (s.1.wr.handler.reqState = .idle → i.wrIn.reqValid = true →
      s.1.wr.handler.first = true → isLocal false i.wrIn.reqData.opcode = false →
      (isSend i.wrIn.reqData.opcode = true ↔ i.wrIn.reqData.vaddr = 0#64)))
    ⟨fun h => ⟨h.1, h.2.1, h.2.2⟩, fun h => ⟨h.orderly, h.heard, h.zero⟩⟩

theorem counted_spaced :
    (receiving 1 buffers).Always (Counted 0 1) (receiving 1 buffers).reset spaced :=
  counted_run 1 buffers spaced (by decide +kernel)

/-- The response to a READ of the host, of one packet. -/
def readResponse : Input :=
  { Translation.Input.quiet with
    wrIn :=
      { reqValid := true
        reqData := { (default : Req) with
          opcode := rcRdmaReadRespOnly, qpn := 1, vaddr := 0x1000, len := 64, last := true }
        cmdReady := true } }

/-- A SEND, and later the response to a READ. -/
def responseAfterSend : List Input :=
  sendOnly 1 :: List.replicate 20 idle ++ readResponse :: List.replicate 12 idle

/-- One SEND has arrived, and the index says two. -/
theorem responseAfterSend_not_counted :
    ((receiving 1 buffers).run responseAfterSend).2.sends = 1 ∧
      ((receiving 1 buffers).run responseAfterSend).1.port.regs.qp 1 statrqpidbiIdx = 2#32 ∧
      ¬ Counted 0 1 ((receiving 1 buffers).run responseAfterSend) := by
  refine ⟨?_, ?_, ?_⟩ <;> decide +kernel

end Receiving
end RecoNIC
