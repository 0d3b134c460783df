import RecoNIC.RoceStack.Commands
import RecoNIC.RoceStack.Receiving

/-!
# Where a SEND is stored

The commands of an inbound SEND start at the address that its lookup has returned, one
packet after the other.  The size of a receive buffer is the upper half of `QPCONFi` times
256 bytes.  So SEND `n` of a queue pair starts `n - 1` buffers behind the first one
(`BufInv.command`): the address only goes up, it is compared with nothing, and the length of
the message is compared with nothing either, because the answer to a SEND lookup carries
the access `0001` that passes every check of the write side.

The handler works on one packet at a time.  `AtPacket` says what it knows of the packet in
each of its states, and there is one lemma for each state on what becomes of this at a clock
edge.  Packets of other messages are in between; for them it says only what the next SEND
needs, that no error is left over.
-/

namespace RecoNIC
namespace Receiving

open Synchronous Translation
open RequestHandler hiding Input step
open RegisterPort hiding Input step note Ledger Ledger.empty
open Commands (commandAddr commandBytes commandAddr_cmdWord commandBytes_cmdWord)

/-! ## The answers -/

/-- The size of a receive buffer, as the lookup computes it. -/
def bufLen (conf : BitVec 32) : BitVec 48 := (conf.extractLsb' 16 16).setWidth 48 <<< 8

/-- An answer to a SEND lookup under the configuration `conf`. -/
def SendAnswer (conf : BitVec 32) (resp : DmaReq) : Prop :=
  resp.buflen = bufLen conf ∧ resp.accesdesc = 0b0001#4

/-- The message of the handler goes to the receive buffers of `q`. -/
def ForSend (q : BitVec 8) (h : Handler) : Prop :=
  h.offsVaddr = 0#64 ∧ h.qpn.setWidth 8 = q

instance (q : BitVec 8) (h : Handler) : Decidable (ForSend q h) :=
  inferInstanceAs (Decidable (_ ∧ _))

/-- A cycle that leaves the pointers and the configuration of `q` to the SENDs. -/
def Undisturbed (q : BitVec 8) (s : State) (i : Input) : Prop :=
  (∀ k ∈ statrqKinds, Orderly q k s i) ∧ Untouched (s.portIn (wired s i)) q qpconfiIdx

instance (q : BitVec 8) (s : State) (i : Input) : Decidable (Undisturbed q s i) :=
  inferInstanceAs (Decidable (_ ∧ _))

/-! ## The packets of a SEND -/

/-- The handler is about to check a packet of a SEND. -/
structure Checking (s : State) (l : Ledger) : Prop where
  errSt : s.wr.handler.errSt = false
  accessdesc : s.wr.handler.accessdesc = 0b0001#4
  paddr : s.wr.handler.paddr = l.answer.paddr + BitVec.ofNat 64 l.before
  len : s.wr.handler.len.toNat = l.size

/-- The packets of the SEND so far have been placed one after the other. -/
structure Placed (s : State) (l : Ledger) : Prop where
  errSt : s.wr.handler.errSt = false
  accessdesc : s.wr.handler.accessdesc = 0b0001#4
  paddr : s.wr.handler.paddr = l.answer.paddr + BitVec.ofNat 64 (l.before + l.size)

/-- The command of a packet of a SEND. -/
structure Commanded (s : State) (l : Ledger) : Prop where
  placed : Placed s l
  cmdData : s.wr.handler.cmdData =
    cmdWord (l.answer.paddr + BitVec.ofNat 64 l.before) s.wr.handler.len
  len : s.wr.handler.len.toNat = l.size

/-- What the handler holds of a SEND to `q`, by its state. -/
def AtPacket (q : BitVec 8) (s : State) (l : Ledger) : Prop :=
  match s.wr.handler.reqState with
  | .idle =>
    (s.wr.handler.first = true → s.wr.handler.errSt = false) ∧
      (s.wr.handler.first = false → ForSend q s.wr.handler → Placed s l)
  | .getPaddr =>
    s.wr.handler.errSt = false ∧ l.before = 0 ∧ s.wr.handler.len.toNat = l.size
  | .middle => ForSend q s.wr.handler → Checking s l
  | .sendCmd => ForSend q s.wr.handler → Commanded s l
  | .wbDbAdd => s.wr.handler.errSt = false

/-- The invariant of the receive buffers.  The lookups of `Receiving` answer with the pointers, and
the size of a buffer comes from a register that nobody writes meanwhile. -/
structure BufInv (init : Pointers) (conf : BitVec 32) (q : BitVec 8) (s : State × Ledger) :
    Prop where
  /-- Every one of the three registers behind the answers follows the SENDs. -/
  inv : ∀ k : {k // k ∈ statrqKinds}, Inv init (SendAnswer conf) q k.1 s
  packet : AtPacket q s.1 s.2
  rows : Rows q qpconfiIdx s.1.port
  conf : s.1.port.regs.qp q qpconfiIdx = conf
  writes : WritesOwn s.1.port

section Step

variable {q : BitVec 8} {s : State} {i : Input} {l : Ledger} {init : Pointers}
  {conf : BitVec 32}

/-- The row that answers a SEND lookup has the configuration of the queue pair. -/
theorem BufInv.sendAnswer (h : BufInv init conf q (s, l))
    (ho : Orderly q .statrqpidbi s i) (hann : Announced q s) :
    SendAnswer conf (Vtp.sendResp s.port.qpRdReg s.port.qpRdRegQ) := by
  obtain ⟨hcmd, -⟩ := ho.current hann
  obtain ⟨hr, hst, -, hq⟩ := hann
  have hfind := (h.inv ⟨.statrqpidbi, by decide⟩).vtp
  simp only [AtVtp, hst] at hfind
  simp only [Port.findPdReady, Bool.and_eq_true, beq_iff_eq] at hr
  rw [hfind] at hcmd
  have hrow := (h.rows.delivered hr.1.1 (by rw [hcmd]; rfl) (by rw [hcmd]; rfl)
    (by rw [hcmd, ← hq]; rfl)).1
  refine ⟨?_, rfl⟩
  rw [← h.conf, ← hrow]
  rfl

/-- A SEND passes the check: with the access of its answer, no lengths are compared. -/
theorem Checking.passes (h : Checking s l) : checkPasses false s.wr.handler = true := by
  simp [checkPasses, h.errSt, h.accessdesc]

/-- The ledger of a packet changes when the handler hears the next one, in `RQ_IDLE`. -/
theorem before_note (h : s.wr.handler.reqState ≠ .idle) :
    (note q l s i).before = l.before ∧ (note q l s i).size = l.size := by
  simp [note, hears, h]

/-- In `RQ_GETPADDR` the handler waits for the answer of the lookup.  The first packet of a SEND
takes the address of the answer as it is, since its own offset is zero. -/
theorem atPacket_step_getPaddr (h : BufInv init conf q (s, l))
    (hs : s.wr.handler.reqState = .getPaddr) :
    AtPacket q (step s i) (note q l s i) := by
  have hat := h.packet
  simp only [AtPacket, hs] at hat
  obtain ⟨herr, hbefore, hlen⟩ := hat
  obtain ⟨hb, hz⟩ := before_note (q := q) (l := l) (i := i)
    (show s.wr.handler.reqState ≠ .idle by simp [hs])
  by_cases hv : s.wr.vtp.st = .valid
  · have hvtp := (h.inv ⟨.statrqpidbi, by decide⟩).vtp
    simp only [AtVtp, hv] at hvtp
    have hresp : (s.wr.handlerIn i.wrIn).respAddrValid = true := by
      simp [Side.handlerIn, Vtp.Regs.respValid, hv]
    have hans : (note q l s i).answer = s.wr.vtp.respAddrData := by
      simp [note, answered, Handler.reqAddrValid, hs, Vtp.Regs.respValid, hv]
    have hdata : (s.wr.handlerIn i.wrIn).respAddrData = s.wr.vtp.respAddrData := rfl
    have hnext : (step s i).wr.handler =
        RequestHandler.step false s.wr.handler (s.wr.handlerIn i.wrIn) := rfl
    have hst : (step s i).wr.handler.reqState = .middle := by
      simp [hnext, RequestHandler.step, hs, hresp]
    have hoffs : (step s i).wr.handler.offsVaddr = s.wr.handler.offsVaddr := by
      simp [hnext, RequestHandler.step, hs, hresp]
    have hqpn : (step s i).wr.handler.qpn = s.wr.handler.qpn := by
      simp [hnext, RequestHandler.step, hs, hresp]
    simp only [AtPacket, hst]
    -- the answer that has come is the one for this SEND
    rintro ⟨h0, hq⟩
    rw [hoffs] at h0
    rw [hqpn] at hq
    obtain ⟨hzero, hcur⟩ := hvtp h0
    have hgood := (hcur hq).good
    have hkey : keyFails false s.wr.handler s.wr.vtp.respAddrData = false := by
      simp [keyFails, h0]
    refine ⟨?_, ?_, ?_, ?_⟩
    · simp [hnext, RequestHandler.step, hs, hresp, hdata, hkey, herr]
    · simp [hnext, RequestHandler.step, hs, hresp, hdata, hgood.2]
    · simp [hnext, RequestHandler.step, hs, hresp, hdata, hans, hb, hbefore, h0, hzero]
    · rw [hz, ← hlen]
      simp [hnext, RequestHandler.step, hs, hresp]
  · have hsame : (step s i).wr.handler = s.wr.handler := Side.handler_step_of_lookup hs hv
    simp only [AtPacket, hsame, hs]
    exact ⟨herr, hb.trans hbefore, hlen.trans hz.symm⟩

/-- `RQ_MIDDLE` checks the packet.  One of a SEND passes, its command is prepared, and the address
moves on to where the next packet goes. -/
theorem atPacket_step_middle (h : BufInv init conf q (s, l))
    (hs : s.wr.handler.reqState = .middle) :
    AtPacket q (step s i) (note q l s i) := by
  have hat := h.packet
  simp only [AtPacket, hs] at hat
  obtain ⟨hb, hz⟩ := before_note (q := q) (l := l) (i := i)
    (show s.wr.handler.reqState ≠ .idle by simp [hs])
  have hans : (note q l s i).answer = l.answer := answer_note (answered_eq_false (by simp [hs]))
  by_cases hsend : ForSend q s.wr.handler
  · have hcheck := hat hsend
    have hnext : (step s i).wr.handler =
        { s.wr.handler with
          cmdData := cmdWord s.wr.handler.paddr s.wr.handler.len
          paddr := s.wr.handler.paddr + s.wr.handler.len.setWidth 64
          reqState := .sendCmd } := by
      rw [handler_step]
      simp [RequestHandler.step, hs, hcheck.passes]
    have hlen : s.wr.handler.len.setWidth 64 = BitVec.ofNat 64 l.size := by
      rw [← hcheck.len, BitVec.ofNat_toNat]
    simp only [AtPacket, hnext]
    refine fun _ => ⟨⟨?_, ?_, ?_⟩, ?_, ?_⟩
    · simp [hnext, hcheck.errSt]
    · simp [hnext, hcheck.accessdesc]
    · simp [hnext, hans, hb, hz, hcheck.paddr, hlen, BitVec.ofNat_add, BitVec.add_assoc]
    · simp [hnext, hans, hb, hcheck.paddr]
    · simp [hnext, hz, hcheck.len]
  · -- a message that is none for the receive buffers goes on, whether it passes or not
    have hnext : (step s i).wr.handler.reqState = .sendCmd ∧
        (step s i).wr.handler.offsVaddr = s.wr.handler.offsVaddr ∧
        (step s i).wr.handler.qpn = s.wr.handler.qpn := by
      rw [handler_step]
      simp only [RequestHandler.step, hs]
      split_ifs <;> exact ⟨rfl, rfl, rfl⟩
    obtain ⟨hst, hoffs, hqpn⟩ := hnext
    simp only [AtPacket, hst]
    rintro ⟨h0, hq⟩
    exact absurd ⟨hoffs.symm.trans h0, by rw [← hqpn]; exact hq⟩ hsend

/-- The first packet of a message comes. -/
theorem atPacket_step_first (h : BufInv init conf q (s, l)) (ho : Orderly q .statrqpidbi s i)
    (hs : s.wr.handler.reqState = .idle) (hv : i.wrIn.reqValid = true)
    (hfirst : s.wr.handler.first = true) :
    AtPacket q (step s i) (note q l s i) := by
  have hat := h.packet
  simp only [AtPacket, hs] at hat
  have hready := reqReady_of_idle (i := i) (h.inv ⟨.statrqpidbi, by decide⟩).asking hs
  have hstep := handler_step s i
  have hv' : (s.wr.handlerIn i.wrIn).reqValid = true := hv
  have hdata : (s.wr.handlerIn i.wrIn).reqData = i.wrIn.reqData := rfl
  have hhears : hears s i = true := by simp [hears, hv, hs]
  have hsize : (note q l s i).size = i.wrIn.reqData.len.toNat := by simp [note, hhears]
  have hbefore : (note q l s i).before = 0 := by simp [note, hhears, hfirst]
  cases hlocal : isLocal false i.wrIn.reqData.opcode with
  | false =>
    have hnext : (step s i).wr.handler.reqState = .getPaddr ∧
        (step s i).wr.handler.errSt = s.wr.handler.errSt ∧
        (step s i).wr.handler.len = i.wrIn.reqData.len := by
      rw [hstep]
      simp [RequestHandler.step, hs, hv', hready, hfirst, hdata, hlocal]
    obtain ⟨hst, herr, hlen⟩ := hnext
    simp only [AtPacket, hst, herr, hlen]
    exact ⟨hat.1 hfirst, hbefore, hsize.symm⟩
  | true =>
    -- a READ response needs no lookup, and by the guard it is not taken for a SEND to `q`
    have hnext : (step s i).wr.handler.reqState = .middle ∧
        (step s i).wr.handler.offsVaddr = s.wr.handler.offsVaddr ∧
        (step s i).wr.handler.qpn = s.wr.handler.qpn := by
      rw [hstep]
      simp [RequestHandler.step, hs, hv', hfirst, hdata, hlocal]
    obtain ⟨hst, hoffs, hqpn⟩ := hnext
    simp only [AtPacket, hst]
    rintro ⟨h0, hq⟩
    rw [hoffs] at h0
    rw [hqpn] at hq
    exact absurd ⟨hs, hv, hfirst, hlocal, h0, hq⟩ ho.remote

/-- No packet comes, or the next one of a message does. -/
theorem atPacket_step_idle (h : BufInv init conf q (s, l)) (ho : Orderly q .statrqpidbi s i)
    (hs : s.wr.handler.reqState = .idle) :
    AtPacket q (step s i) (note q l s i) := by
  have hat := h.packet
  simp only [AtPacket, hs] at hat
  have hready := reqReady_of_idle (i := i) (h.inv ⟨.statrqpidbi, by decide⟩).asking hs
  have hans : (note q l s i).answer = l.answer := answer_note (answered_eq_false (by simp [hs]))
  have hstep := handler_step s i
  cases hv : i.wrIn.reqValid with
  | false =>
    have hsame : (step s i).wr.handler = s.wr.handler := by
      rw [hstep]
      exact step_idle_of_quiet hs hv
    have hb : (note q l s i).before = l.before ∧ (note q l s i).size = l.size := by
      simp [note, hears, hv]
    simp only [AtPacket, hsame, hs]
    refine ⟨hat.1, fun hfirst hsend => ?_⟩
    obtain ⟨herr, hacc, hpaddr⟩ := hat.2 hfirst hsend
    exact ⟨by rw [hsame, herr], by rw [hsame, hacc], by rw [hsame, hans, hb.1, hb.2, hpaddr]⟩
  | true =>
    have hv' : (s.wr.handlerIn i.wrIn).reqValid = true := hv
    have hhears : hears s i = true := by simp [hears, hv, hs]
    have hsize : (note q l s i).size = i.wrIn.reqData.len.toNat := by simp [note, hhears]
    cases hfirst : s.wr.handler.first with
    | false =>
      have hbefore : (note q l s i).before = l.before + l.size := by
        simp [note, hhears, hfirst]
      have hnext : (step s i).wr.handler =
          { s.wr.handler with
            len := i.wrIn.reqData.len
            totalLen := s.wr.handler.totalLen + i.wrIn.reqData.len.setWidth 48
            first := i.wrIn.reqData.last
            reqState := .middle } := by
        rw [hstep]
        exact step_idle_of_later hs hv' hready hfirst
      simp only [AtPacket, hnext]
      intro hsend
      obtain ⟨herr, hacc, hpaddr⟩ := hat.2 hfirst hsend
      exact ⟨by rw [hnext, ← herr], by rw [hnext, ← hacc], by rw [hnext, hans, hbefore, ← hpaddr],
        by rw [hnext, hsize]⟩
    | true => exact atPacket_step_first h ho hs hv hfirst

/-- `RQ_SENDCMD` waits until the command is taken.  Behind the last packet of a message the handler
is ready for a first one again, by way of `RQ_WB_DBADD` if it was a SEND. -/
theorem atPacket_step_sendCmd (h : BufInv init conf q (s, l))
    (hs : s.wr.handler.reqState = .sendCmd) :
    AtPacket q (step s i) (note q l s i) := by
  have hat := h.packet
  simp only [AtPacket, hs] at hat
  obtain ⟨hb, hz⟩ := before_note (q := q) (l := l) (i := i)
    (show s.wr.handler.reqState ≠ .idle by simp [hs])
  have hans : (note q l s i).answer = l.answer := answer_note (answered_eq_false (by simp [hs]))
  have hstep := handler_step s i
  cases hr : i.wrIn.cmdReady with
  | false =>
    have hsame : (step s i).wr.handler = s.wr.handler := by
      rw [hstep]
      exact step_sendCmd_of_not_ready hs hr
    simp only [AtPacket, hsame, hs]
    intro hsend
    obtain ⟨⟨herr, hacc, hpaddr⟩, hcmd, hlen⟩ := hat hsend
    exact ⟨⟨by rw [hsame, herr], by rw [hsame, hacc], by rw [hsame, hans, hb, hz, hpaddr]⟩,
      by rw [hsame, hans, hb, hcmd], by rw [hsame, hz, hlen]⟩
  | true =>
    have hr' : (s.wr.handlerIn i.wrIn).cmdReady = true := hr
    cases hfirst : s.wr.handler.first with
    | false =>
      have hnext : (step s i).wr.handler = { s.wr.handler with reqState := .idle } := by
        rw [hstep]
        exact step_sendCmd_of_later hs hr' hfirst
      simp only [AtPacket, hnext]
      refine ⟨fun hno => absurd (hfirst.symm.trans hno) (by decide), fun _ hsend => ?_⟩
      obtain ⟨⟨herr, hacc, hpaddr⟩, -, -⟩ := hat hsend
      exact ⟨by rw [hnext, ← herr], by rw [hnext, ← hacc], by rw [hnext, hans, hb, hz, ← hpaddr]⟩
    | true =>
      by_cases h0 : s.wr.handler.offsVaddr = 0#64
      · have hnext : (step s i).wr.handler.reqState = .wbDbAdd ∧
            (step s i).wr.handler.errSt = false := by
          rw [hstep, step_sendCmd_of_send hs hr' hfirst h0]
          exact ⟨rfl, rfl⟩
        simp only [AtPacket, hnext]
      · have hnext : (step s i).wr.handler.reqState = .idle ∧
            (step s i).wr.handler.errSt = false ∧ (step s i).wr.handler.first = true := by
          rw [hstep, step_sendCmd_of_last hs hr' hfirst h0]
          exact ⟨rfl, rfl, hfirst⟩
        obtain ⟨hst, herr, hf⟩ := hnext
        simp only [AtPacket, hst]
        exact ⟨fun _ => herr, fun hno => absurd (hf.symm.trans hno) (by decide)⟩

/-- `RQ_WB_DBADD` ends the SEND. -/
theorem atPacket_step_wbDbAdd (h : BufInv init conf q (s, l))
    (hs : s.wr.handler.reqState = .wbDbAdd) :
    AtPacket q (step s i) (note q l s i) := by
  have hat := h.packet
  simp only [AtPacket, hs] at hat
  have hfirst := (h.inv ⟨.statrqpidbi, by decide⟩).handler
  simp only [AtHandler, hs] at hfirst
  have hnext : (step s i).wr.handler = { s.wr.handler with reqState := .idle } := by
    rw [handler_step]
    exact step_wbDbAdd hs _
  simp only [AtPacket, hnext]
  exact ⟨fun _ => hat, fun hno => absurd (hfirst.1.symm.trans hno) (by decide)⟩

/-- **One clock edge**, by the state of the handler. -/
theorem BufInv.step (h : BufInv init conf q (s, l)) (ho : Undisturbed q s i) :
    BufInv init conf q (Receiving.step s i, note q l s i) := by
  have hpidb := ho.1 .statrqpidbi (by decide)
  have howned := (h.inv ⟨.statrqpidbi, by decide⟩).owned
  refine ⟨fun k => (h.inv k).step k.2 (ho.1 k.1 k.2) (h.sendAnswer hpidb), ?_,
    h.rows.step ho.2, (qpconfi_step h.writes ho.2).trans h.conf, h.writes.step howned⟩
  cases hs : s.wr.handler.reqState with
  | idle => exact atPacket_step_idle h hpidb hs
  | getPaddr => exact atPacket_step_getPaddr h hs
  | middle => exact atPacket_step_middle h hs
  | sendCmd => exact atPacket_step_sendCmd h hs
  | wbDbAdd => exact atPacket_step_wbDbAdd h hs

/-- So it holds in every undisturbed run, from the pointers that are in the registers. -/
theorem bufInv_run (q : BitVec 8) (regs : RegFile) (is : List Input)
    (h : (receiving q regs).Guarded (fun s i => Undisturbed q s.1 i) (receiving q regs).reset is) :
    (receiving q regs).Always (BufInv (.ofRow (regs.qp q)) (regs.qp q qpconfiIdx) q)
      (receiving q regs).reset is := by
  refine Machine.always_of_guarded (fun s i hs ho => hs.step ho) ?_ h
  exact ⟨fun k => inv_reset k.2 regs, ⟨fun _ => rfl, fun hno => nomatch hno⟩, rows_reset regs, rfl,
    nofun⟩

/-- The pointer has moved by one buffer for every SEND, however long the SEND was. -/
theorem addr_left {done : List DmaReq} (h : Follows init done)
    (hgood : ∀ resp ∈ done, SendAnswer conf resp) :
    (left init done).addr =
      init.addr + BitVec.ofNat 64 (done.length * (bufLen conf).toNat) := by
  induction done with
  | nil => simp [left]
  | cons resp rest ih =>
    have haddr : resp.paddr = (left init rest).addr := congrArg Pointers.addr h.1
    have hnext : (left init (resp :: rest)).addr = resp.paddr + resp.buflen.setWidth 64 := rfl
    rw [hnext, haddr, ih h.2 fun r hr => hgood r (List.mem_cons_of_mem _ hr),
      (hgood resp List.mem_cons_self).1, List.length_cons, Nat.succ_mul, BitVec.ofNat_add,
      BitVec.ofNat_toNat, BitVec.add_assoc]

/-- **Where a packet of a SEND goes.**  The command of a packet of SEND `n + 1` to `q`
begins `n` buffers and the packets before it behind the address that the run began with,
and it is as long as the packet, up to 23 bits. -/
theorem BufInv.command (h : BufInv init conf q (s, l)) (hs : s.wr.handler.reqState = .sendCmd)
    (hsend : ForSend q s.wr.handler) :
    commandAddr s.wr.handler.cmdData =
        init.addr + BitVec.ofNat 64 (l.done.length * (bufLen conf).toNat + l.before) ∧
      commandBytes s.wr.handler.cmdData = l.size % 2 ^ 23 := by
  have hat := h.packet
  simp only [AtPacket, hs] at hat
  obtain ⟨-, hcmd, hlen⟩ := hat hsend
  have hans : .ofAnswer l.answer = left init l.done := by
    refine Pointers.eq_of_word fun k hk => ?_
    have hk' := (h.inv ⟨k, hk⟩).handler
    simp only [AtHandler, hs] at hk'
    exact (hk' hsend.1 hsend.2).current.word
  have hfollows : Follows init l.done := follows_of_forall fun k hk => (h.inv ⟨k, hk⟩).follows
  have haddr : l.answer.paddr = (left init l.done).addr := congrArg Pointers.addr hans
  rw [hcmd, commandAddr_cmdWord, commandBytes_cmdWord, hlen, haddr,
    addr_left hfollows (h.inv ⟨.statrqpidbi, by decide⟩).good, BitVec.ofNat_add, BitVec.add_assoc]
  exact ⟨rfl, rfl⟩

end Step

end Receiving
end RecoNIC
