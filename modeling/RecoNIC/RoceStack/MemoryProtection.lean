import Mathlib.Algebra.Order.BigOperators.Group.List
import Mathlib.Algebra.Order.Group.Nat
import Mathlib.Data.List.GetD
import RecoNIC.RoceStack.Side
import RecoNIC.Synchronous.Machine

/-!
# Memory protection

A request handler and its address-lookup machine, wired as in
`roce_stack_axis_to_aximm.sv`, over any contents of the register file.  The
register port answers a lookup whenever it likes, with the registers that were
asked for.  A remote message is offered packet by packet at any pace.

What is recorded is each packet's *own* command: one that is handed over while
`err_st` is low, with the number of its packet.  (`err_st` is low in
`RQ_SENDCMD` exactly when the check of this packet loaded the register.)

* `own_iff` says which commands these are: packet `k` gets its own command in
  some run iff the check passes for it and for the packets before it, and the
  word is then the translated address and the length of the packet.
* `own_permitted_iff` compares that with what protection asks.  The length check
  binds to the descriptor `0b0010` alone, so the other two descriptors that let a
  direction pass bound nothing; and with `0b0010` the compared length is a
  48-bit difference, which a distant address can alias.
-/

namespace RecoNIC
namespace MemoryProtection

open Synchronous RequestHandler

/-! ## Messages -/

/-- A remote message as the stack hands it to the handler with the parameter
`READ`: packets whose address needs a lookup, the last one marked.  An inbound
write carries an address that is not zero; zero marks a SEND. -/
structure Message (READ : Bool) where
  packets : List Req
  packets_ne : packets ≠ []
  remote : ∀ r ∈ packets, isLocal READ r.opcode = false
  last_iff : ∀ k < packets.length,
    (packets.getD k default).last = decide (k + 1 = packets.length)
  vaddr_ne : READ = false → (packets.getD 0 default).vaddr ≠ 0

variable {READ : Bool}

namespace Message

variable (m : Message READ)

/-- The number of packets. -/
def size : ℕ := m.packets.length

/-- The packet number `k`. -/
def packet (k : ℕ) : Req := m.packets.getD k default

/-- The address of the message, which its first packet carries. -/
def vaddr : BitVec 64 := (m.packet 0).vaddr

/-- The key and, above it, the number of the protection-domain entry. -/
def tag : BitVec 32 := (m.packet 0).tag

/-- The queue pair of the message. -/
def qpn : BitVec 16 := (m.packet 0).qpn

/-- The length of the first `k` packets together. -/
def bytes (k : ℕ) : ℕ := ((m.packets.take k).map fun r => r.len.toNat).sum

theorem size_pos : 0 < m.size := List.length_pos_iff.mpr m.packets_ne

@[simp] theorem bytes_zero : m.bytes 0 = 0 := by simp [bytes]

theorem packet_eq {k : ℕ} (hk : k < m.packets.length) : m.packet k = m.packets[k] :=
  List.getD_eq_getElem _ _ hk

theorem bytes_succ {k : ℕ} (hk : k < m.size) :
    m.bytes (k + 1) = m.bytes k + (m.packet k).len.toNat := by
  have hk' : k < m.packets.length := hk
  rw [m.packet_eq hk', bytes, bytes, List.take_add_one, List.getElem?_eq_getElem hk',
    List.map_append, List.sum_append]
  simp

theorem bytes_mono {j k : ℕ} (h : j ≤ k) : m.bytes j ≤ m.bytes k :=
  ((List.take_sublist_take_left h).map _).sum_le_sum fun _ _ => Nat.zero_le _

theorem packet_remote {k : ℕ} (hk : k < m.size) : isLocal READ (m.packet k).opcode = false := by
  refine m.remote _ ?_
  rw [m.packet_eq hk]
  exact List.getElem_mem hk

theorem packet_last {k : ℕ} (hk : k < m.size) :
    (m.packet k).last = decide (k + 1 = m.size) :=
  m.last_iff k hk

end Message

variable (regs : RegFile) (m : Message READ)

/-! ## What protection asks -/

/-- The protection-domain entry the message names. -/
def pdRow : RegRow := regs.pd (m.tag.extractLsb' 8 8)

/-- The protection domain of the queue pair of the message. -/
def qpPdnum : BitVec 24 := (regs.qp (m.qpn.setWidth 8) pdnumiIdx).setWidth 24

/-- The protection domain of the entry. -/
def pdPdnum : BitVec 24 := (pdRow regs m pdpdnumIdx).setWidth 24

/-- The key of the entry. -/
def bufrkey : BitVec 8 := (pdRow regs m bufrkeyIdx).setWidth 8

/-- The access descriptor of the entry. -/
def accessdesc : BitVec 4 := (pdRow regs m accessdescIdx).setWidth 4

/-- `VIRTADDR` of the entry. -/
def virtaddr : BitVec 64 := pdRow regs m virtaddrmsbIdx ++ pdRow regs m virtaddrlsbIdx

/-- `BUFBASEADDR` of the entry. -/
def bufbaseaddr : BitVec 64 := pdRow regs m bufbaseaddrmsbIdx ++ pdRow regs m bufbaseaddrlsbIdx

/-- The length of the region, split over two registers. -/
def buflen : BitVec 48 :=
  (pdRow regs m accessdescIdx).extractLsb' 16 16 ++ pdRow regs m wrrdbuflenIdx

/-- The descriptors that let a direction pass: `0b0010` both, `0b0000` reads and
`0b0001` writes. -/
def permits (READ : Bool) (desc : BitVec 4) : Prop :=
  desc = 0b0010 ∨ desc = if READ then 0b0000 else 0b0001

/-- The bytes of the first `k` packets lie in the region, as unbounded numbers. -/
def Inside (k : ℕ) : Prop :=
  ∀ a, m.vaddr.toNat ≤ a → a < m.vaddr.toNat + m.bytes k →
    (virtaddr regs m).toNat ≤ a ∧ a < (virtaddr regs m).toNat + (buflen regs m).toNat

/-- What must hold for packet `k` to be given its command. -/
structure Permitted (k : ℕ) : Prop where
  rkey : m.tag.setWidth 8 = bufrkey regs m
  pdnum : pdPdnum regs m = qpPdnum regs m
  direction : permits READ (accessdesc regs m)
  range : Inside regs m (k + 1)

/-! ## The handler and its lookup machine -/

/-- A side, the number of packets accepted so far and the own commands handed over
so far, each with the number of its packet. -/
structure Session extends Side where
  accepted : ℕ
  own : List (ℕ × BitVec 104)

/-- What the surroundings decide in one cycle: whether the next packet is
offered, whether the register port answers, and whether the data mover takes a
command. -/
structure Cycle where
  offer : Bool
  findPdReady : Bool
  cmdReady : Bool

namespace Session

variable (s : Session) (c : Cycle)

/-- The register port, answering with the registers that were asked for. -/
def port (s : Session) (c : Cycle) : Vtp.PortView where
  findPdReady := c.findPdReady
  qpRdReg := regs.qp s.vtp.findPd.address
  qpRdRegQ := regs.qp s.vtp.findPd.address
  pdRdRegQ := regs.pd s.vtp.findPd.address

/-- The next packet, and the data mover. -/
def sideIn : SideIn :=
  ⟨c.offer && decide (s.accepted < m.size), m.packet s.accepted, c.cmdReady⟩

/-- The inputs of the handler. -/
def handlerIn : RequestHandler.Input := s.toSide.handlerIn (s.sideIn m c)

/-- One clock edge. -/
def step : Session where
  toSide := s.toSide.step READ (s.sideIn m c) (s.port regs c)
  accepted := if s.handler.reqReady && (s.handlerIn m c).reqValid then s.accepted + 1
    else s.accepted
  own := if handsOver s.handler (s.handlerIn m c) && !s.handler.errSt then
    s.own ++ [(s.accepted - 1, s.handler.cmdData)] else s.own

@[simp] theorem handler_step :
    (s.step regs m c).handler = RequestHandler.step READ s.handler (s.handlerIn m c) := rfl

@[simp] theorem vtp_step :
    (s.step regs m c).vtp =
      Vtp.step READ s.vtp s.lookup s.handler.respAddrReady (s.port regs c) := rfl

theorem reqValid_handlerIn :
    (s.handlerIn m c).reqValid = (c.offer && decide (s.accepted < m.size)) := rfl

@[simp] theorem reqData_handlerIn : (s.handlerIn m c).reqData = m.packet s.accepted := rfl

@[simp] theorem reqAddrReady_handlerIn :
    (s.handlerIn m c).reqAddrReady = s.vtp.reqReady s.lookup := rfl

@[simp] theorem respAddrValid_handlerIn : (s.handlerIn m c).respAddrValid = s.vtp.respValid := rfl

@[simp] theorem respAddrData_handlerIn :
    (s.handlerIn m c).respAddrData = s.vtp.respAddrData := rfl

@[simp] theorem cmdReady_handlerIn : (s.handlerIn m c).cmdReady = c.cmdReady := rfl

end Session

/-- The session of the message `m` out of a handler and a lookup machine. -/
def session (h : Handler) (v : Vtp.Regs) : Machine Session Cycle :=
  ⟨⟨⟨h, v⟩, 0, []⟩, Session.step regs m⟩

/-- Between two messages: reset, or what the end of a message leaves. -/
structure Between (h : Handler) (v : Vtp.Regs) : Prop where
  idle : h.reqState = .idle
  first : h.first = true
  totalLen : h.totalLen = 0
  errSt : h.errSt = false
  vtp : v.st = .idle

/-! ## What the check computes -/

/-- The running length after `k` packets, as the 48-bit register holds it. -/
def runLen (k : ℕ) : BitVec 48 :=
  (m.vaddr - virtaddr regs m).setWidth 48 + BitVec.ofNat 48 (m.bytes k)

/-- The physical address of packet `k`. -/
def packetPaddr (k : ℕ) : BitVec 64 :=
  bufbaseaddr regs m + (m.vaddr - virtaddr regs m) + BitVec.ofNat 64 (m.bytes k)

/-- The key check of the lookup. -/
structure KeyOk : Prop where
  vaddr : m.vaddr ≠ 0
  rkey : m.tag.setWidth 8 = bufrkey regs m
  pdnum : pdPdnum regs m = qpPdnum regs m

/-- The check of the packet that brings the message to `k` packets. -/
def LenOk (k : ℕ) : Prop :=
  runLen regs m k ≤ buflen regs m ∧ accessdesc regs m = 0b0010 ∨
    accessdesc regs m = if READ then 0b0000 else 0b0001

/-- The checks of the first `k` packets pass. -/
def Passes (k : ℕ) : Prop :=
  KeyOk regs m ∧ ∀ j, 0 < j → j ≤ k → LenOk regs m j

theorem passes_succ {k : ℕ} :
    Passes regs m (k + 1) ↔ Passes regs m k ∧ LenOk regs m (k + 1) := by
  constructor
  · rintro ⟨hkey, hlen⟩
    exact ⟨⟨hkey, fun j h0 hj => hlen j h0 (by omega)⟩, hlen _ (by omega) le_rfl⟩
  · rintro ⟨⟨hkey, hlen⟩, hlast⟩
    refine ⟨hkey, fun j h0 hj => ?_⟩
    rcases Nat.lt_or_eq_of_le hj with hlt | rfl
    · exact hlen j h0 (by omega)
    · exact hlast

/-- The own command of packet `k`. -/
def ownCommand (k : ℕ) : BitVec 104 := cmdWord (packetPaddr regs m k) (m.packet k).len

/-! ## The phases of a session -/

/-- What a lookup machine holds that serves this message. -/
def LookupAt (v : Vtp.Regs) : Prop :=
  match v.st with
  | .idle => True
  | .rdPdn => v.findPd.address = m.qpn.setWidth 8 ∧ m.vaddr ≠ 0
  | .reqPd => v.qpPdnum = qpPdnum regs m ∧ m.vaddr ≠ 0
  | .prepResp =>
    v.findPd.address = m.tag.extractLsb' 8 8 ∧ v.qpPdnum = qpPdnum regs m ∧ m.vaddr ≠ 0
  | .valid => m.vaddr ≠ 0 → ∃ old,
    v.respAddrData = Vtp.prepResp old (qpPdnum regs m) (pdRow regs m)
  | _ => False

/-- What the handler has learnt about the region once the address is known: the
running length covers `k` packets, and the address is the one of packet `j`. -/
structure Knows (h : Handler) (k j : ℕ) : Prop where
  buflen : h.buflen = buflen regs m
  accessdesc : h.accessdesc = accessdesc regs m
  totalLen : h.totalLen = runLen regs m k
  paddr : h.paddr = packetPaddr regs m j

/-- Before the first packet. -/
structure AtStart (s : Session) : Prop where
  reqState : s.handler.reqState = .idle
  first : s.handler.first = true
  totalLen : s.handler.totalLen = 0
  errSt : s.handler.errSt = false
  vtp : s.vtp.st = .idle
  accepted : s.accepted = 0

/-- The first packet waits for its address. -/
structure InLookup (s : Session) : Prop where
  reqState : s.handler.reqState = .getPaddr
  accepted : s.accepted = 1
  totalLen : s.handler.totalLen = (m.packet 0).len.setWidth 48
  len : s.handler.len = (m.packet 0).len
  first : s.handler.first = decide (1 = m.size)
  errSt : s.handler.errSt = false
  tag : s.handler.tag = m.tag.setWidth 33
  qpn : s.handler.qpn = m.qpn
  offsVaddr : s.handler.offsVaddr = m.vaddr
  vtp : LookupAt regs m s.vtp

/-- What holds after the lookup, while packet `k` is the last one accepted. -/
structure Serving (s : Session) (k : ℕ) : Prop where
  accepted : s.accepted = k + 1
  lt_size : k < m.size
  first : s.handler.first = decide (k + 1 = m.size)
  offsVaddr : s.handler.offsVaddr = m.vaddr
  vtp : s.vtp.st = .idle

/-- Packet `k` is in `RQ_MIDDLE`. -/
structure AtCheck (s : Session) (k : ℕ) : Prop extends Serving m s k where
  reqState : s.handler.reqState = .middle
  len : s.handler.len = (m.packet k).len
  errSt : s.handler.errSt = false ↔ Passes regs m k
  knows : m.vaddr ≠ 0 → Knows regs m s.handler (k + 1) k

/-- Packet `k` is in `RQ_SENDCMD`. -/
structure AtSend (s : Session) (k : ℕ) : Prop extends Serving m s k where
  reqState : s.handler.reqState = .sendCmd
  errSt : s.handler.errSt = false ↔ Passes regs m (k + 1)
  knows : m.vaddr ≠ 0 → Knows regs m s.handler (k + 1) (k + 1)
  cmdData : Passes regs m (k + 1) → s.handler.cmdData = ownCommand regs m k

/-- Packet `k` is done and another one is to come. -/
structure BetweenPackets (s : Session) (k : ℕ) : Prop extends Serving m s k where
  reqState : s.handler.reqState = .idle
  more : k + 1 < m.size
  errSt : s.handler.errSt = false ↔ Passes regs m (k + 1)
  knows : m.vaddr ≠ 0 → Knows regs m s.handler (k + 1) (k + 1)

/-- The message is done. -/
structure Done (s : Session) : Prop where
  reqState : s.handler.reqState = .idle
  accepted : s.accepted = m.size
  vtp : s.vtp.st = .idle

/-- The phases a session goes through. -/
def Phases (s : Session) : Prop :=
  AtStart s ∨ InLookup regs m s ∨ (∃ k, AtCheck regs m s k) ∨ (∃ k, AtSend regs m s k) ∨
    (∃ k, BetweenPackets regs m s k) ∨ Done m s

/-! ## One cycle in each phase -/

section Cycle

variable {regs m} {s : Session} {k : ℕ} (c : Cycle)

/-- A lookup machine that is not asked stays idle, ready for a question. -/
theorem vtp_step_of_not_asked (hv : s.vtp.st = .idle) (hs : s.handler.reqState ≠ .getPaddr) :
    (s.step regs m c).vtp = s.vtp ∧ s.vtp.reqReady s.lookup = true := by
  have hask : s.lookup.valid = false := by
    simp [Side.lookup, Handler.reqAddrValid, hs]
  constructor
  · cases READ <;> simp [Vtp.step, Vtp.rdStep, Vtp.wrStep, hv, hask]
  · simp [Vtp.Regs.reqReady, hv, hask]

theorem own_step_of_not_sendCmd (hs : s.handler.reqState ≠ .sendCmd) :
    (s.step regs m c).own = s.own := by
  simp [Session.step, handsOver, Handler.cmdValid, hs]

theorem AtStart.step (h : AtStart s) :
    AtStart (s.step regs m c) ∧ c.offer = false ∨ InLookup regs m (s.step regs m c) := by
  have hs := h.reqState
  obtain ⟨hvtp, hready⟩ := @vtp_step_of_not_asked _ regs m _ c h.vtp (by simp [hs])
  cases hoff : c.offer with
  | false =>
    left
    have hstep : (s.step regs m c).handler = s.handler := by
      simp [RequestHandler.step, Session.reqValid_handlerIn, hs, hoff]
    refine ⟨⟨?_, ?_, ?_, ?_, ?_, ?_⟩, rfl⟩
    · rw [hstep, hs]
    · rw [hstep, h.first]
    · rw [hstep, h.totalLen]
    · rw [hstep, h.errSt]
    · rw [hvtp, h.vtp]
    · simp [Session.step, Session.reqValid_handlerIn, hoff, h.accepted]
  | true =>
    right
    have hvalid : (s.handlerIn m c).reqValid = true := by
      simp [Session.reqValid_handlerIn, hoff, h.accepted, m.size_pos]
    have hstep : (s.step regs m c).handler =
        { s.handler with
          len := (m.packet 0).len
          totalLen := (m.packet 0).len.setWidth 48
          first := (m.packet 0).last
          qpn := m.qpn
          tag := m.tag.setWidth 33
          offsVaddr := m.vaddr
          reqState := .getPaddr } := by
      have hrem := m.packet_remote m.size_pos
      simp only [Session.handler_step, RequestHandler.step, hs, hvalid]
      simp [hrem, hready, h.first, h.totalLen, h.accepted, Message.qpn,
        Message.tag, Message.vaddr]
    refine ⟨by rw [hstep], ?_, by rw [hstep], by rw [hstep], ?_, by rw [hstep, h.errSt],
      by rw [hstep], by rw [hstep], by rw [hstep], ?_⟩
    · simp [Session.step, Handler.reqReady, hs, hvalid, h.accepted]
    · rw [hstep]
      exact m.packet_last m.size_pos
    · rw [hvtp]
      simp [LookupAt, h.vtp]

theorem Done.step (h : Done m s) : Done m (s.step regs m c) := by
  have hs := h.reqState
  obtain ⟨hvtp, -⟩ := @vtp_step_of_not_asked _ regs m _ c h.vtp (by simp [hs])
  have hvalid : (s.handlerIn m c).reqValid = false := by
    simp [Session.reqValid_handlerIn, h.accepted]
  refine ⟨?_, ?_, by rw [hvtp, h.vtp]⟩
  · simp [RequestHandler.step, hs, hvalid]
  · simp [Session.step, hvalid, h.accepted]

theorem BetweenPackets.step (h : BetweenPackets regs m s k) :
    BetweenPackets regs m (s.step regs m c) k ∧ c.offer = false ∨
      AtCheck regs m (s.step regs m c) (k + 1) := by
  have hs := h.reqState
  obtain ⟨hvtp, hready⟩ := @vtp_step_of_not_asked _ regs m _ c h.vtp (by simp [hs])
  have hfirst : s.handler.first = false := by
    rw [h.first]
    exact decide_eq_false h.more.ne
  cases hoff : c.offer with
  | false =>
    left
    have hstep : (s.step regs m c).handler = s.handler := by
      simp [RequestHandler.step, Session.reqValid_handlerIn, hs, hoff]
    refine ⟨⟨⟨?_, h.lt_size, by rw [hstep, h.first], by rw [hstep, h.offsVaddr],
      by rw [hvtp, h.vtp]⟩, by rw [hstep, hs], h.more, by rw [hstep]; exact h.errSt, ?_⟩, rfl⟩
    · simp [Session.step, Session.reqValid_handlerIn, hoff, h.accepted]
    · intro hv
      rw [hstep]
      exact h.knows hv
  | true =>
    right
    have hvalid : (s.handlerIn m c).reqValid = true := by
      simp [Session.reqValid_handlerIn, hoff, h.accepted, h.more]
    have hstep : (s.step regs m c).handler =
        { s.handler with
          len := (m.packet (k + 1)).len
          totalLen := s.handler.totalLen + (m.packet (k + 1)).len.setWidth 48
          first := (m.packet (k + 1)).last
          reqState := .middle } := by
      have hrem := m.packet_remote h.more
      simp only [Session.handler_step, RequestHandler.step, hs, hvalid]
      simp [hrem, hready, hfirst, h.accepted]
    refine ⟨⟨?_, h.more, ?_, by rw [hstep]; exact h.offsVaddr, by rw [hvtp, h.vtp]⟩,
      by rw [hstep], by rw [hstep], by rw [hstep]; exact h.errSt, ?_⟩
    · simp [Session.step, Handler.reqReady, hs, hvalid, h.accepted]
    · rw [hstep]
      exact m.packet_last h.more
    · intro hv
      obtain ⟨hbuf, hacc, htot, hpa⟩ := h.knows hv
      rw [hstep]
      refine ⟨hbuf, hacc, ?_, hpa⟩
      simp only [htot, runLen, m.bytes_succ h.more, BitVec.ofNat_add]
      rw [BitVec.add_assoc]
      congr 2
      rw [BitVec.ofNat_toNat]

/-- The check of `RQ_MIDDLE` is the check of the packets so far. -/
theorem AtCheck.checkPasses_iff (h : AtCheck regs m s k) :
    checkPasses READ s.handler = true ↔ Passes regs m (k + 1) := by
  rw [passes_succ, ← h.errSt]
  cases herr : s.handler.errSt with
  | true => simp [checkPasses, herr]
  | false =>
    have hv : m.vaddr ≠ 0 := (h.errSt.mp herr).1.vaddr
    obtain ⟨hbuf, hacc, htot, -⟩ := h.knows hv
    cases READ <;> simp [checkPasses, herr, hbuf, hacc, htot, LenOk]

theorem AtCheck.step (h : AtCheck regs m s k) : AtSend regs m (s.step regs m c) k := by
  have hs := h.reqState
  obtain ⟨hvtp, -⟩ := @vtp_step_of_not_asked _ regs m _ c h.vtp (by simp [hs])
  have hacc : (s.step regs m c).accepted = k + 1 := by
    simp [Session.step, Handler.reqReady, hs, h.accepted]
  have hhandler : (s.step regs m c).handler =
      { s.handler with
        cmdData := if checkPasses READ s.handler then cmdWord s.handler.paddr s.handler.len
          else s.handler.cmdData
        errSt := !checkPasses READ s.handler
        paddr := s.handler.paddr + s.handler.len.setWidth 64
        reqState := .sendCmd } := by
    cases hc : checkPasses READ s.handler with
    | false => simp [RequestHandler.step, hs, hc]
    | true =>
      have herr : s.handler.errSt = false := by
        have := @errSt_step_of_middle READ _ (s.handlerIn m c) hs
        simpa [RequestHandler.step, hs, hc] using this
      simp [RequestHandler.step, hs, hc, herr]
  refine ⟨⟨hacc, h.lt_size, ?_, ?_, by rw [hvtp, h.vtp]⟩, ?_, ?_, ?_, ?_⟩
  · rw [hhandler]
    exact h.first
  · rw [hhandler]
    exact h.offsVaddr
  · rw [hhandler]
  · rw [hhandler, ← h.checkPasses_iff]
    simp
  · intro hv
    obtain ⟨hbuf, hdesc, htot, hpa⟩ := h.knows hv
    rw [hhandler]
    refine ⟨hbuf, hdesc, htot, ?_⟩
    simp only [hpa, h.len, packetPaddr, m.bytes_succ h.lt_size, BitVec.ofNat_add,
      BitVec.add_assoc]
    congr 3
    exact (BitVec.ofNat_toNat _ _).symm
  · intro hp
    obtain ⟨-, -, -, hpa⟩ := h.knows hp.1.vaddr
    rw [hhandler]
    simp only [h.checkPasses_iff.mpr hp, if_true, ownCommand, hpa, h.len]

theorem AtSend.step_handler (h : AtSend regs m s k) (hc : c.cmdReady = true) :
    (s.step regs m c).handler =
      if k + 1 = m.size then
        { s.handler with totalLen := 0, errSt := false, reqState := .idle }
      else { s.handler with reqState := .idle } := by
  have hwrite : ¬ (s.handler.offsVaddr = 0#64 ∧ READ = false) := by
    rintro ⟨hzero, hR⟩
    exact m.vaddr_ne hR (h.offsVaddr.symm.trans hzero)
  simp [RequestHandler.step, h.reqState, hc, h.first, hwrite]

theorem AtSend.step (h : AtSend regs m s k) :
    AtSend regs m (s.step regs m c) k ∧ c.cmdReady = false ∨
      BetweenPackets regs m (s.step regs m c) k ∨
        k + 1 = m.size ∧ Done m (s.step regs m c) := by
  have hs := h.reqState
  obtain ⟨hvtp, -⟩ := @vtp_step_of_not_asked _ regs m _ c h.vtp (by simp [hs])
  have hacc : (s.step regs m c).accepted = k + 1 := by
    simp [Session.step, Handler.reqReady, hs, h.accepted]
  cases hc : c.cmdReady with
  | false =>
    left
    have hhandler : (s.step regs m c).handler = s.handler := by
      simp [RequestHandler.step, hs, hc]
    exact ⟨⟨⟨hacc, h.lt_size, by rw [hhandler, h.first], by rw [hhandler, h.offsVaddr],
      by rw [hvtp, h.vtp]⟩, by rw [hhandler, hs], by rw [hhandler]; exact h.errSt,
      by rw [hhandler]; exact h.knows, by rw [hhandler]; exact h.cmdData⟩, rfl⟩
  | true =>
    right
    have hhandler := h.step_handler c hc
    by_cases hlast : k + 1 = m.size
    · right
      rw [if_pos hlast] at hhandler
      exact ⟨hlast, by rw [hhandler], by rw [hacc, hlast], by rw [hvtp, h.vtp]⟩
    · left
      rw [if_neg hlast] at hhandler
      refine ⟨⟨hacc, h.lt_size, by rw [hhandler]; exact h.first,
        by rw [hhandler]; exact h.offsVaddr, by rw [hvtp, h.vtp]⟩, by rw [hhandler],
        Nat.lt_of_le_of_ne h.lt_size hlast, by rw [hhandler]; exact h.errSt, ?_⟩
      intro hv
      obtain ⟨hbuf, hdesc, htot, hpa⟩ := h.knows hv
      rw [hhandler]
      exact ⟨hbuf, hdesc, htot, hpa⟩

/-- How many register-port answers and steps the lookup machine still needs. -/
def lookupRank : Vtp.State → ℕ
  | .idle => 4
  | .rdPdn => 3
  | .reqPd => 2
  | .prepResp => 1
  | _ => 0

/-- The lookup machine answers the question of this message. -/
theorem LookupAt.step (h : InLookup regs m s) (hst : s.vtp.st ≠ .valid) :
    LookupAt regs m (s.step regs m c).vtp ∧
      (c.findPdReady = true → lookupRank (s.step regs m c).vtp.st < lookupRank s.vtp.st) := by
  have hask : s.lookup = ⟨true, m.vaddr, m.tag.extractLsb' 8 24, m.qpn⟩ := by
    simp only [Side.lookup, Handler.reqAddrValid, Handler.reqAddrPdidx, h.reqState,
      h.offsVaddr, h.qpn, h.tag]
    congr 1
  have hpd : (m.tag.extractLsb' 8 24).setWidth 8 = m.tag.extractLsb' 8 8 := by
    ext i hi
    simp [BitVec.getElem_extractLsb', show i < 24 by omega]
  have hv := h.vtp
  simp only [Session.vtp_step, hask]
  cases hs : s.vtp.st with
  | idle =>
    cases READ with
    | false =>
      have hz : ¬ m.vaddr = 0#64 := m.vaddr_ne rfl
      simp [Vtp.step, Vtp.wrStep, hs, Vtp.Regs.askQp, Vtp.qpCmd, LookupAt, lookupRank, hz]
    | true =>
      by_cases hz : m.vaddr = 0#64
      · simp [Vtp.step, Vtp.rdStep, hs, hz, LookupAt, lookupRank]
      · simp [Vtp.step, Vtp.rdStep, hs, hz, Vtp.Regs.askQp, Vtp.qpCmd, LookupAt, lookupRank]
  | rdPdn =>
    simp only [LookupAt, hs] at hv
    obtain ⟨haddr, hz⟩ : _ ∧ ¬ m.vaddr = 0#64 := hv
    cases hr : c.findPdReady with
    | false =>
      cases READ <;> simp [Vtp.step, Vtp.rdStep, Vtp.wrStep, Session.port, hs, hr, LookupAt,
        haddr, hz]
    | true =>
      cases READ <;> simp [Vtp.step, Vtp.rdStep, Vtp.wrStep, Session.port, hs, hr, LookupAt,
        lookupRank, haddr, hz, qpPdnum]
  | reqPd =>
    simp only [LookupAt, hs] at hv
    obtain ⟨hpdnum, hz⟩ : _ ∧ ¬ m.vaddr = 0#64 := hv
    cases READ <;> simp [Vtp.step, Vtp.rdStep, Vtp.wrStep, hs, Vtp.Regs.askPd, Vtp.pdCmd, LookupAt,
      lookupRank, hpdnum, hz, hpd]
  | prepResp =>
    simp only [LookupAt, hs] at hv
    obtain ⟨haddr, hpdnum, hz⟩ : _ ∧ _ ∧ ¬ m.vaddr = 0#64 := hv
    cases hr : c.findPdReady with
    | false =>
      cases READ <;> simp [Vtp.step, Vtp.rdStep, Vtp.wrStep, Vtp.Regs.finish, Session.port, hs,
        hr, LookupAt, haddr, hpdnum, hz]
    | true =>
      cases READ <;> simp [Vtp.step, Vtp.rdStep, Vtp.wrStep, Vtp.Regs.finish, Session.port, hs,
        hr, LookupAt, lookupRank, haddr, hpdnum, pdRow] <;> exact fun _ => ⟨_, rfl⟩
  | valid => exact absurd hs hst
  | rdPdnVld => simp [LookupAt, hs] at hv
  | prepRespVld => simp [LookupAt, hs] at hv
  | rdPd => simp [LookupAt, hs] at hv

/-- The key check of `RQ_GETPADDR` is the key check of the message. -/
theorem keyFails_iff {h : Handler} {old : DmaReq} (htag : h.tag = m.tag.setWidth 33)
    (hoffs : h.offsVaddr = m.vaddr) (hv : m.vaddr ≠ 0) :
    keyFails READ h (Vtp.prepResp old (qpPdnum regs m) (pdRow regs m)) = false ↔
      KeyOk regs m := by
  have hlow : (m.tag.setWidth 33).setWidth 8 = m.tag.setWidth 8 := by simp
  rw [keyFails, Vtp.rkey_prepResp, Vtp.rkey_prepResp_bit, htag, hoffs, hlow]
  have hz : ¬ m.vaddr = 0#64 := hv
  constructor
  · intro hk
    simp [hz] at hk
    exact ⟨hv, hk.1, hk.2.symm⟩
  · rintro ⟨-, hkey, hpd⟩
    have hkey' : m.tag.setWidth 8 = (pdRow regs m bufrkeyIdx).setWidth 8 := hkey
    have hpd' : (pdRow regs m pdpdnumIdx).setWidth 24 = qpPdnum regs m := hpd
    simp [hz, hkey', hpd']

theorem passes_zero : Passes regs m 0 ↔ KeyOk regs m :=
  ⟨And.left, fun h => ⟨h, fun _ h0 hj => absurd h0 (by omega)⟩⟩

/-- The length register after the lookup: the offset in the region and the first
packet. -/
theorem runLen_one :
    (((m.packet 0).len.setWidth 48).setWidth 64 + (m.vaddr - virtaddr regs m)).setWidth 48 =
      runLen regs m 1 := by
  rw [runLen, m.bytes_succ m.size_pos, m.bytes_zero, Nat.zero_add, BitVec.add_comm,
    BitVec.setWidth_add _ _ (by decide), BitVec.ofNat_toNat]
  congr 1
  ext i hi
  simp

/-- The answer of the lookup is taken, and packet 0 goes to `RQ_MIDDLE`. -/
theorem InLookup.step_valid (h : InLookup regs m s) (hst : s.vtp.st = .valid) :
    AtCheck regs m (s.step regs m c) 0 := by
  have hs := h.reqState
  have hacc : (s.step regs m c).accepted = 1 := by
    simp [Session.step, Handler.reqReady, hs, h.accepted]
  have hvtp : (s.step regs m c).vtp.st = .idle := by
    cases READ <;> simp [Vtp.step, Vtp.rdStep, Vtp.wrStep, Vtp.Regs.finish, hst,
      Handler.respAddrReady, hs]
  have hhandler : (s.step regs m c).handler =
      let resp := s.vtp.respAddrData
      { s.handler with
        buflen := resp.buflen
        accessdesc := resp.accesdesc
        rkeyDb := resp.rkey
        errSt := keyFails READ s.handler resp
        paddr := resp.paddr + (m.vaddr - resp.baseVaddr)
        paddrBase := resp.paddr + (m.vaddr - resp.baseVaddr)
        totalLen := (((m.packet 0).len.setWidth 48).setWidth 64 +
          (m.vaddr - resp.baseVaddr)).setWidth 48
        reqState := .middle } := by
    simp [RequestHandler.step, hs, Vtp.Regs.respValid, hst,
      h.errSt, h.totalLen, h.offsVaddr]
  have hanswer := h.vtp
  simp only [LookupAt, hst] at hanswer
  refine ⟨⟨hacc, m.size_pos, ?_, ?_, hvtp⟩, by rw [hhandler], ?_, ?_, ?_⟩
  · rw [hhandler]
    exact h.first
  · rw [hhandler]
    exact h.offsVaddr
  · rw [hhandler]
    exact h.len
  · rw [hhandler, passes_zero]
    by_cases hv : m.vaddr = 0#64
    · have hR : READ = true := by
        by_contra hR
        exact m.vaddr_ne (by simpa using hR) hv
      constructor
      · intro herr
        simp [keyFails, h.offsVaddr, hv, hR] at herr
      · intro hkey
        exact absurd hv hkey.vaddr
    · obtain ⟨old, hold⟩ := hanswer hv
      rw [hold]
      exact keyFails_iff h.tag h.offsVaddr hv
  · intro hv
    obtain ⟨old, hold⟩ := hanswer hv
    rw [hhandler, hold]
    refine ⟨rfl, rfl, runLen_one, ?_⟩
    simp [packetPaddr, Vtp.prepResp, bufbaseaddr, virtaddr]

/-- The lookup goes on until its answer is taken. -/
theorem InLookup.step (h : InLookup regs m s) :
    AtCheck regs m (s.step regs m c) 0 ∨
      InLookup regs m (s.step regs m c) ∧
        (c.findPdReady = true → lookupRank (s.step regs m c).vtp.st < lookupRank s.vtp.st) := by
  by_cases hst : s.vtp.st = .valid
  · exact Or.inl (h.step_valid c hst)
  · right
    have hs := h.reqState
    have hacc : (s.step regs m c).accepted = 1 := by
      simp [Session.step, Handler.reqReady, hs, h.accepted]
    have hhandler : (s.step regs m c).handler = s.handler := by
      simp [RequestHandler.step, hs, Vtp.Regs.respValid, hst]
    obtain ⟨hvtp, hrank⟩ := LookupAt.step c h hst
    refine ⟨⟨?_, hacc, ?_, ?_, ?_, ?_, ?_, ?_, ?_, hvtp⟩, hrank⟩
    all_goals rw [hhandler]
    · exact hs
    · exact h.totalLen
    · exact h.len
    · exact h.first
    · exact h.errSt
    · exact h.tag
    · exact h.qpn
    · exact h.offsVaddr

/-- Every cycle leads from a phase to a phase. -/
theorem Phases.step (h : Phases regs m s) : Phases regs m (s.step regs m c) := by
  rcases h with h | h | ⟨k, h⟩ | ⟨k, h⟩ | ⟨k, h⟩ | h
  · rcases h.step c with ⟨h', -⟩ | h'
    · exact Or.inl h'
    · exact Or.inr (Or.inl h')
  · rcases h.step c with h' | ⟨h', -⟩
    · exact Or.inr (Or.inr (Or.inl ⟨0, h'⟩))
    · exact Or.inr (Or.inl h')
  · exact Or.inr (Or.inr (Or.inr (Or.inl ⟨k, h.step c⟩)))
  · rcases h.step c with ⟨h', -⟩ | h' | ⟨-, h'⟩
    · exact Or.inr (Or.inr (Or.inr (Or.inl ⟨k, h'⟩)))
    · exact Or.inr (Or.inr (Or.inr (Or.inr (Or.inl ⟨k, h'⟩))))
    · exact Or.inr (Or.inr (Or.inr (Or.inr (Or.inr h'))))
  · rcases h.step c with ⟨h', -⟩ | h'
    · exact Or.inr (Or.inr (Or.inr (Or.inr (Or.inl ⟨k, h'⟩))))
    · exact Or.inr (Or.inr (Or.inl ⟨k + 1, h'⟩))
  · exact Or.inr (Or.inr (Or.inr (Or.inr (Or.inr (h.step c)))))

/-! ## Own commands -/

/-- The entries of the ledger are own commands of packets whose checks passed. -/
def OwnOk (regs : RegFile) (m : Message READ) (s : Session) : Prop :=
  ∀ e ∈ s.own, e.1 < m.size ∧ Passes regs m (e.1 + 1) ∧ e.2 = ownCommand regs m e.1

theorem AtSend.own_step (h : AtSend regs m s k) :
    (s.step regs m c).own =
      if c.cmdReady && !s.handler.errSt then s.own ++ [(k, s.handler.cmdData)] else s.own := by
  simp [Session.step, handsOver, Handler.cmdValid, h.reqState, h.accepted]

theorem OwnOk.step (hph : Phases regs m s) (h : OwnOk regs m s) :
    OwnOk regs m (s.step regs m c) := by
  by_cases hs : s.handler.reqState = .sendCmd
  · rcases hph with hp | hp | ⟨k, hp⟩ | ⟨k, hp⟩ | ⟨k, hp⟩ | hp
    case inr.inr.inr.inl =>
      intro e he
      rw [hp.own_step c] at he
      split_ifs at he with hc
      · rcases List.mem_append.mp he with he | he
        · exact h e he
        · obtain rfl := List.mem_singleton.mp he
          have hpass : Passes regs m (k + 1) := by
            rw [← hp.errSt]
            simp only [Bool.and_eq_true, Bool.not_eq_true'] at hc
            exact hc.2
          exact ⟨hp.lt_size, hpass, hp.cmdData hpass⟩
      · exact h e he
    all_goals
      have hno := hp.reqState
      rw [hs] at hno
      cases hno
  · intro e he
    rw [own_step_of_not_sendCmd c hs] at he
    exact h e he

end Cycle

/-! ## Every packet reaches the data mover -/

section Progress

variable {regs m} {h : Handler} {v : Vtp.Regs}

/-- A cycle in which nobody waits. -/
def Cycle.go : Cycle := ⟨true, true, true⟩

theorem Between.atStart (hb : Between h v) : AtStart (session regs m h v).reset :=
  ⟨hb.idle, hb.first, hb.totalLen, hb.errSt, hb.vtp, rfl⟩

/-- The lookup ends: its rank goes down while the register port answers. -/
theorem InLookup.exists_atCheck {s : Session} (hs : InLookup regs m s) :
    ∃ is, AtCheck regs m ((session regs m h v).runFrom s is) 0 := by
  induction hr : lookupRank s.vtp.st using Nat.strong_induction_on generalizing s with
  | _ r ih =>
    rcases hs.step Cycle.go with h' | ⟨h', hlt⟩
    · exact ⟨[Cycle.go], h'⟩
    · obtain ⟨is, his⟩ := ih _ (hr ▸ hlt rfl) h' rfl
      exact ⟨Cycle.go :: is, his⟩

/-- **Progress.**  Some run brings packet `k` to `RQ_SENDCMD`. -/
theorem exists_atSend (hb : Between h v) {k : ℕ} (hk : k < m.size) :
    ∃ is, AtSend regs m ((session regs m h v).run is) k := by
  induction k with
  | zero =>
    rcases (@Between.atStart _ regs m _ _ hb).step Cycle.go with ⟨-, hno⟩ | hlook
    · cases hno
    · obtain ⟨is, his⟩ := hlook.exists_atCheck (h := h) (v := v)
      exact ⟨Cycle.go :: is ++ [Cycle.go], by
        rw [Machine.run, Machine.runFrom_append]
        exact his.step Cycle.go⟩
  | succ k ih =>
    obtain ⟨is, his⟩ := ih (by omega)
    have hbetween : BetweenPackets regs m
        ((session regs m h v).runFrom ((session regs m h v).run is) [Cycle.go]) k := by
      rcases his.step Cycle.go with ⟨-, hno⟩ | h' | ⟨hlast, -⟩
      · cases hno
      · exact h'
      · omega
    have hcheck : AtCheck regs m
        ((session regs m h v).runFrom ((session regs m h v).run is) [Cycle.go, Cycle.go])
        (k + 1) := by
      rcases hbetween.step Cycle.go with ⟨-, hno⟩ | h'
      · cases hno
      · exact h'
    exact ⟨is ++ [Cycle.go, Cycle.go, Cycle.go], by
      rw [Machine.run, Machine.runFrom_append]
      exact hcheck.step Cycle.go⟩

/-- **Which own commands are handed over.**  Packet `k` is given its own command in
some run iff its check and those of the packets before it pass. -/
theorem own_iff (hb : Between h v) (k : ℕ) (w : BitVec 104) :
    (∃ is, (k, w) ∈ ((session regs m h v).run is).own) ↔
      k < m.size ∧ Passes regs m (k + 1) ∧ w = ownCommand regs m k := by
  constructor
  · rintro ⟨is, his⟩
    have hinv : (session regs m h v).Always (fun s => Phases regs m s ∧ OwnOk regs m s)
        (session regs m h v).reset is :=
      Machine.always_of_step (fun s c hs => ⟨hs.1.step c, hs.2.step c hs.1⟩)
        ⟨Or.inl hb.atStart, fun e he => absurd he List.not_mem_nil⟩ is
    exact hinv.last.2 _ his
  · rintro ⟨hk, hpass, rfl⟩
    obtain ⟨is, his⟩ := @exists_atSend _ regs _ _ _ hb _ hk
    refine ⟨is ++ [Cycle.go], ?_⟩
    have hown := his.own_step Cycle.go
    rw [his.errSt.mpr hpass, his.cmdData hpass] at hown
    rw [Machine.run, Machine.runFrom_append]
    show _ ∈ (Session.step regs m ((session regs m h v).run is) Cycle.go).own
    rw [hown]
    simp [Cycle.go]

end Progress

/-! ## Protection -/

/-- The offset of the end of the first `k` packets in the region, as a 48-bit
number. -/
def offset48 (k : ℕ) : ℤ :=
  ((m.vaddr.toNat : ℤ) - (virtaddr regs m).toNat + m.bytes k) % 2 ^ 48

/-- The messages that are held to their region: the key or the protection domain
is wrong, the descriptor does not let the direction pass, the whole message lies
in the region, or the descriptor is the one with the length check and no packet
leaves the region before a 48-bit offset exceeds its length. -/
def Confined : Prop :=
  ¬ KeyOk regs m ∨ ¬ permits READ (accessdesc regs m) ∨ Inside regs m m.size ∨
    accessdesc regs m = 0b0010 ∧ ∀ k ≤ m.size, ¬ Inside regs m k →
      ∃ j, 0 < j ∧ j ≤ k ∧ (buflen regs m).toNat < offset48 regs m j

section Protection

variable {regs m}

/-- The length register is the 48-bit offset. -/
theorem toNat_runLen (k : ℕ) : ((runLen regs m k).toNat : ℤ) = offset48 regs m k := by
  have hv := m.vaddr.isLt
  have hb := (virtaddr regs m).isLt
  simp only [runLen, offset48, BitVec.toNat_add, BitVec.toNat_setWidth, BitVec.toNat_sub,
    BitVec.toNat_ofNat]
  omega

theorem not_runLen_le {k : ℕ} :
    ¬ runLen regs m k ≤ buflen regs m ↔ (buflen regs m).toNat < offset48 regs m k := by
  rw [← toNat_runLen, BitVec.le_def]
  omega

theorem Inside.mono {j k : ℕ} (hk : Inside regs m k) (hjk : j ≤ k) : Inside regs m j := by
  intro a hlo hhi
  have hbytes := m.bytes_mono hjk
  exact hk a hlo (by omega)

/-- What passes the checks is permitted except for its range. -/
theorem Passes.permitted_iff {k : ℕ} (hp : Passes regs m (k + 1)) :
    Permitted regs m k ↔ Inside regs m (k + 1) := by
  refine ⟨Permitted.range, fun hin => ⟨hp.1.rkey, hp.1.pdnum, ?_, hin⟩⟩
  rcases hp.2 1 (by omega) (by omega) with ⟨-, h2⟩ | hdir
  · exact Or.inl h2
  · exact Or.inr hdir

/-- The messages whose passing packets all stay in the region. -/
theorem inside_of_passes_iff :
    (∀ k < m.size, Passes regs m (k + 1) → Inside regs m (k + 1)) ↔ Confined regs m := by
  constructor
  · intro hall
    by_cases hkey : KeyOk regs m
    swap
    · exact Or.inl hkey
    by_cases hperm : permits READ (accessdesc regs m)
    swap
    · exact Or.inr (Or.inl hperm)
    have hlast : m.size - 1 + 1 = m.size := Nat.sub_add_cancel m.size_pos
    rcases hperm with h2 | hdir
    · refine Or.inr (Or.inr (Or.inr ⟨h2, fun k hk hout => ?_⟩))
      by_contra hno
      have hpos : 0 < k := by
        rcases Nat.eq_zero_or_pos k with rfl | hpos
        · exact absurd (fun a hlo hhi => absurd hhi (by simpa using hlo)) hout
        · exact hpos
      have hk1 : k - 1 + 1 = k := Nat.sub_add_cancel hpos
      have hin := hall (k - 1) (by omega)
      rw [hk1] at hin
      refine hout (hin ⟨hkey, fun j h0 hj => Or.inl ⟨?_, h2⟩⟩)
      by_contra hlen
      exact hno ⟨j, h0, hj, not_runLen_le.mp hlen⟩
    · -- the other two descriptors compare nothing, so the whole message passes
      have hin := hall (m.size - 1) (by omega)
      rw [hlast] at hin
      exact Or.inr (Or.inr (Or.inl (hin ⟨hkey, fun _ _ _ => Or.inr hdir⟩)))
  · rintro hconf k hk ⟨hkey, hlen⟩
    rcases hconf with hno | hno | hin | ⟨h2, hout⟩
    · exact absurd hkey hno
    · refine absurd ?_ hno
      rcases hlen 1 (by omega) (by omega) with ⟨-, h2⟩ | hdir
      · exact Or.inl h2
      · exact Or.inr hdir
    · exact hin.mono hk
    · by_contra hno
      obtain ⟨j, h0, hj, hlt⟩ := hout (k + 1) hk hno
      rcases hlen j h0 hj with ⟨hle, -⟩ | hdir
      · exact not_runLen_le.mpr hlt hle
      · rw [h2] at hdir
        cases READ <;> exact absurd hdir (by decide)

/-- **Memory protection.**  Out of any state between two messages, every run gives
only permitted packets their own command iff the message is held to its region. -/
theorem own_permitted_iff {h : Handler} {v : Vtp.Regs} (hb : Between h v) :
    (∀ is, ∀ e ∈ ((session regs m h v).run is).own, Permitted regs m e.1) ↔
      Confined regs m := by
  rw [← inside_of_passes_iff]
  constructor
  · intro hall k hk hpass
    obtain ⟨is, his⟩ := (own_iff hb k _).mpr ⟨hk, hpass, rfl⟩
    exact (hall is _ his).range
  · rintro hall is ⟨k, w⟩ he
    obtain ⟨hk, hpass, -⟩ := (own_iff hb k w).mp ⟨is, he⟩
    exact hpass.permitted_iff.mpr (hall k hk hpass)

end Protection

/-- A remote read of 4096 bytes in one packet, under the key 0. -/
def longRead : Message true where
  packets := [{ (default : Req) with
    opcode := rcRdmaReadRequest, vaddr := 0x1000, len := 4096, last := true }]
  packets_ne := by decide
  remote := by decide
  last_iff := by decide
  vaddr_ne := by decide

/-- A region of 16 bytes at `0x1000` that may be read. -/
def smallRegion : RegFile where
  qp := fun _ _ => 0
  pd := fun _ r =>
    if r = virtaddrlsbIdx then 0x1000 else if r = bufbaseaddrlsbIdx then 0x8000
    else if r = wrrdbuflenIdx then 16 else 0
  glb := fun _ => 0

theorem own_permitted_iff_longRead :
    (∀ is, ∀ e ∈ ((session smallRegion longRead Handler.reset Vtp.Regs.reset).run is).own,
      Permitted smallRegion longRead e.1) ↔ Confined smallRegion longRead :=
  own_permitted_iff ⟨rfl, rfl, rfl, rfl, rfl⟩

/-- The long read is given its command, and reaches beyond the region. -/
theorem longRead_not_permitted :
    (0, cmdWord 0x8000 4096) ∈
      ((session smallRegion longRead Handler.reset Vtp.Regs.reset).run
        (List.replicate 8 Cycle.go)).own ∧
    ¬ Permitted smallRegion longRead 0 := by
  refine ⟨by decide, fun hp => ?_⟩
  have hrange := (hp.range 0x1010 (by decide) (by decide)).2
  exact absurd hrange (by decide)

end MemoryProtection
end RecoNIC
