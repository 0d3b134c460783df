import Mathlib.Logic.Function.Basic
import RecoNIC.RoceStack.Translation

/-!
# Messages on one handler

A request handler has one register for each thing it knows about a message: the running
address, the running length, the answer of the lookup, the error flag and `first_q`.  A
packet that is offered carries no name of its message.  The handler takes it for the next
packet of the message it is in, or, after a packet marked `last`, for the first packet of
a new one.

Here every packet has the name of its message, from any type of names.  The ledger keeps,
for each message by itself, the packets that were taken and the answer to its lookup, so
that `translated`, `before` and `admits` say what the command of a packet should be without
looking at any other message.  `isolated_run` gives the condition under which the one set of
registers is enough: packets of two messages do not interleave, none is offered in
`RQ_WB_DBADD`, where it is taken and forgotten, and none fails its check, since a failing
packet hands over the command before it.
-/

namespace RecoNIC
namespace Isolation

open Synchronous
open RequestHandler hiding Input step

/-! ## What is known of one message -/

/-- The packets of one message so far, the newest first, and the answer to its lookup. -/
structure Record where
  packets : List Req
  answer : Option DmaReq
  deriving DecidableEq

namespace Record

variable (READ : Bool) (r : Record)

/-- The packet that began the message. -/
def first : Req := r.packets.getLastD default

/-- The packet that was taken last. -/
def newest : Req := r.packets.headD default

/-- The bytes of all packets so far. -/
def bytes : ℕ := (r.packets.map fun p => p.len.toNat).sum

/-- The bytes of the packets before the newest one. -/
def before : ℕ := (r.packets.tail.map fun p => p.len.toNat).sum

/-- The translation of the address of the message.  A local message has its address as it
stands, and a remote one has none before its lookup is answered. -/
def translated : Option (BitVec 64) :=
  if isLocal READ r.first.opcode then some r.first.vaddr
  else r.answer.map fun resp => resp.paddr + (r.first.vaddr - resp.baseVaddr)

/-- The number that is compared with the length of the region: where in the region the
message begins, and its bytes. -/
def total (resp : DmaReq) : BitVec 48 :=
  (r.first.vaddr - resp.baseVaddr).setWidth 48 + BitVec.ofNat 48 r.bytes

/-- The key check of a message. -/
def keyOk (resp : DmaReq) : Bool :=
  !((r.first.vaddr != 0 &&
      (r.first.tag.setWidth 8 != resp.rkey.setWidth 8 || resp.rkey.getLsbD 8)) ||
    (r.first.vaddr == 0 && READ))

/-- The check of the newest packet against the answer to the lookup of its message. -/
def admits (resp : DmaReq) : Bool :=
  r.keyOk READ resp && (decide (r.total resp ≤ resp.buflen) && resp.accesdesc == 0b0010#4 ||
    (READ && resp.accesdesc == 0b0000#4) || (!READ && resp.accesdesc == 0b0001#4))

/-- One more packet. -/
def cons (p : Req) : Record := { r with packets := p :: r.packets }

@[simp] theorem newest_cons (p : Req) : (r.cons p).newest = p := rfl

@[simp] theorem before_cons (p : Req) : (r.cons p).before = r.bytes := rfl

@[simp] theorem bytes_cons (p : Req) : (r.cons p).bytes = p.len.toNat + r.bytes := rfl

@[simp] theorem answer_cons (p : Req) : (r.cons p).answer = r.answer := rfl

variable {r}

/-- The bytes of the newest packet come after those of the others. -/
theorem bytes_eq (h : r.packets ≠ []) : r.bytes = r.newest.len.toNat + r.before := by
  obtain ⟨packets, answer⟩ := r
  cases packets with
  | nil => exact absurd rfl h
  | cons p ps => rfl

/-- A later packet is not the first one. -/
theorem first_cons (h : r.packets ≠ []) (p : Req) : (r.cons p).first = r.first := by
  obtain ⟨packets, answer⟩ := r
  cases packets with
  | nil => exact absurd rfl h
  | cons p' ps => rfl

/-- The packet that begins a message. -/
theorem first_cons_of_nil (h : r.packets = []) (p : Req) : (r.cons p).first = p := by
  simp [first, cons, h]

theorem bytes_of_nil (h : r.packets = []) : r.bytes = 0 := by simp [bytes, h]

theorem translated_cons {READ : Bool} (h : r.packets ≠ []) (p : Req) :
    (r.cons p).translated READ = r.translated READ := by
  rw [translated, translated, first_cons h, answer_cons]

theorem keyOk_cons {READ : Bool} (h : r.packets ≠ []) (p : Req) (resp : DmaReq) :
    (r.cons p).keyOk READ resp = r.keyOk READ resp := by
  rw [keyOk, keyOk, first_cons h]

/-- A packet adds its length. -/
theorem total_cons (h : r.packets ≠ []) (p : Req) (resp : DmaReq) :
    (r.cons p).total resp = r.total resp + p.len.setWidth 48 := by
  have hlen : p.len.setWidth 48 = BitVec.ofNat 48 p.len.toNat := by
    rw [BitVec.ofNat_toNat]
  rw [total, total, first_cons h, bytes_cons, Nat.add_comm, BitVec.ofNat_add, hlen,
    BitVec.add_assoc]

end Record

/-! ## The ledger -/

variable {M : Type*} [DecidableEq M]

/-- What is known of every message, and the message of the packet that was taken last. -/
structure Ledger (M : Type*) where
  of : M → Record
  current : Option M

/-- A cycle of the side: its inputs, the register port, and the message of the packet that
is offered. -/
structure Offer (M : Type*) where
  sideIn : SideIn
  port : Vtp.PortView
  message : M

/-- The ledger before any packet. -/
def Ledger.empty : Ledger M := ⟨fun _ => ⟨[], none⟩, none⟩

/-- A packet of the message `m` is taken. -/
def Ledger.take (l : Ledger M) (m : M) (p : Req) : Ledger M :=
  ⟨Function.update l.of m ((l.of m).cons p), some m⟩

/-- The lookup of the message of the last packet is answered. -/
def Ledger.answer (l : Ledger M) (resp : DmaReq) : Ledger M :=
  match l.current with
  | some m => { l with of := Function.update l.of m { l.of m with answer := some resp } }
  | none => l

/-- The message that is under way: its packet was the last one, and was not marked so. -/
def Ledger.opened (l : Ledger M) : Option M :=
  l.current.filter fun m => !(l.of m).newest.last

/-- A packet is taken. -/
def accepts (s : Side) (i : Offer M) : Bool := i.sideIn.reqValid && s.handler.reqReady

/-- An answer is taken. -/
def answered (s : Side) : Bool := s.handler.reqAddrValid && s.vtp.respValid

/-- One cycle in the ledger. -/
def note (l : Ledger M) (s : Side) (i : Offer M) : Ledger M :=
  if accepts s i then l.take i.message i.sideIn.reqData
  else if answered s then l.answer s.vtp.respAddrData
  else l

/-- A handler and its lookup machine, with the ledger. -/
def messages (READ : Bool) : Machine (Side × Ledger M) (Offer M) :=
  Machine.watch ⟨Side.reset, fun s i => s.step READ i.sideIn i.port⟩ Ledger.empty note

@[simp] theorem messages_step (READ : Bool) (s : Side × Ledger M) (i : Offer M) :
    (messages READ).step s i = (s.1.step READ i.sideIn i.port, note s.2 s.1 i) := rfl

/-- The packets arrive message by message, and none is lost or rejected. -/
structure OneByOne (READ : Bool) (s : Side × Ledger M) (i : Offer M) : Prop where
  /-- No packet is offered in `RQ_WB_DBADD`. -/
  heard : accepts s.1 i = true → s.1.handler.reqState = .idle
  /-- A message begins where none is under way, and goes on where it is the one. -/
  whole : accepts s.1 i = true →
    s.2.opened = if (s.2.of i.message).packets = [] then none else some i.message
  /-- The packet in `RQ_MIDDLE` passes. -/
  passes : s.1.handler.reqState = .middle → checkPasses READ s.1.handler = true

/-- Every message is served as if it were the only one. -/
structure Isolated (READ : Bool) (s : Side × Ledger M) : Prop where
  /-- A lookup is for the first packet of the message that it is made for. -/
  lookup : s.1.handler.reqAddrValid = true → ∃ m p, s.2.current = some m ∧
    (s.2.of m).packets = [p] ∧ isLocal READ p.opcode = false ∧
    s.1.lookup = ⟨true, p.vaddr, p.tag.extractLsb' 8 24, p.qpn⟩
  /-- A command is at the own translation behind the own packets before, and a remote
  message has been looked up and admitted. -/
  command : s.1.handler.cmdValid = true → ∃ m base, s.2.current = some m ∧
    (s.2.of m).translated READ = some base ∧
    s.1.handler.cmdData =
      cmdWord (base + BitVec.ofNat 64 (s.2.of m).before) (s.2.of m).newest.len ∧
    (isLocal READ (s.2.of m).first.opcode = false →
      ∃ resp, (s.2.of m).answer = some resp ∧ (s.2.of m).admits READ resp = true)

/-! ## The phases of the handler -/

/-- The registers of the handler belong to the message of the record `r`. -/
structure Serving (READ : Bool) (h : Handler) (r : Record) (base : BitVec 64) : Prop where
  packets_ne : r.packets ≠ []
  first : h.first = r.newest.last
  translated : r.translated READ = some base
  lookedUp : isLocal READ r.first.opcode = false → ∃ resp, r.answer = some resp ∧
    h.buflen = resp.buflen ∧ h.accessdesc = resp.accesdesc ∧ h.totalLen = r.total resp ∧
    (h.errSt = false → r.keyOk READ resp = true)

/-- Between two messages. -/
structure Between (h : Handler) (l : Ledger M) : Prop where
  reqState : h.reqState = .idle ∨ h.reqState = .wbDbAdd
  first : h.first = true
  opened : l.opened = none
  totalLen : h.totalLen = 0#48
  errSt : h.errSt = false

/-- The first packet of a remote message waits for its lookup. -/
structure InLookup (READ : Bool) (h : Handler) (l : Ledger M) (m : M) (p : Req) : Prop where
  reqState : h.reqState = .getPaddr
  current : l.current = some m
  packets : (l.of m).packets = [p]
  remote : isLocal READ p.opcode = false
  first : h.first = p.last
  offsVaddr : h.offsVaddr = p.vaddr
  tag : h.tag = p.tag.setWidth 33
  qpn : h.qpn = p.qpn
  len : h.len = p.len
  totalLen : h.totalLen = p.len.setWidth 48
  errSt : h.errSt = false

/-- A packet is about to be checked. -/
structure AtCheck (READ : Bool) (h : Handler) (l : Ledger M) (m : M) (base : BitVec 64) :
    Prop where
  reqState : h.reqState = .middle
  current : l.current = some m
  serving : Serving READ h (l.of m) base
  len : h.len = (l.of m).newest.len
  paddr : h.paddr = base + BitVec.ofNat 64 (l.of m).before

/-- The command of a packet that has passed is handed over. -/
structure AtSend (READ : Bool) (h : Handler) (l : Ledger M) (m : M) (base : BitVec 64) :
    Prop where
  reqState : h.reqState = .sendCmd
  current : l.current = some m
  serving : Serving READ h (l.of m) base
  paddr : h.paddr = base + BitVec.ofNat 64 (l.of m).bytes
  errSt : h.errSt = false
  cmdData : h.cmdData =
    cmdWord (base + BitVec.ofNat 64 (l.of m).before) (l.of m).newest.len
  admits : isLocal READ (l.of m).first.opcode = false →
    ∃ resp, (l.of m).answer = some resp ∧ (l.of m).admits READ resp = true

/-- Between two packets of a message. -/
structure InMessage (READ : Bool) (h : Handler) (l : Ledger M) (m : M) (base : BitVec 64) :
    Prop where
  reqState : h.reqState = .idle
  current : l.current = some m
  more : (l.of m).newest.last = false
  serving : Serving READ h (l.of m) base
  paddr : h.paddr = base + BitVec.ofNat 64 (l.of m).bytes
  errSt : h.errSt = false

/-- The phases of the handler. -/
def Phases (READ : Bool) (h : Handler) (l : Ledger M) : Prop :=
  Between h l ∨ (∃ m p, InLookup READ h l m p) ∨ (∃ m base, AtCheck READ h l m base) ∨
    (∃ m base, AtSend READ h l m base) ∨ ∃ m base, InMessage READ h l m base

/-- **The invariant.**  Apart from a lookup the lookup machine is idle, and the handler is in
one of its phases. -/
structure Inv (READ : Bool) (s : Side × Ledger M) : Prop where
  vtp : s.1.handler.reqState ≠ .getPaddr → s.1.vtp.st = .idle
  phases : Phases READ s.1.handler s.2

/-! ## What is noted -/

section Noted

variable {s : Side} {l : Ledger M} {i : Offer M}

@[simp] theorem of_take (m : M) (p : Req) : (l.take m p).of m = (l.of m).cons p :=
  Function.update_self ..

@[simp] theorem current_take (m : M) (p : Req) : (l.take m p).current = some m := rfl

theorem current_answer (resp : DmaReq) : (l.answer resp).current = l.current := by
  unfold Ledger.answer
  cases hc : l.current <;> simp [hc]

theorem of_answer {m : M} (h : l.current = some m) (resp : DmaReq) :
    (l.answer resp).of m = { l.of m with answer := some resp } := by
  simp [Ledger.answer, h]

omit [DecidableEq M] in
theorem opened_of_current {m : M} (h : l.current = some m) :
    l.opened = if (l.of m).newest.last then none else some m := by
  cases hlast : (l.of m).newest.last <;> simp [Ledger.opened, h, hlast]

theorem note_of_accepts (h : accepts s i = true) :
    note l s i = l.take i.message i.sideIn.reqData := if_pos h

theorem note_of_quiet (h : accepts s i = false) (h' : answered s = false) :
    note l s i = l := by
  simp [note, h, h']

theorem answered_eq_false (h : s.handler.reqState ≠ .getPaddr) : answered s = false := by
  simp [answered, Handler.reqAddrValid, h]

omit [DecidableEq M] in
theorem accepts_eq_false (h : s.handler.reqReady = false) : accepts s i = false := by
  simp [accepts, h]

omit [DecidableEq M] in
theorem accepts_of_idle (h : s.handler.reqState = .idle) :
    accepts s i = i.sideIn.reqValid := by
  simp [accepts, Handler.reqReady, h]

/-- While a packet is worked on, nothing is noted. -/
theorem note_of_working (h : s.handler.reqState = .middle ∨ s.handler.reqState = .sendCmd) :
    note l s i = l := by
  refine note_of_quiet (accepts_eq_false ?_) (answered_eq_false ?_)
  · rcases h with hs | hs <;> simp [Handler.reqReady, hs]
  · rcases h with hs | hs <;> simp [hs]

end Noted

/-! ## One cycle in each phase -/

section Cycle

variable {READ : Bool} {s : Side} {l : Ledger M} {i : Offer M} {m : M} {base : BitVec 64}

/-- A local message begins. -/
theorem Between.step_local (h : Between s.handler l) (hs : s.handler.reqState = .idle)
    (hvalid : i.sideIn.reqValid = true) (hnew : (l.of i.message).packets = [])
    (hloc : isLocal READ i.sideIn.reqData.opcode = true) :
    AtCheck READ (s.step READ i.sideIn i.port).handler (l.take i.message i.sideIn.reqData)
      i.message i.sideIn.reqData.vaddr := by
  have hstep : (s.step READ i.sideIn i.port).handler =
      { s.handler with
        len := i.sideIn.reqData.len
        totalLen := s.handler.totalLen + i.sideIn.reqData.len.setWidth 48
        first := i.sideIn.reqData.last
        buflen := 0x7FFFFFFFFFFF
        accessdesc := 0b0010
        paddr := i.sideIn.reqData.vaddr
        reqState := .middle } := by
    simp [Side.step, Side.handlerIn, RequestHandler.step, hs, hvalid, hloc, h.first]
  have hfirst := Record.first_cons_of_nil hnew i.sideIn.reqData
  rw [hstep]
  refine ⟨rfl, rfl, ?_, ?_, ?_⟩
  · rw [of_take]
    refine ⟨by simp [Record.cons], rfl, ?_, ?_⟩
    · rw [Record.translated, hfirst, if_pos hloc]
    · rw [hfirst, hloc]
      rintro ⟨⟩
  · rw [of_take]
    rfl
  · rw [of_take, Record.before_cons, Record.bytes_of_nil hnew]
    simp

/-- A remote message begins. -/
theorem Between.step_remote (h : Between s.handler l) (hv : s.vtp.st = .idle)
    (hs : s.handler.reqState = .idle) (hvalid : i.sideIn.reqValid = true)
    (hnew : (l.of i.message).packets = [])
    (hrem : isLocal READ i.sideIn.reqData.opcode = false) :
    InLookup READ (s.step READ i.sideIn i.port).handler (l.take i.message i.sideIn.reqData)
      i.message i.sideIn.reqData := by
  have hready := Side.reqReady_lookup hv hs
  have hstep : (s.step READ i.sideIn i.port).handler =
      { s.handler with
        len := i.sideIn.reqData.len
        totalLen := s.handler.totalLen + i.sideIn.reqData.len.setWidth 48
        first := i.sideIn.reqData.last
        qpn := i.sideIn.reqData.qpn
        tag := i.sideIn.reqData.tag.setWidth 33
        offsVaddr := i.sideIn.reqData.vaddr
        reqState := .getPaddr } := by
    simp [Side.step, Side.handlerIn, RequestHandler.step, hs, hvalid, hrem, h.first, hready]
  rw [hstep]
  refine ⟨rfl, rfl, ?_, hrem, rfl, rfl, rfl, rfl, rfl, ?_, h.errSt⟩
  · rw [of_take, Record.cons, hnew]
  · rw [h.totalLen]
    simp

theorem Between.step (h : Between s.handler l) (hv : s.vtp.st = .idle)
    (ho : OneByOne READ (s, l) i) :
    Phases READ (s.step READ i.sideIn i.port).handler (note l s i) := by
  have hans : answered s = false := by
    refine answered_eq_false ?_
    rcases h.reqState with hs | hs <;> simp [hs]
  cases hacc : accepts s i with
  | false =>
    rw [note_of_quiet hacc hans]
    refine Or.inl ?_
    rcases h.reqState with hs | hs
    · have hvalid : i.sideIn.reqValid = false := by rw [← accepts_of_idle hs]; exact hacc
      have hstep : (s.step READ i.sideIn i.port).handler = s.handler := by
        exact step_idle_of_quiet hs hvalid
      rw [hstep]
      exact h
    · have hstep :
          (s.step READ i.sideIn i.port).handler = { s.handler with reqState := .idle } :=
        step_wbDbAdd hs _
      rw [hstep]
      exact ⟨Or.inl rfl, h.first, h.opened, h.totalLen, h.errSt⟩
  | true =>
    have hs : s.handler.reqState = .idle := ho.heard hacc
    have hvalid : i.sideIn.reqValid = true := by rw [← accepts_of_idle hs]; exact hacc
    have hnew : (l.of i.message).packets = [] := by
      have hopened : l.opened =
          if (l.of i.message).packets = [] then none else some i.message := ho.whole hacc
      by_contra hne
      rw [h.opened, if_neg hne] at hopened
      cases hopened
    rw [note_of_accepts hacc]
    cases hloc : isLocal READ i.sideIn.reqData.opcode with
    | true => exact Or.inr (Or.inr (Or.inl ⟨_, _, h.step_local hs hvalid hnew hloc⟩))
    | false => exact Or.inr (Or.inl ⟨_, _, h.step_remote hv hs hvalid hnew hloc⟩)

omit [DecidableEq M] in
/-- The length register after the lookup: the offset in the region is cut to 48 bits. -/
theorem setWidth_add_offset (len : BitVec 48) (offset : BitVec 64) :
    (len.setWidth 64 + offset).setWidth 48 = len + offset.setWidth 48 := by
  rw [BitVec.setWidth_add _ _ (by decide), BitVec.setWidth_setWidth_of_le _ (by decide),
    BitVec.setWidth_eq]

theorem InLookup.step {p : Req} (h : InLookup READ s.handler l m p) :
    Phases READ (s.step READ i.sideIn i.port).handler (note l s i) := by
  have hacc : accepts s i = false := accepts_eq_false (by simp [Handler.reqReady, h.reqState])
  by_cases hv : s.vtp.st = .valid
  · have hans : answered s = true := by
      simp [answered, Handler.reqAddrValid, h.reqState, Vtp.Regs.respValid, hv]
    have hnote : note l s i = l.answer s.vtp.respAddrData := by simp [note, hacc, hans]
    have hfirst : (l.of m).first = p := by simp [Record.first, h.packets]
    have hkey : keyFails READ s.handler s.vtp.respAddrData =
        !({ l.of m with answer := some s.vtp.respAddrData } : Record).keyOk READ
          s.vtp.respAddrData := by
      have hlow : (p.tag.setWidth 33).setWidth 8 = p.tag.setWidth 8 := by simp
      have hfirst' :
          ({ l.of m with answer := some s.vtp.respAddrData } : Record).first = p := hfirst
      rw [keyFails, Record.keyOk, Bool.not_not, hfirst', h.offsVaddr, h.tag, hlow]
    have hstep : (s.step READ i.sideIn i.port).handler =
        { s.handler with
          buflen := s.vtp.respAddrData.buflen
          accessdesc := s.vtp.respAddrData.accesdesc
          rkeyDb := s.vtp.respAddrData.rkey
          errSt := keyFails READ s.handler s.vtp.respAddrData
          paddr := s.vtp.respAddrData.paddr + (p.vaddr - s.vtp.respAddrData.baseVaddr)
          paddrBase := s.vtp.respAddrData.paddr + (p.vaddr - s.vtp.respAddrData.baseVaddr)
          totalLen := ((p.len.setWidth 48).setWidth 64 +
            (p.vaddr - s.vtp.respAddrData.baseVaddr)).setWidth 48
          reqState := .middle } := by
      simp [Side.step, Side.handlerIn, RequestHandler.step, h.reqState, Vtp.Regs.respValid, hv,
        h.offsVaddr, h.totalLen, h.errSt]
    refine Or.inr (Or.inr (Or.inl
      ⟨m, s.vtp.respAddrData.paddr + (p.vaddr - s.vtp.respAddrData.baseVaddr), ?_⟩))
    rw [hstep, hnote]
    refine ⟨rfl, by rw [current_answer, h.current], ?_, ?_, ?_⟩
    · rw [of_answer h.current]
      refine ⟨by simp [h.packets], ?_, ?_, fun _ => ⟨_, rfl, rfl, rfl, ?_, ?_⟩⟩
      · simp [Record.newest, h.packets, h.first]
      · simp [Record.translated, Record.first, h.packets, h.remote]
      · show ((p.len.setWidth 48).setWidth 64 +
            (p.vaddr - s.vtp.respAddrData.baseVaddr)).setWidth 48 = _
        rw [setWidth_add_offset, BitVec.add_comm, Record.total]
        simp [Record.first, Record.bytes, h.packets, ← BitVec.ofNat_toNat]
      · show keyFails READ s.handler s.vtp.respAddrData = false → _
        rw [hkey]
        simp
    · rw [of_answer h.current]
      simp [Record.newest, h.packets, h.len]
    · rw [of_answer h.current]
      simp [Record.before, h.packets]
  · have hans : answered s = false := by
      simp [answered, Vtp.Regs.respValid, hv]
    rw [note_of_quiet hacc hans, Side.handler_step_of_lookup h.reqState hv]
    exact Or.inr (Or.inl ⟨m, p, h⟩)

omit [DecidableEq M] in
/-- A check that passes is a check of the own message. -/
theorem AtCheck.admits (h : AtCheck READ s.handler l m base)
    (hpass : checkPasses READ s.handler = true)
    (hrem : isLocal READ (l.of m).first.opcode = false) :
    ∃ resp, (l.of m).answer = some resp ∧ (l.of m).admits READ resp = true := by
  obtain ⟨resp, hresp, hbuf, hacc, htotal, hkey⟩ := h.serving.lookedUp hrem
  refine ⟨resp, hresp, ?_⟩
  rw [checkPasses, Bool.and_eq_true, hbuf, hacc, htotal] at hpass
  rw [Record.admits, hkey (by simpa using hpass.1), Bool.true_and]
  exact hpass.2

theorem AtCheck.step (h : AtCheck READ s.handler l m base) (ho : OneByOne READ (s, l) i) :
    Phases READ (s.step READ i.sideIn i.port).handler (note l s i) := by
  have hpass : checkPasses READ s.handler = true := ho.passes h.reqState
  have hstep : (s.step READ i.sideIn i.port).handler =
      { s.handler with
        cmdData := cmdWord s.handler.paddr s.handler.len
        paddr := s.handler.paddr + s.handler.len.setWidth 64
        reqState := .sendCmd } := by
    simp [Side.step, RequestHandler.step, h.reqState, hpass]
  have herr : s.handler.errSt = false := by
    rw [checkPasses, Bool.and_eq_true] at hpass
    simpa using hpass.1
  have hlen : (l.of m).newest.len.setWidth 64 = BitVec.ofNat 64 (l.of m).newest.len.toNat := by
    rw [BitVec.ofNat_toNat]
  rw [hstep, note_of_working (Or.inl h.reqState)]
  refine Or.inr (Or.inr (Or.inr (Or.inl ⟨m, base, rfl, h.current, ?_, ?_, herr, ?_,
    h.admits hpass⟩)))
  · exact ⟨h.serving.packets_ne, h.serving.first, h.serving.translated, h.serving.lookedUp⟩
  · show s.handler.paddr + s.handler.len.setWidth 64 = _
    rw [h.paddr, h.len, hlen, Record.bytes_eq h.serving.packets_ne, BitVec.add_assoc,
      ← BitVec.ofNat_add, Nat.add_comm]
  · show cmdWord s.handler.paddr s.handler.len = _
    rw [h.paddr, h.len]

theorem AtSend.step (h : AtSend READ s.handler l m base) :
    Phases READ (s.step READ i.sideIn i.port).handler (note l s i) := by
  rw [note_of_working (Or.inr h.reqState)]
  cases hready : i.sideIn.cmdReady with
  | false =>
    have hstep : (s.step READ i.sideIn i.port).handler = s.handler := by
      simp [Side.step, Side.handlerIn, RequestHandler.step, h.reqState, hready]
    rw [hstep]
    exact Or.inr (Or.inr (Or.inr (Or.inl ⟨m, base, h⟩)))
  | true =>
    cases hlast : (l.of m).newest.last with
    | true =>
      have hfirst : s.handler.first = true := by rw [h.serving.first, hlast]
      have hopened : l.opened = none := by rw [opened_of_current h.current, hlast, if_pos rfl]
      refine Or.inl ?_
      by_cases hwb : (s.handler.offsVaddr == 0 && !READ) = true
      · have hstep : (s.step READ i.sideIn i.port).handler =
            { s.handler with
              totalLen := 0
              errSt := false
              paddrBase := s.handler.paddrBase + s.handler.buflen.setWidth 64
              rkeyDb := s.handler.rkeyDb + 1
              reqState := .wbDbAdd } := by
          simp only [Side.step, Side.handlerIn, RequestHandler.step, h.reqState, hready, hfirst,
            if_true, hwb]
        rw [hstep]
        exact ⟨Or.inr rfl, hfirst, hopened, rfl, rfl⟩
      · have hstep : (s.step READ i.sideIn i.port).handler =
            { s.handler with totalLen := 0, errSt := false, reqState := .idle } := by
          simp only [Side.step, Side.handlerIn, RequestHandler.step, h.reqState, hready, hfirst,
            if_true, if_neg hwb]
        rw [hstep]
        exact ⟨Or.inl rfl, hfirst, hopened, rfl, rfl⟩
    | false =>
      have hfirst : s.handler.first = false := by rw [h.serving.first, hlast]
      have hstep :
          (s.step READ i.sideIn i.port).handler = { s.handler with reqState := .idle } := by
        simp [Side.step, Side.handlerIn, RequestHandler.step, h.reqState, hready, hfirst]
      rw [hstep]
      refine Or.inr (Or.inr (Or.inr (Or.inr ⟨m, base, rfl, h.current, hlast, ?_, h.paddr,
        h.errSt⟩)))
      exact ⟨h.serving.packets_ne, h.serving.first, h.serving.translated, h.serving.lookedUp⟩

theorem InMessage.step (h : InMessage READ s.handler l m base) (hv : s.vtp.st = .idle)
    (ho : OneByOne READ (s, l) i) :
    Phases READ (s.step READ i.sideIn i.port).handler (note l s i) := by
  have hs := h.reqState
  cases hacc : accepts s i with
  | false =>
    have hvalid : i.sideIn.reqValid = false := by rw [← accepts_of_idle hs]; exact hacc
    have hstep : (s.step READ i.sideIn i.port).handler = s.handler := by
      exact step_idle_of_quiet hs hvalid
    rw [hstep, note_of_quiet hacc (answered_eq_false (by simp [hs]))]
    exact Or.inr (Or.inr (Or.inr (Or.inr ⟨m, base, h⟩)))
  | true =>
    have hvalid : i.sideIn.reqValid = true := by rw [← accepts_of_idle hs]; exact hacc
    have hfirst : s.handler.first = false := by rw [h.serving.first, h.more]
    have hown : i.message = m := by
      have hopened : l.opened =
          if (l.of i.message).packets = [] then none else some i.message := ho.whole hacc
      rw [opened_of_current h.current, h.more, if_neg Bool.false_ne_true] at hopened
      split_ifs at hopened
      exact (Option.some.inj hopened).symm
    have hready := Side.reqReady_lookup hv hs
    have hstep : (s.step READ i.sideIn i.port).handler =
        { s.handler with
          len := i.sideIn.reqData.len
          totalLen := s.handler.totalLen + i.sideIn.reqData.len.setWidth 48
          first := i.sideIn.reqData.last
          reqState := .middle } := by
      exact step_idle_of_later hs hvalid hready hfirst
    have hne := h.serving.packets_ne
    rw [hstep, note_of_accepts hacc, hown]
    refine Or.inr (Or.inr (Or.inl ⟨m, base, rfl, rfl, ?_, ?_, ?_⟩))
    · rw [of_take]
      refine ⟨by simp [Record.cons], rfl, ?_, fun hrem => ?_⟩
      · rw [Record.translated_cons hne]
        exact h.serving.translated
      · rw [Record.first_cons hne] at hrem
        obtain ⟨resp, hresp, hbuf, hacc, htotal, hkey⟩ := h.serving.lookedUp hrem
        refine ⟨resp, hresp, hbuf, hacc, ?_, ?_⟩
        · rw [Record.total_cons hne, ← htotal]
        · rw [Record.keyOk_cons hne]
          exact hkey
    · rw [of_take]
      rfl
    · rw [of_take, Record.before_cons]
      exact h.paddr

end Cycle

/-! ## Runs -/

section Run

variable {READ : Bool} {s : Side} {l : Ledger M} {i : Offer M}

theorem Inv.step (h : Inv READ (s, l)) (ho : OneByOne READ (s, l) i) :
    Inv READ (s.step READ i.sideIn i.port, note l s i) := by
  obtain ⟨hvtp, hphases⟩ := h
  refine ⟨Side.vtp_idle_step hvtp, ?_⟩
  rcases hphases with hb | ⟨m, p, hl⟩ | ⟨m, base, hc⟩ | ⟨m, base, hd⟩ | ⟨m, base, hm⟩
  · have hs : s.handler.reqState ≠ .getPaddr := by
      rcases hb.reqState with hs | hs <;> exact fun hno => nomatch hs.symm.trans hno
    exact hb.step (hvtp hs) ho
  · exact hl.step
  · exact hc.step ho
  · exact hd.step
  · exact hm.step (hvtp fun hno => nomatch hm.reqState.symm.trans hno) ho

theorem inv_reset : Inv READ (messages READ : Machine (Side × Ledger M) (Offer M)).reset :=
  ⟨fun _ => rfl, Or.inl ⟨Or.inl rfl, rfl, rfl, rfl, rfl⟩⟩

omit [DecidableEq M] in
/-- The invariant is the isolation of what the handler asks for and hands over. -/
theorem Inv.serves (h : Inv READ (s, l)) : Isolated READ (s, l) := by
  obtain ⟨-, hphases⟩ := h
  constructor
  · intro hvalid
    have hs : s.handler.reqState = .getPaddr := by simpa [Handler.reqAddrValid] using hvalid
    rcases hphases with hb | ⟨m, p, hl⟩ | ⟨m, base, hc⟩ | ⟨m, base, hd⟩ | ⟨m, base, hm⟩
    · rcases hb.reqState with hno | hno <;> cases hs.symm.trans hno
    · refine ⟨m, p, hl.current, hl.packets, hl.remote, ?_⟩
      have hpd : (p.tag.setWidth 33).extractLsb' 8 24 = p.tag.extractLsb' 8 24 := by
        ext j hj
        simp
        omega
      show s.lookup = _
      rw [Side.lookup_of_getPaddr hs, Handler.reqAddrPdidx, hl.offsVaddr, hl.tag, hl.qpn,
        hpd]
    · cases hs.symm.trans hc.reqState
    · cases hs.symm.trans hd.reqState
    · cases hs.symm.trans hm.reqState
  · intro hvalid
    have hs : s.handler.reqState = .sendCmd := by simpa [Handler.cmdValid] using hvalid
    rcases hphases with hb | ⟨m, p, hl⟩ | ⟨m, base, hc⟩ | ⟨m, base, hd⟩ | ⟨m, base, hm⟩
    · rcases hb.reqState with hno | hno <;> cases hs.symm.trans hno
    · cases hs.symm.trans hl.reqState
    · cases hs.symm.trans hc.reqState
    · exact ⟨m, base, hd.current, hd.serving.translated, hd.cmdData, hd.admits⟩
    · cases hs.symm.trans hm.reqState

/-- **One set of registers serves one message.**  On both handlers, with every register port
and any names for the messages: when the packets arrive message by message and none is lost
or rejected, every lookup is for the first packet of its own message, every command is at the
own translation behind the own packets before, and every remote message has been looked up
and admitted. -/
theorem isolated_run (READ : Bool) (is : List (Offer M))
    (hrun : (messages READ).Guarded (OneByOne READ) (messages READ).reset is) :
    (messages READ).Always (Isolated READ) (messages READ).reset is :=
  (Machine.always_of_guarded (fun _ _ hs ho => hs.step ho) inv_reset hrun).mono
    fun _ hs => hs.serves

end Run

/-! ### A write of two packets and another write -/

instance (READ : Bool) (s : Side × Ledger M) (i : Offer M) : Decidable (OneByOne READ s i) :=
  decidable_of_iff
    ((accepts s.1 i = true → s.1.handler.reqState = .idle) ∧
      (accepts s.1 i = true →
        s.2.opened = if (s.2.of i.message).packets = [] then none else some i.message) ∧
      (s.1.handler.reqState = .middle → checkPasses READ s.1.handler = true))
    ⟨fun h => ⟨h.1, h.2.1, h.2.2⟩, fun h => ⟨h.heard, h.whole, h.passes⟩⟩

/-- A register port that answers at once, with one region of 4096 bytes: 0x1000 is 0x8000. -/
def oneRegion : Vtp.PortView where
  findPdReady := true
  qpRdReg := fun _ => 0
  qpRdRegQ := fun _ => 0
  pdRdRegQ := fun reg =>
    if reg = virtaddrlsbIdx then 0x1000
    else if reg = bufbaseaddrlsbIdx then 0x8000
    else if reg = bufrkeyIdx then 7
    else if reg = wrrdbuflenIdx then 0x1000
    else if reg = accessdescIdx then 2
    else 0

/-- A packet of 64 bytes of an inbound write by the queue pair of the number `m`. -/
def offer (m : ℕ) (opcode : BitVec 5) (vaddr : BitVec 64) (last : Bool) : Offer ℕ where
  sideIn := ⟨true, { (default : Req) with
    opcode := opcode, qpn := BitVec.ofNat 16 m, vaddr := vaddr, tag := 7, len := 64,
    last := last }, true⟩
  port := oneRegion
  message := m

/-- A cycle without a packet. -/
def wait : Offer ℕ := ⟨⟨false, default, true⟩, oneRegion, 0⟩

/-- The message 1 has two packets, and the message 2 follows. -/
def oneByOne : List (Offer ℕ) :=
  offer 1 rcRdmaWriteFirst 0x1000 false :: List.replicate 8 wait ++
    offer 1 rcRdmaWriteLast 0 true :: List.replicate 2 wait ++
    offer 2 rcRdmaWriteOnly 0x1800 true :: List.replicate 8 wait

theorem isolated_oneByOne :
    (messages false).Always (Isolated false) (messages false).reset oneByOne :=
  isolated_run false oneByOne (by decide +kernel)

/-- The message 2 comes between the packets of the message 1. -/
def between : List (Offer ℕ) :=
  offer 1 rcRdmaWriteFirst 0x1000 false :: List.replicate 8 wait ++
    offer 2 rcRdmaWriteOnly 0x1800 true :: List.replicate 1 wait

/-- The message 2 is not looked up, and its command is where the message 1 goes on, which
is not in its own region. -/
theorem between_not_isolated :
    ((messages false).run between).1.handler.cmdValid = true ∧
    ((messages false).run between).1.handler.cmdData = cmdWord 0x8040 64 ∧
    ((messages false).run between).2.current = some 2 ∧
    ¬ Isolated false ((messages false).run between) := by
  refine ⟨by decide +kernel, by decide +kernel, by decide +kernel, fun h => ?_⟩
  obtain ⟨m, base, hm, hbase, -⟩ := h.command (by decide +kernel)
  have hcurrent : ((messages false).run between).2.current = some 2 := by decide +kernel
  obtain rfl : m = 2 := Option.some.inj (hm.symm.trans hcurrent)
  have hnone : (((messages false).run between).2.of 2).translated false = none := by
    decide +kernel
  exact nomatch hnone.symm.trans hbase

end Isolation
end RecoNIC
