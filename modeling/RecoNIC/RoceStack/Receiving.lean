import RecoNIC.RoceStack.Settled
import RecoNIC.RoceStack.Translation

/-!
# The receive pointers

An inbound SEND is stored where `STATRQBUFCAi` and `STATRQBUFCAMSBi` of its queue pair
point, and when its last packet is done the write side writes the next address back,
together with the next `STATRQPIDBi`.  What it adds to is what its lookup has returned: the
old values travel through the handler, the new ones through three slots of the register
port, and the next lookup reads them from the RAMs.

The composition is that of `Translation`, with the write-back of the write side wired to
the port.  The ledger keeps the answers that the completed SENDs to one queue pair were
stored by, so `left` is what the last of them has left behind.  `Orderly` is what a cycle
must not do to get in the way of one register, and `fresh_run` says that nothing else can:
the answer to every SEND lookup is what the SEND before it has left.
-/

namespace RecoNIC
namespace Receiving

open Synchronous Translation
open RequestHandler hiding Input step
open RegisterPort hiding Input step note Ledger Ledger.empty

/-! ## The wiring -/

/-- `WB_STATRQi_valid_i` and the values under it. -/
def statrq (h : Handler) : Option (BitVec 72 × BitVec 40) :=
  if h.wbValid then some (h.wbRqbufaddr, h.wbRqpidb) else none

/-- The inputs of the composition, with the write-back of the write side. -/
def wired (s : State) (i : Input) : Input :=
  { i with wb := { i.wb with statrq := statrq s.wr.handler } }

/-- One clock edge. -/
def step (s : State) (i : Input) : State := s.step (wired s i)

/-- The composition after reset. -/
def reset (regs : RegFile) : State := ⟨Side.reset, Side.reset, Port.reset regs⟩

/-! ## The ledger -/

/-- The opcodes of an inbound SEND. -/
def isSend (opcode : BitVec 5) : Bool :=
  opcode == rcSendFirst || opcode == rcSendMiddle || opcode == rcSendLast ||
    opcode == rcSendOnly

/-- The messages of the write side, and what became of the SENDs to one queue pair. -/
structure Ledger where
  /-- The next request begins a message. -/
  first : Bool
  /-- The request that began the message. -/
  message : Req
  /-- The bytes that the handler has taken for the message, without the last packet. -/
  before : Nat
  /-- The bytes of the last packet. -/
  size : Nat
  /-- The SENDs that have been accepted as a whole. -/
  sends : Nat
  /-- The answer to the last lookup. -/
  answer : DmaReq
  /-- The answers of the SENDs that were completed, the last one first. -/
  done : List DmaReq

/-- The empty ledger. -/
def Ledger.empty : Ledger := ⟨true, default, 0, 0, 0, default, []⟩

/-- The write side takes a request. -/
def accepts (s : State) (i : Input) : Bool := i.wrIn.reqValid && s.wr.handler.reqReady

/-- The handler goes on to work on a request. -/
def hears (s : State) (i : Input) : Bool :=
  i.wrIn.reqValid && s.wr.handler.reqState == .idle

/-- The write side takes an answer. -/
def answered (s : State) : Bool := s.wr.handler.reqAddrValid && s.wr.vtp.respValid

/-- The write side completes a SEND to `q`, as it sees it. -/
def completes (q : BitVec 8) (s : State) : Bool :=
  s.wr.handler.wbValid && s.wr.handler.qpn.setWidth 8 == q

/-- The request that began the message of the request `r`. -/
def Ledger.head (l : Ledger) (r : Req) : Req := if l.first then r else l.message

/-- A request is accepted. -/
def Ledger.accept (q : BitVec 8) (l : Ledger) (r : Req) : Ledger :=
  { l with
    first := r.last
    message := l.head r
    sends :=
      if r.last && isSend (l.head r).opcode && (l.head r).qpn.setWidth 8 == q then l.sends + 1
      else l.sends }

/-- One cycle in the ledger of the queue pair `q`. -/
def note (q : BitVec 8) (l : Ledger) (s : State) (i : Input) : Ledger :=
  { (if accepts s i then l.accept q i.wrIn.reqData else l) with
    before :=
      if hears s i then if s.wr.handler.first then 0 else l.before + l.size else l.before
    size := if hears s i then i.wrIn.reqData.len.toNat else l.size
    answer := if answered s then s.wr.vtp.respAddrData else l.answer
    done := if completes q s then l.answer :: l.done else l.done }

/-- The composition with its ledger. -/
def receiving (q : BitVec 8) (regs : RegFile) : Machine (State × Ledger) Input :=
  Machine.watch ⟨reset regs, step⟩ Ledger.empty (note q)

@[simp] theorem receiving_step (q : BitVec 8) (regs : RegFile) (s : State × Ledger) (i : Input) :
    (receiving q regs).step s i = (step s.1 i, note q s.2 s.1 i) := rfl

/-! ## Pointers -/

/-- Where the next SEND is stored, and its number. -/
@[ext] structure Pointers where
  addr : BitVec 64
  index : BitVec 32
  deriving DecidableEq

/-- The pointers in a row of registers. -/
def Pointers.ofRow (row : RegRow) : Pointers :=
  ⟨row statrqbufcamsbiIdx ++ row statrqbufcaiIdx, row statrqpidbiIdx⟩

/-- The pointers in an answer. -/
def Pointers.ofAnswer (resp : DmaReq) : Pointers := ⟨resp.paddr, resp.rkey⟩

/-- What a SEND leaves behind. -/
def Pointers.next (resp : DmaReq) : Pointers :=
  ⟨resp.paddr + resp.buflen.setWidth 64, resp.rkey + 1⟩

/-- What the last completed SEND has left behind. -/
def left (init : Pointers) : List DmaReq → Pointers
  | [] => init
  | resp :: _ => .next resp

/-- The register of the kind `k` that holds its part of the pointers. -/
def Pointers.word (p : Pointers) : WbKind → BitVec 32
  | .statrqbufcai => p.addr.setWidth 32
  | .statrqbufcamsbi => p.addr.extractLsb' 32 32
  | _ => p.index

/-- The kinds of write-back under `WB_STATRQi_valid_i`. -/
def statrqKinds : List WbKind := [.statrqbufcai, .statrqbufcamsbi, .statrqpidbi]

/-- Every completed SEND was stored by what the one before it has left behind. -/
def Follows (init : Pointers) : List DmaReq → Prop
  | [] => True
  | resp :: rest => .ofAnswer resp = left init rest ∧ Follows init rest

/-! ## What must not happen -/

/-- A local READ response begins while the handler still has the address zero of a SEND to
`q`, or that of the reset. -/
def Local (q : BitVec 8) (s : State) (i : Input) : Prop :=
  s.wr.handler.reqState = .idle ∧ i.wrIn.reqValid = true ∧ s.wr.handler.first = true ∧
    isLocal false i.wrIn.reqData.opcode = true ∧ s.wr.handler.offsVaddr = 0#64 ∧
    s.wr.handler.qpn.setWidth 8 = q

instance (q : BitVec 8) (s : State) (i : Input) : Decidable (Local q s i) :=
  inferInstanceAs (Decidable (_ ∧ _ ∧ _ ∧ _ ∧ _ ∧ _))

/-- The port announces a row while the write side waits for the row of a SEND to `q`. -/
def Announced (q : BitVec 8) (s : State) : Prop :=
  s.port.findPdReady = true ∧ s.wr.vtp.st = .rdPdn ∧ s.wr.handler.offsVaddr = 0#64 ∧
    s.wr.handler.qpn.setWidth 8 = q

instance (q : BitVec 8) (s : State) : Decidable (Announced q s) :=
  inferInstanceAs (Decidable (_ ∧ _ ∧ _ ∧ _))

/-- A cycle that leaves the register of the kind `k` of `q` to the SENDs. -/
structure Orderly (q : BitVec 8) (k : WbKind) (s : State) (i : Input) : Prop where
  /-- No READ response is taken for the end of a SEND. -/
  remote : ¬ Local q s i
  /-- A row that the write side takes for its own is its own, and was read after the
  write-back of the SEND before. -/
  current : Announced q s → s.port.lRdCmd = s.wr.vtp.findPd ∧ ¬ s.port.Holds k q
  /-- No SEND to another queue pair takes the slot. -/
  kept : Kept s.port (s.portIn (wired s i)) k q
  /-- The AXI-Lite side leaves the register alone. -/
  untouched : Untouched (s.portIn (wired s i)) q k.idx

/-! ## The write-back -/

section Step

variable {q : BitVec 8} {k : WbKind} {s : State} {i : Input} {l : Ledger} {init : Pointers}

theorem mem_qpKinds (hk : k ∈ statrqKinds) : k ∈ qpKinds := by
  revert hk
  cases k <;> decide

section Fields

variable {n m : Nat} (a : BitVec n) (b : BitVec m)

/-- The upper part of a concatenation that was cut above it. -/
theorem extractLsb'_cut_append {w len : Nat} (h : m + len ≤ w) :
    ((a ++ b).setWidth w).extractLsb' m len = a.setWidth len := by
  ext i hi
  have hbit : (a ++ b).getLsbD (m + i) = a.getLsbD i := by
    rw [BitVec.getLsbD_append, if_neg (by omega), Nat.add_sub_cancel_left]
  simp only [BitVec.getElem_extractLsb', BitVec.getLsbD_setWidth, BitVec.getElem_setWidth, hbit,
    show m + i < w by omega, decide_true, Bool.true_and]

/-- A field of the lower part. -/
theorem extractLsb'_cut_append_low {w start len : Nat} (h : start + len ≤ m)
    (h' : start + len ≤ w) :
    ((a ++ b).setWidth w).extractLsb' start len = b.extractLsb' start len := by
  ext i hi
  have hbit : (a ++ b).getLsbD (start + i) = b.getLsbD (start + i) := by
    rw [BitVec.getLsbD_append, if_pos (by omega)]
  simp only [BitVec.getElem_extractLsb', BitVec.getLsbD_setWidth, hbit,
    show start + i < w by omega, decide_true, Bool.true_and]

/-- The low end of the lower part. -/
theorem setWidth_cut_append {w len : Nat} (h : len ≤ m) (h' : len ≤ w) :
    ((a ++ b).setWidth w).setWidth len = b.setWidth len := by
  ext i hi
  have hbit : (a ++ b).getLsbD i = b.getLsbD i := by
    rw [BitVec.getLsbD_append, if_pos (by omega)]
  simp only [BitVec.getElem_setWidth, BitVec.getLsbD_setWidth, hbit,
    show i < w by omega, decide_true, Bool.true_and]

end Fields

/-- The pulse of the write side. -/
theorem cmd_wired (hk : k ∈ statrqKinds) (s : State) (i : Input) :
    (wired s i).wb.cmd k =
      if s.wr.handler.wbValid then
        some (qpWb k.idx (s.wr.handler.qpn.setWidth 8) 0xf
          ((Pointers.mk s.wr.handler.paddrBase s.wr.handler.rkeyDb).word k))
      else none := by
  have hstatrq : (wired s i).wb.statrq = statrq s.wr.handler := rfl
  have hqpn : s.wr.handler.wbRqbufaddr.extractLsb' 64 8 = s.wr.handler.qpn.setWidth 8 :=
    extractLsb'_cut_append _ _ (by decide)
  have hqpn' : s.wr.handler.wbRqpidb.extractLsb' 32 8 = s.wr.handler.qpn.setWidth 8 :=
    extractLsb'_cut_append _ _ (by decide)
  have hlsb : s.wr.handler.wbRqbufaddr.setWidth 32 = s.wr.handler.paddrBase.setWidth 32 :=
    setWidth_cut_append _ _ (by decide) (by decide)
  have hmsb : s.wr.handler.wbRqbufaddr.extractLsb' 32 32 =
      s.wr.handler.paddrBase.extractLsb' 32 32 :=
    extractLsb'_cut_append_low _ _ (by decide) (by decide)
  have hidx : s.wr.handler.wbRqpidb.setWidth 32 = s.wr.handler.rkeyDb :=
    (setWidth_cut_append _ _ (by decide) (by decide)).trans (BitVec.setWidth_eq _)
  cases hv : s.wr.handler.wbValid with
  | false =>
    cases k <;> first | exact absurd hk (by decide) | simp [WbIn.cmd, hstatrq, statrq, hv]
  | true =>
    cases k <;>
      first
      | exact absurd hk (by decide)
      | simp [WbIn.cmd, hstatrq, statrq, hv, hqpn, hqpn', hlsb, hmsb, hidx, WbKind.idx,
          Pointers.word]

/-- **What a cycle does to the settled value of a register.**  The end of a SEND to `q`
sets it, and nothing else changes it. -/
theorem settled_step_wired (hk : k ∈ statrqKinds) (howned : Owned s.port)
    (h : Orderly q k s i) :
    (step s i).port.settled k q =
      if completes q s then
        (Pointers.mk s.wr.handler.paddrBase s.wr.handler.rkeyDb).word k
      else s.port.settled k q := by
  have hport : (step s i).port = RegisterPort.step s.port (s.portIn (wired s i)) := rfl
  rw [hport, settled_step (mem_qpKinds hk) howned h.untouched h.kept,
    show (s.portIn (wired s i)).wb = (wired s i).wb from rfl, cmd_wired hk]
  cases hv : s.wr.handler.wbValid with
  | false => simp [completes, hv]
  | true =>
    by_cases hq : s.wr.handler.qpn.setWidth 8 = q
    · simp only [completes, hv, hq, after, Hits, qpWb, beq_self_eq_true, Bool.and_self, if_true,
        and_self]
      exact mergeBytes_all _ _
    · have hq' : ¬ q = s.wr.handler.qpn.setWidth 8 := fun h => hq h.symm
      simp [completes, hv, hq, hq', after, Hits, qpWb]

/-- Without the end of a SEND to `q` nothing of `q` gets on its way. -/
theorem clear_step_wired (hk : k ∈ statrqKinds) (howned : Owned s.port)
    (h : Clear s.port k q) (hnot : completes q s = false) : Clear (step s i).port k q := by
  refine h.step (mem_qpKinds hk) howned fun c hc => ?_
  have hcmd : (wired s i).wb.cmd k = some c := hc
  rw [cmd_wired hk] at hcmd
  split_ifs at hcmd with hv
  obtain rfl := Option.some.inj hcmd
  simpa [completes, hv, qpWb] using hnot

end Step

/-! ## The invariant -/

/-- Every completed SEND has found in its register of the kind `k` what the one before it
has left behind. -/
def FollowsAt (k : WbKind) (init : Pointers) : List DmaReq → Prop
  | [] => True
  | resp :: rest =>
    (Pointers.ofAnswer resp).word k = (left init rest).word k ∧ FollowsAt k init rest

/-- What was read for `q` is what was left, nothing of `q` is on its way, and the answer
is one of the kind `P`. -/
structure Current (init : Pointers) (P : DmaReq → Prop) (q : BitVec 8) (k : WbKind)
    (s : State) (l : Ledger) (resp : DmaReq) : Prop where
  word : (Pointers.ofAnswer resp).word k = (left init l.done).word k
  clear : Clear s.port k q
  good : P resp

/-- The handler holds the answer that its SEND to `q` is stored by. -/
structure Sending (init : Pointers) (P : DmaReq → Prop) (q : BitVec 8) (k : WbKind)
    (s : State) (l : Ledger) : Prop where
  paddrBase : s.wr.handler.paddrBase = l.answer.paddr
  buflen : s.wr.handler.buflen = l.answer.buflen
  rkeyDb : s.wr.handler.rkeyDb = l.answer.rkey
  current : Current init P q k s l l.answer

/-- What the handler holds, by its state. -/
def AtHandler (init : Pointers) (P : DmaReq → Prop) (q : BitVec 8) (k : WbKind) (s : State)
    (l : Ledger) : Prop :=
  match s.wr.handler.reqState with
  | .idle =>
    s.wr.handler.first = false → s.wr.handler.offsVaddr = 0#64 →
      s.wr.handler.qpn.setWidth 8 = q → Sending init P q k s l
  | .getPaddr => True
  | .middle | .sendCmd =>
    s.wr.handler.offsVaddr = 0#64 → s.wr.handler.qpn.setWidth 8 = q → Sending init P q k s l
  | .wbDbAdd =>
    s.wr.handler.first = true ∧ (s.wr.handler.qpn.setWidth 8 = q →
      Pointers.mk s.wr.handler.paddrBase s.wr.handler.rkeyDb = .next l.answer ∧
      Current init P q k s l l.answer)

/-- What its lookup machine holds, by its state. -/
def AtVtp (init : Pointers) (P : DmaReq → Prop) (q : BitVec 8) (k : WbKind) (s : State)
    (l : Ledger) : Prop :=
  match s.wr.vtp.st with
  | .idle => True
  | .rdPdn => s.wr.vtp.findPd = Vtp.qpCmd s.wr.handler.qpn
  | .reqPd | .prepResp => s.wr.handler.offsVaddr ≠ 0#64
  | .valid =>
    s.wr.handler.offsVaddr = 0#64 → s.wr.vtp.respAddrData.baseVaddr = 0#64 ∧
      (s.wr.handler.qpn.setWidth 8 = q → Current init P q k s l s.wr.vtp.respAddrData)
  | _ => False

/-- The invariant for one register. -/
structure Inv (init : Pointers) (P : DmaReq → Prop) (q : BitVec 8) (k : WbKind)
    (s : State × Ledger) : Prop where
  asking : s.1.wr.vtp.st ≠ .idle → s.1.wr.handler.reqState = .getPaddr
  owned : Owned s.1.port
  rows : Rows q k.idx s.1.port
  settled : s.1.port.settled k q = (left init s.2.done).word k
  handler : AtHandler init P q k s.1 s.2
  vtp : AtVtp init P q k s.1 s.2
  follows : FollowsAt k init s.2.done
  good : ∀ resp ∈ s.2.done, P resp

section Inv

variable {q : BitVec 8} {k : WbKind} {s : State} {i : Input} {l : Ledger} {init : Pointers}
  {P : DmaReq → Prop}

theorem completes_eq_false (h : s.wr.handler.reqState ≠ .wbDbAdd) : completes q s = false := by
  simp [completes, Handler.wbValid, h]

theorem done_note (h : completes q s = false) : (note q l s i).done = l.done := by
  simp [note, h]

theorem answer_note (h : answered s = false) : (note q l s i).answer = l.answer := by
  simp only [note, h, Bool.false_eq_true, if_false]

theorem answered_eq_false (h : s.wr.handler.reqState ≠ .getPaddr) : answered s = false := by
  simp [answered, Handler.reqAddrValid, h]

theorem Current.step {resp : DmaReq} (h : Current init P q k s l resp) (hk : k ∈ statrqKinds)
    (howned : Owned s.port) (hnot : completes q s = false) :
    Current init P q k (step s i) (note q l s i) resp := by
  refine ⟨?_, clear_step_wired hk howned h.clear hnot, h.good⟩
  rw [done_note hnot]
  exact h.word

/-- A handler that goes on with its message keeps what it holds. -/
theorem Sending.step (h : Sending init P q k s l) (hk : k ∈ statrqKinds) (howned : Owned s.port)
    (hwb : s.wr.handler.reqState ≠ .wbDbAdd) (hask : s.wr.handler.reqState ≠ .getPaddr)
    {hd : Handler} (heq : (Receiving.step s i).wr.handler = hd)
    (hbase : hd.paddrBase = s.wr.handler.paddrBase) (hlen : hd.buflen = s.wr.handler.buflen)
    (hdb : hd.rkeyDb = s.wr.handler.rkeyDb) :
    Sending init P q k (Receiving.step s i) (note q l s i) := by
  have hans : (note q l s i).answer = l.answer := answer_note (answered_eq_false hask)
  subst heq
  refine ⟨?_, ?_, ?_, ?_⟩
  · rw [hans, hbase, h.paddrBase]
  · rw [hans, hlen, h.buflen]
  · rw [hans, hdb, h.rkeyDb]
  · rw [hans]
    exact h.current.step hk howned (completes_eq_false hwb)

theorem handler_step (s : State) (i : Input) :
    (Receiving.step s i).wr.handler =
      RequestHandler.step false s.wr.handler (s.wr.handlerIn i.wrIn) := rfl

/-- The lookup machine is ready for a handler that asks for nothing. -/
theorem reqReady_of_idle (hasking : s.wr.vtp.st ≠ .idle → s.wr.handler.reqState = .getPaddr)
    (hs : s.wr.handler.reqState = .idle) :
    (s.wr.handlerIn i.wrIn).reqAddrReady = true := by
  have hidle : s.wr.vtp.st = .idle := by
    by_contra hne
    exact nomatch hs.symm.trans (hasking hne)
  simp [Side.handlerIn, Vtp.Regs.reqReady, hidle, Side.lookup, Handler.reqAddrValid, hs]

theorem atHandler_step_idle (h : Inv init P q k (s, l)) (hk : k ∈ statrqKinds)
    (hremote : ¬ Local q s i) (hs : s.wr.handler.reqState = .idle) :
    AtHandler init P q k (Receiving.step s i) (note q l s i) := by
  have hat := h.handler
  have hready := reqReady_of_idle (i := i) h.asking hs
  simp only [AtHandler, hs] at hat
  have hkeep (hfirst : s.wr.handler.first = false) (h0 : s.wr.handler.offsVaddr = 0#64)
      {hd : Handler} (heq : (Receiving.step s i).wr.handler = hd)
      (hbase : hd.paddrBase = s.wr.handler.paddrBase) (hlen : hd.buflen = s.wr.handler.buflen)
      (hdb : hd.rkeyDb = s.wr.handler.rkeyDb) (hq : s.wr.handler.qpn.setWidth 8 = q) :
      Sending init P q k (Receiving.step s i) (note q l s i) :=
    (hat hfirst h0 hq).step hk h.owned (by simp [hs]) (by simp [hs]) heq hbase hlen hdb
  have hstep := handler_step s i
  cases hv : i.wrIn.reqValid with
  | false =>
    have hsame : (Receiving.step s i).wr.handler = s.wr.handler := by
      rw [hstep]
      exact step_idle_of_quiet hs hv
    simp only [AtHandler, hsame, hs]
    exact fun hfirst h0 hq => hkeep hfirst h0 hsame rfl rfl rfl hq
  | true =>
    have hv' : (s.wr.handlerIn i.wrIn).reqValid = true := hv
    cases hfirst : s.wr.handler.first with
    | false =>
      have hnext : (Receiving.step s i).wr.handler =
          { s.wr.handler with
            len := i.wrIn.reqData.len
            totalLen := s.wr.handler.totalLen + i.wrIn.reqData.len.setWidth 48
            first := i.wrIn.reqData.last
            reqState := .middle } := by
        rw [hstep]
        exact step_idle_of_later hs hv' hready hfirst
      simp only [AtHandler, hnext]
      exact fun h0 hq => hkeep hfirst h0 hnext rfl rfl rfl hq
    | true =>
      cases hlocal : isLocal false i.wrIn.reqData.opcode with
      | false =>
        have hnext : (Receiving.step s i).wr.handler.reqState = .getPaddr := by
          have hlocal' : isLocal false (s.wr.handlerIn i.wrIn).reqData.opcode = false := hlocal
          rw [hstep]
          simp only [RequestHandler.step, hs, hv', hready, hfirst, hlocal', if_true,
            Bool.false_eq_true, if_false]
        simp only [AtHandler, hnext]
      | true =>
        have hnext : (Receiving.step s i).wr.handler.reqState = .middle ∧
            (Receiving.step s i).wr.handler.offsVaddr = s.wr.handler.offsVaddr ∧
            (Receiving.step s i).wr.handler.qpn = s.wr.handler.qpn := by
          rw [hstep]
          simp [RequestHandler.step, hs, hfirst, Side.handlerIn, hv, hlocal]
        simp only [AtHandler, hnext]
        exact fun h0 hq => absurd ⟨hs, hv, hfirst, hlocal, h0, hq⟩ hremote

/-- The answer is taken: what the SEND is stored by. -/
theorem atHandler_step_getPaddr (h : Inv init P q k (s, l)) (hk : k ∈ statrqKinds)
    (hs : s.wr.handler.reqState = .getPaddr) :
    AtHandler init P q k (Receiving.step s i) (note q l s i) := by
  have hstep := handler_step s i
  by_cases hv : s.wr.vtp.st = .valid
  · have hvtp := h.vtp
    simp only [AtVtp, hv] at hvtp
    have hresp : (s.wr.handlerIn i.wrIn).respAddrValid = true := by
      simp [Side.handlerIn, Vtp.Regs.respValid, hv]
    have hans : (note q l s i).answer = s.wr.vtp.respAddrData := by
      simp [note, answered, Handler.reqAddrValid, hs, Vtp.Regs.respValid, hv]
    have hnext : (Receiving.step s i).wr.handler.reqState = .middle ∧
        (Receiving.step s i).wr.handler.offsVaddr = s.wr.handler.offsVaddr ∧
        (Receiving.step s i).wr.handler.qpn = s.wr.handler.qpn ∧
        (Receiving.step s i).wr.handler.buflen = s.wr.vtp.respAddrData.buflen ∧
        (Receiving.step s i).wr.handler.rkeyDb = s.wr.vtp.respAddrData.rkey ∧
        (Receiving.step s i).wr.handler.paddrBase =
          s.wr.vtp.respAddrData.paddr +
            (s.wr.handler.offsVaddr - s.wr.vtp.respAddrData.baseVaddr) := by
      rw [hstep]
      simp only [RequestHandler.step, hs, hresp, if_true]
      exact ⟨trivial, trivial, trivial, rfl, rfl, rfl⟩
    obtain ⟨hst, hoffs, hqpn, hlen, hdb, hbase⟩ := hnext
    simp only [AtHandler, hst, hoffs, hqpn]
    intro h0 hq
    obtain ⟨hzero, hcur⟩ := hvtp h0
    refine ⟨?_, by rw [hlen, hans], by rw [hdb, hans], ?_⟩
    · rw [hbase, hans, h0, hzero]
      simp
    · rw [hans]
      exact (hcur hq).step hk h.owned (completes_eq_false (by simp [hs]))
  · have hsame : (Receiving.step s i).wr.handler = s.wr.handler :=
      Side.handler_step_of_lookup hs hv
    simp only [AtHandler, hsame, hs]

theorem atHandler_step_middle (h : Inv init P q k (s, l)) (hk : k ∈ statrqKinds)
    (hs : s.wr.handler.reqState = .middle) :
    AtHandler init P q k (Receiving.step s i) (note q l s i) := by
  have hat := h.handler
  simp only [AtHandler, hs] at hat
  have hnext : (Receiving.step s i).wr.handler.reqState = .sendCmd ∧
      (Receiving.step s i).wr.handler.offsVaddr = s.wr.handler.offsVaddr ∧
      (Receiving.step s i).wr.handler.paddrBase = s.wr.handler.paddrBase ∧
      (Receiving.step s i).wr.handler.buflen = s.wr.handler.buflen ∧
      (Receiving.step s i).wr.handler.rkeyDb = s.wr.handler.rkeyDb ∧
      (Receiving.step s i).wr.handler.qpn = s.wr.handler.qpn := by
    rw [handler_step]
    simp only [RequestHandler.step, hs]
    split_ifs <;> exact ⟨rfl, rfl, rfl, rfl, rfl, rfl⟩
  obtain ⟨hst, hoffs, hbase, hlen, hdb, hqpn⟩ := hnext
  simp only [AtHandler, hst, hoffs, hqpn]
  exact fun h0 hq => (hat h0 hq).step hk h.owned (by simp [hs]) (by simp [hs]) rfl hbase hlen hdb

/-- The command is taken: after the last one of a SEND the pointers move on. -/
theorem atHandler_step_sendCmd (h : Inv init P q k (s, l)) (hk : k ∈ statrqKinds)
    (hs : s.wr.handler.reqState = .sendCmd) :
    AtHandler init P q k (Receiving.step s i) (note q l s i) := by
  have hat := h.handler
  simp only [AtHandler, hs] at hat
  have hstep := handler_step s i
  have hkeep (h0 : s.wr.handler.offsVaddr = 0#64) {hd : Handler}
      (heq : (Receiving.step s i).wr.handler = hd)
      (hbase : hd.paddrBase = s.wr.handler.paddrBase) (hlen : hd.buflen = s.wr.handler.buflen)
      (hdb : hd.rkeyDb = s.wr.handler.rkeyDb) (hq : s.wr.handler.qpn.setWidth 8 = q) :
      Sending init P q k (Receiving.step s i) (note q l s i) :=
    (hat h0 hq).step hk h.owned (by simp [hs]) (by simp [hs]) heq hbase hlen hdb
  cases hr : i.wrIn.cmdReady with
  | false =>
    have hsame : (Receiving.step s i).wr.handler = s.wr.handler := by
      rw [hstep]
      exact step_sendCmd_of_not_ready hs hr
    simp only [AtHandler, hsame, hs]
    exact fun h0 hq => hkeep h0 hsame rfl rfl rfl hq
  | true =>
    have hr' : (s.wr.handlerIn i.wrIn).cmdReady = true := hr
    cases hfirst : s.wr.handler.first with
    | false =>
      have hnext : (Receiving.step s i).wr.handler =
          { s.wr.handler with reqState := .idle } := by
        rw [hstep]
        exact step_sendCmd_of_later hs hr' hfirst
      simp only [AtHandler, hnext]
      exact fun _ h0 hq => hkeep h0 hnext rfl rfl rfl hq
    | true =>
      by_cases h0 : s.wr.handler.offsVaddr = 0#64
      · have hnext : (Receiving.step s i).wr.handler =
            { s.wr.handler with
              totalLen := 0
              errSt := false
              paddrBase := s.wr.handler.paddrBase + s.wr.handler.buflen.setWidth 64
              rkeyDb := s.wr.handler.rkeyDb + 1
              reqState := .wbDbAdd } := by
          rw [hstep]
          exact step_sendCmd_of_send hs hr' hfirst h0
        have hans : (note q l s i).answer = l.answer :=
          answer_note (answered_eq_false (by simp [hs]))
        simp only [AtHandler, hnext, hans]
        refine ⟨hfirst, fun hq => ?_⟩
        have hold := hat h0 hq
        rw [hold.paddrBase, hold.buflen, hold.rkeyDb]
        exact ⟨rfl, hold.current.step hk h.owned (completes_eq_false (by simp [hs]))⟩
      · have hnext : (Receiving.step s i).wr.handler.reqState = .idle ∧
            (Receiving.step s i).wr.handler.first = true := by
          rw [hstep, step_sendCmd_of_last hs hr' hfirst h0]
          exact ⟨rfl, hfirst⟩
        simp only [AtHandler, hnext]
        rintro ⟨⟩

theorem atHandler_step_wbDbAdd (h : Inv init P q k (s, l))
    (hs : s.wr.handler.reqState = .wbDbAdd) :
    AtHandler init P q k (Receiving.step s i) (note q l s i) := by
  have hat := h.handler
  simp only [AtHandler, hs] at hat
  have hnext : (Receiving.step s i).wr.handler.reqState = .idle ∧
      (Receiving.step s i).wr.handler.first = true := by
    rw [handler_step, step_wbDbAdd hs]
    exact ⟨rfl, hat.1⟩
  simp only [AtHandler, hnext]
  rintro ⟨⟩

theorem atHandler_step (h : Inv init P q k (s, l)) (hk : k ∈ statrqKinds) (ho : Orderly q k s i) :
    AtHandler init P q k (Receiving.step s i) (note q l s i) := by
  cases hs : s.wr.handler.reqState with
  | idle => exact atHandler_step_idle h hk ho.remote hs
  | getPaddr => exact atHandler_step_getPaddr h hk hs
  | middle => exact atHandler_step_middle h hk hs
  | sendCmd => exact atHandler_step_sendCmd h hk hs
  | wbDbAdd => exact atHandler_step_wbDbAdd h hs

theorem vtp_step (s : State) (i : Input) :
    (Receiving.step s i).wr.vtp =
      Vtp.wrStep s.wr.vtp s.wr.lookup s.wr.handler.respAddrReady (view s.port) := rfl

/-- The row that answers a SEND lookup holds the settled value. -/
theorem current_of_announced (h : Inv init P q k (s, l)) (hk : k ∈ statrqKinds)
    (hr : s.port.findPdReady = true) (hst : s.wr.vtp.st = .rdPdn)
    (h0 : s.wr.handler.offsVaddr = 0#64) (hq : s.wr.handler.qpn.setWidth 8 = q)
    (hcurrent : Announced q s → s.port.lRdCmd = s.wr.vtp.findPd ∧ ¬ s.port.Holds k q)
    (hgood : Announced q s → P (Vtp.sendResp s.port.qpRdReg s.port.qpRdRegQ)) :
    Current init P q k s l (Vtp.sendResp s.port.qpRdReg s.port.qpRdRegQ) := by
  have hann : Announced q s := ⟨hr, hst, h0, hq⟩
  obtain ⟨hcmd, hclear⟩ := hcurrent hann
  have hfind := h.vtp
  simp only [AtVtp, hst] at hfind
  simp only [Port.findPdReady, Bool.and_eq_true, beq_iff_eq] at hr
  have hready := hr.1.1
  rw [hfind] at hcmd
  have haddr : s.port.lRdCmd.address = q := by rw [hcmd, ← hq]; rfl
  obtain ⟨hrow, hrowQ⟩ := h.rows.settled (mem_qpKinds hk) h.owned hready
    (by rw [hcmd]; exact ⟨rfl, rfl⟩) haddr hclear
  refine ⟨?_, ⟨hclear, fun hw => absurd (hready.symm.trans hw.1) (by decide)⟩, hgood hann⟩
  rw [← h.settled]
  have hpaddr : (Vtp.sendResp s.port.qpRdReg s.port.qpRdRegQ).paddr =
      s.port.qpRdRegQ statrqbufcamsbiIdx ++ s.port.qpRdReg statrqbufcaiIdx := rfl
  cases k with
  | statrqbufcai =>
    rw [← hrow]
    simp only [Pointers.ofAnswer, Pointers.word, hpaddr]
    exact BitVec.setWidth_append_eq_right
  | statrqbufcamsbi =>
    rw [← hrowQ]
    simp only [Pointers.ofAnswer, Pointers.word, hpaddr]
    exact BitVec.extractLsb'_append_eq_left
  | statrqpidbi => exact hrow
  | _ => exact absurd hk (by decide)

/-- The row has been asked for: a SEND is answered from it. -/
theorem atVtp_step_rdPdn (h : Inv init P q k (s, l)) (hk : k ∈ statrqKinds)
    (ho : Orderly q k s i)
    (hgood : Announced q s → P (Vtp.sendResp s.port.qpRdReg s.port.qpRdRegQ))
    (hs : s.wr.handler.reqState = .getPaddr) (hst : s.wr.vtp.st = .rdPdn) :
    AtVtp init P q k (Receiving.step s i) (note q l s i) := by
  have hvtp := h.vtp
  simp only [AtVtp, hst] at hvtp
  have hask := Side.lookup_of_getPaddr hs
  have hsame : (Receiving.step s i).wr.handler = s.wr.handler :=
    Side.handler_step_of_lookup hs (by simp [hst])
  cases hr : s.port.findPdReady with
  | false =>
    have hnext : (Receiving.step s i).wr.vtp = s.wr.vtp := by
      rw [vtp_step s i]
      simp [Vtp.wrStep, hst, view, hr]
    simp only [AtVtp, hsame, hnext, hst]
    exact hvtp
  | true =>
    by_cases h0 : s.wr.handler.offsVaddr = 0#64
    · have hnext : (Receiving.step s i).wr.vtp =
          { s.wr.vtp with
            findPdValid := false
            respAddrData := Vtp.sendResp s.port.qpRdReg s.port.qpRdRegQ
            st := .valid } := by
        rw [vtp_step s i]
        simp [Vtp.wrStep, hst, view, hr, hask, h0]
      simp only [AtVtp, hsame, hnext]
      refine fun _ => ⟨rfl, fun hq => ?_⟩
      have hnot : completes q s = false := completes_eq_false (by simp [hs])
      exact (current_of_announced h hk hr hst h0 hq ho.current hgood).step hk h.owned hnot
    · have hnext : (Receiving.step s i).wr.vtp.st = .reqPd := by
        rw [vtp_step s i]
        simp [Vtp.wrStep, hst, view, hr, hask, h0]
      simp only [AtVtp, hsame, hnext]
      exact h0

/-- The protection domain has been asked for, so the request is not a SEND. -/
theorem atVtp_step_prepResp (h : Inv init P q k (s, l))
    (hs : s.wr.handler.reqState = .getPaddr) (hst : s.wr.vtp.st = .prepResp) :
    AtVtp init P q k (Receiving.step s i) (note q l s i) := by
  have hvtp := h.vtp
  simp only [AtVtp, hst] at hvtp
  have hsame : (Receiving.step s i).wr.handler = s.wr.handler :=
    Side.handler_step_of_lookup hs (by simp [hst])
  cases hr : s.port.findPdReady with
  | false =>
    have hnext : (Receiving.step s i).wr.vtp = s.wr.vtp := by
      rw [vtp_step s i]
      simp [Vtp.wrStep, Vtp.Regs.finish, hst, view, hr]
    simp only [AtVtp, hsame, hnext, hst]
    exact hvtp
  | true =>
    have hnext : (Receiving.step s i).wr.vtp.st = .valid := by
      rw [vtp_step s i]
      simp [Vtp.wrStep, Vtp.Regs.finish, hst, view, hr]
    simp only [AtVtp, hsame, hnext]
    exact fun h0 => absurd h0 hvtp

theorem atVtp_step (h : Inv init P q k (s, l)) (hk : k ∈ statrqKinds) (ho : Orderly q k s i)
    (hgood : Announced q s → P (Vtp.sendResp s.port.qpRdReg s.port.qpRdRegQ)) :
    AtVtp init P q k (Receiving.step s i) (note q l s i) ∧
      ((Receiving.step s i).wr.vtp.st ≠ .idle →
        (Receiving.step s i).wr.handler.reqState = .getPaddr) := by
  have hvtp := h.vtp
  have hstep := vtp_step s i
  by_cases hs : s.wr.handler.reqState = .getPaddr
  · have hask := Side.lookup_of_getPaddr hs
    have hkeep (hnv : s.wr.vtp.st ≠ .valid) :
        (Receiving.step s i).wr.handler = s.wr.handler := Side.handler_step_of_lookup hs hnv
    unfold AtVtp at hvtp
    cases hst : s.wr.vtp.st <;> simp only [hst] at hvtp
    case idle =>
      have hsame := hkeep (by simp [hst])
      have hnext : (Receiving.step s i).wr.vtp = s.wr.vtp.askQp s.wr.lookup := by
        rw [hstep]
        simp [Vtp.wrStep, hst, hask]
      simp only [AtVtp, hsame, hnext, Vtp.Regs.askQp, hask, hs]
      exact ⟨trivial, fun _ => trivial⟩
    case rdPdn =>
      rw [hkeep (by simp [hst])]
      exact ⟨atVtp_step_rdPdn h hk ho hgood hs hst, fun _ => hs⟩
    case reqPd =>
      have hsame := hkeep (by simp [hst])
      have hnext : (Receiving.step s i).wr.vtp = s.wr.vtp.askPd s.wr.lookup := by
        rw [hstep]
        simp [Vtp.wrStep, hst]
      rw [hsame]
      refine ⟨?_, fun _ => hs⟩
      simp only [AtVtp, hsame, hnext, Vtp.Regs.askPd]
      exact hvtp
    case prepResp =>
      rw [hkeep (by simp [hst])]
      exact ⟨atVtp_step_prepResp h hs hst, fun _ => hs⟩
    case valid =>
      have hnext : (Receiving.step s i).wr.vtp.st = .idle := by
        rw [hstep]
        simp [Vtp.wrStep, Vtp.Regs.finish, hst, Handler.respAddrReady, hs]
      simp only [AtVtp, hnext]
      exact ⟨trivial, fun hno => absurd rfl hno⟩
  · have hst : s.wr.vtp.st = .idle := by
      by_contra hne
      exact hs (h.asking hne)
    have hsame : (Receiving.step s i).wr.vtp = s.wr.vtp := Side.vtp_step_of_not_getPaddr hst hs
    simp only [AtVtp, hsame, hst]
    exact ⟨trivial, fun hno => absurd rfl hno⟩

/-- When the handler completes a SEND to `q`, it writes back what its answer leaves. -/
theorem Inv.of_completes (h : Inv init P q k (s, l)) (hc : completes q s = true) :
    Pointers.mk s.wr.handler.paddrBase s.wr.handler.rkeyDb = .next l.answer ∧
      Current init P q k s l l.answer ∧ (note q l s i).done = l.answer :: l.done := by
  have hs : s.wr.handler.reqState = .wbDbAdd := by
    by_contra hne
    rw [completes_eq_false hne] at hc
    cases hc
  have hat := h.handler
  simp only [AtHandler, hs] at hat
  have hq := hc
  simp only [completes, Bool.and_eq_true, beq_iff_eq] at hq
  obtain ⟨hnext, hcur⟩ := hat.2 hq.2
  exact ⟨hnext, hcur, by simp [note, hc]⟩

/-- One clock edge that leaves the register to the SENDs. -/
theorem Inv.step (h : Inv init P q k (s, l)) (hk : k ∈ statrqKinds) (ho : Orderly q k s i)
    (hgood : Announced q s → P (Vtp.sendResp s.port.qpRdReg s.port.qpRdRegQ)) :
    Inv init P q k (Receiving.step s i, note q l s i) := by
  obtain ⟨hvtp, hasking⟩ := atVtp_step h hk ho hgood
  have hsettled := settled_step_wired (i := i) hk h.owned ho
  cases hc : completes q s with
  | false =>
    have hdone : (note q l s i).done = l.done := done_note hc
    refine ⟨hasking, h.owned.step, h.rows.step ho.untouched, ?_, atHandler_step h hk ho, hvtp,
      ?_, ?_⟩
    · show (Receiving.step s i).port.settled k q = (left init (note q l s i).done).word k
      rw [hsettled, hdone, hc]
      exact h.settled
    · show FollowsAt k init (note q l s i).done
      rw [hdone]
      exact h.follows
    · show ∀ resp ∈ (note q l s i).done, P resp
      rw [hdone]
      exact h.good
  | true =>
    obtain ⟨hnext, hcur, hdone⟩ := h.of_completes (i := i) hc
    refine ⟨hasking, h.owned.step, h.rows.step ho.untouched, ?_, atHandler_step h hk ho, hvtp,
      ?_, ?_⟩
    · show (Receiving.step s i).port.settled k q = (left init (note q l s i).done).word k
      rw [hsettled, hdone, if_pos hc, hnext]
      rfl
    · show FollowsAt k init (note q l s i).done
      rw [hdone]
      exact ⟨hcur.word, h.follows⟩
    · show ∀ resp ∈ (note q l s i).done, P resp
      rw [hdone]
      intro resp hmem
      rcases List.mem_cons.mp hmem with rfl | hmem
      · exact hcur.good
      · exact h.good resp hmem

theorem inv_reset (hk : k ∈ statrqKinds) (regs : RegFile) :
    Inv (.ofRow (regs.qp q)) P q k (reset regs, Ledger.empty) where
  asking hno := absurd rfl hno
  owned := owned_reset regs
  rows := rows_reset regs
  settled := by
    have hsettled : (reset regs).port.settled k q = regs.qp q k.idx := rfl
    rw [hsettled]
    cases k with
    | statrqbufcai => exact BitVec.setWidth_append_eq_right.symm
    | statrqbufcamsbi => exact BitVec.extractLsb'_append_eq_left.symm
    | statrqpidbi => rfl
    | _ => exact absurd hk (by decide)
  handler hno := nomatch hno
  vtp := trivial
  follows := trivial
  good := nofun

/-- The invariant holds in every state of a run that leaves the register to the SENDs. -/
theorem inv_run (hk : k ∈ statrqKinds) (regs : RegFile) (is : List Input)
    (h : (receiving q regs).Guarded (fun s i => Orderly q k s.1 i) (receiving q regs).reset is) :
    (receiving q regs).Always (Inv (.ofRow (regs.qp q)) (fun _ => True) q k)
      (receiving q regs).reset is :=
  Machine.always_of_guarded (fun _ _ hs ho => hs.step hk ho fun _ => trivial) (inv_reset hk regs) h

end Inv

/-! ## The result -/

/-- What the pointers are told by their three registers. -/
theorem Pointers.eq_of_word {p p' : Pointers} (h : ∀ k ∈ statrqKinds, p.word k = p'.word k) :
    p = p' := by
  have hlsb : p.addr.setWidth 32 = p'.addr.setWidth 32 := h .statrqbufcai (by decide)
  have hmsb : p.addr.extractLsb' 32 32 = p'.addr.extractLsb' 32 32 :=
    h .statrqbufcamsbi (by decide)
  refine Pointers.ext ?_ (h .statrqpidbi (by decide))
  ext i hi
  rw [← BitVec.getLsbD_eq_getElem hi, ← BitVec.getLsbD_eq_getElem hi]
  by_cases hlow : i < 32
  · have hbit := congrArg (·.getLsbD i) hlsb
    simpa [hlow] using hbit
  · have hbit := congrArg (·.getLsbD (i - 32)) hmsb
    simpa [show i - 32 < 32 by omega, show 32 + (i - 32) = i by omega] using hbit

theorem follows_of_forall {init : Pointers} {done : List DmaReq}
    (h : ∀ k ∈ statrqKinds, FollowsAt k init done) : Follows init done := by
  induction done with
  | nil => trivial
  | cons resp rest ih =>
    exact ⟨Pointers.eq_of_word fun k hk => (h k hk).1, ih fun k hk => (h k hk).2⟩

/-- The answer to a SEND to `q` is what the SEND before it has left, and so was every
answer that a completed SEND was stored by; two consecutive ones are stored apart. -/
structure Fresh (init : Pointers) (q : BitVec 8) (s : State × Ledger) : Prop where
  answer : s.1.wr.vtp.respValid = true → s.1.wr.handler.offsVaddr = 0#64 →
    s.1.wr.handler.qpn.setWidth 8 = q → .ofAnswer s.1.wr.vtp.respAddrData = left init s.2.done
  follows : Follows init s.2.done
  apart : ∀ resp before rest, s.2.done = resp :: before :: rest → before.buflen ≠ 0 →
    resp.paddr ≠ before.paddr

theorem fresh_of_inv {init : Pointers} {P : DmaReq → Prop} {q : BitVec 8}
    {s : State × Ledger} (h : ∀ k : {k // k ∈ statrqKinds}, Inv init P q k.1 s) :
    Fresh init q s := by
  have hfollows : Follows init s.2.done := follows_of_forall fun k hk => (h ⟨k, hk⟩).follows
  refine ⟨fun hv h0 hq => Pointers.eq_of_word fun k hk => ?_, hfollows, ?_⟩
  · have hst : s.1.wr.vtp.st = .valid := by simpa [Vtp.Regs.respValid] using hv
    have hvtp := (h ⟨k, hk⟩).vtp
    simp only [AtVtp, hst] at hvtp
    exact ((hvtp h0).2 hq).word
  · intro resp before rest hdone hlen heq
    rw [hdone] at hfollows
    have haddr : resp.paddr = before.paddr + before.buflen.setWidth 64 :=
      congrArg Pointers.addr hfollows.1
    refine hlen ?_
    rw [heq] at haddr
    have hzero : before.buflen.setWidth 64 = 0#64 := by
      generalize before.buflen.setWidth 64 = len at haddr ⊢
      bv_omega
    have hnat := congrArg BitVec.toNat hzero
    rw [BitVec.toNat_setWidth, BitVec.toNat_ofNat] at hnat
    apply BitVec.eq_of_toNat_eq
    have hlt := before.buflen.isLt
    rw [Nat.mod_eq_of_lt (by omega)] at hnat
    exact hnat

/-- The three invariants hold in every state of an orderly run. -/
theorem invs_run (q : BitVec 8) (regs : RegFile) (is : List Input)
    (h : (receiving q regs).Guarded (fun s i => ∀ k ∈ statrqKinds, Orderly q k s.1 i)
      (receiving q regs).reset is) :
    (receiving q regs).Always
      (fun s => ∀ k : {k // k ∈ statrqKinds}, Inv (.ofRow (regs.qp q)) (fun _ => True) q k.1 s)
      (receiving q regs).reset is :=
  Machine.always_forall fun k => inv_run k.2 regs is (h.mono fun _ _ hs => hs k.1 k.2)

/-- **Nothing else makes a lookup stale.**  In a run in which no READ response is taken
for the end of a SEND, every row that answers a SEND to `q` is its own and was read with
nothing for `q` in the three slots, no other SEND takes a slot from `q`, and the AXI-Lite
side leaves the three registers alone, each lookup for a SEND to `q` returns what the SEND
before it has left. -/
theorem fresh_run (q : BitVec 8) (regs : RegFile) (is : List Input)
    (h : (receiving q regs).Guarded (fun s i => ∀ k ∈ statrqKinds, Orderly q k s.1 i)
      (receiving q regs).reset is) :
    (receiving q regs).Always (Fresh (.ofRow (regs.qp q)) q) (receiving q regs).reset is :=
  (invs_run q regs is h).mono fun _ => fresh_of_inv

/-! ### Two SENDs to one queue pair -/

instance (q : BitVec 8) (k : WbKind) (s : State) (i : Input) : Decidable (Orderly q k s i) :=
  decidable_of_iff (¬ Local q s i ∧
    (Announced q s → s.port.lRdCmd = s.wr.vtp.findPd ∧ ¬ s.port.Holds k q) ∧
    Kept s.port (s.portIn (wired s i)) k q ∧ Untouched (s.portIn (wired s i)) q k.idx)
    ⟨fun h => ⟨h.1, h.2.1, h.2.2.1, h.2.2.2⟩, fun h => ⟨h.remote, h.current, h.kept, h.untouched⟩⟩

/-- A cycle in which nothing arrives and the data mover is ready. -/
def idle : Input := { Translation.Input.quiet with wrIn := { SideIn.none with cmdReady := true } }

/-- A SEND of one packet to the queue pair `qpn`. -/
def sendOnly (qpn : BitVec 16) : Input :=
  { Translation.Input.quiet with
    wrIn :=
      { reqValid := true
        reqData := { (default : Req) with
          opcode := rcSendOnly, qpn := qpn, len := 64, last := true }
        cmdReady := true } }

/-- Receive buffers of 512 times 256 bytes for every queue pair. -/
def buffers : RegFile :=
  { RegFile.zero with qp := fun _ r => if r = qpconfiIdx then 0x02000000 else 0 }

/-- Two SENDs with time to write the pointers back in between. -/
def spaced : List Input :=
  sendOnly 1 :: List.replicate 20 idle ++ sendOnly 1 :: List.replicate 20 idle

theorem fresh_spaced :
    (receiving 1 buffers).Always (Fresh (.ofRow (buffers.qp 1)) 1) (receiving 1 buffers).reset
      spaced :=
  fresh_run 1 buffers spaced (by decide +kernel)

/-- The second SEND arrives right after the first one is done, while the AXI-Lite side
writes some other register. -/
def backToBack : List Input :=
  sendOnly 1 :: List.replicate 9 idle ++
    [{ sendOnly 1 with writing := true }, { idle with writing := true }] ++ List.replicate 12 idle

/-- Both are stored at the same address, and both get the number 0. -/
theorem backToBack_not_fresh :
    ((receiving 1 buffers).run backToBack).2.done.map Pointers.ofAnswer = [⟨0, 0⟩, ⟨0, 0⟩] ∧
      ¬ Fresh (.ofRow (buffers.qp 1)) 1 ((receiving 1 buffers).run backToBack) := by
  have hdone : ((receiving 1 buffers).run backToBack).2.done.map Pointers.ofAnswer =
      [⟨0, 0⟩, ⟨0, 0⟩] := by
    decide +kernel
  have hlen : ((receiving 1 buffers).run backToBack).2.done.map DmaReq.buflen =
      [0x20000, 0x20000] := by
    decide +kernel
  refine ⟨hdone, fun h => ?_⟩
  generalize ((receiving 1 buffers).run backToBack) = s at h hdone hlen
  obtain ⟨resp, before, hs⟩ : ∃ resp before, s.2.done = [resp, before] := by
    rw [← List.length_eq_two, ← List.length_map Pointers.ofAnswer, hdone]
    rfl
  rw [hs] at hdone hlen
  simp only [List.map_cons, List.map_nil, List.cons.injEq, and_true] at hdone hlen
  refine h.apart resp before [] hs ?_ ?_
  · rw [hlen.2]
    decide
  · exact congrArg Pointers.addr (hdone.1.trans hdone.2.symm)

end Receiving
end RecoNIC
