import RecoNIC.RoceStack.WqManager

/-!
# Flow control of requests

`rdma_flow.sv`, with the table `ram_sp_nc` and the two queues `queue_meta`, and the
slicing of acknowledgements of `roce_stack.sv`.  The table holds, for an entry, a
flag and two four-bit pointers: the head counts requests, the tail counts
acknowledgements, and a request passes unless the flag is set and the pointers
meet.

A lookup takes three cycles.  In the first the address of the entry is presented
to the RAM and kept in `addr_C`; in the second the address wires fall back to
zero; in the third the output register of the RAM is examined and the entry
`addr_C` is written.  `ssnAddr` is the address of each cycle as the source
computes it.

Requests come from the work-queue manager, which leaves `pid` and `vfid` zero and
keeps a request on `s_req` until it is taken: this is the register `sReq`.  The
table has no reset; it starts with the zeros of an unwritten block RAM.
-/

namespace RecoNIC
namespace RdmaFlow

open Synchronous

/-! ## Entries of the table -/

/-- `ssn_in`. -/
def entry (issued : Bool) (head tail : BitVec 4) : BitVec 16 :=
  0#7 ++ BitVec.ofBool issued ++ head ++ tail

/-- `issued`. -/
def issued (ssn : BitVec 16) : Bool := ssn.getLsbD 8

/-- `head`. -/
def head (ssn : BitVec 16) : BitVec 4 := ssn.extractLsb' 4 4

/-- `tail`. -/
def tail (ssn : BitVec 16) : BitVec 4 := ssn.extractLsb' 0 4

@[simp] theorem issued_entry (b : Bool) (h t : BitVec 4) : issued (entry b h t) = b := by
  revert b h t
  decide

@[simp] theorem head_entry (b : Bool) (h t : BitVec 4) : head (entry b h t) = h := by
  revert b h t
  decide

@[simp] theorem tail_entry (b : Bool) (h t : BitVec 4) : tail (entry b h t) = t := by
  revert b h t
  decide

/-! ## Requests and acknowledgements -/

/-- A request of the work-queue manager. -/
structure WqRequest where
  dreq : Dreq
  pid_eq : dreq.req1.pid = 0
  vfid_eq : dreq.req1.vfid = 0

/-- What the work-queue manager has on `sq_req` is such a request, in every run. -/
theorem exists_wqRequest (is : List WqManager.Input) :
    ∃ r : WqRequest, r.dreq = (WqManager.wqManager.run is).sq.req :=
  ⟨⟨_, (WqManager.unnumbered_run is).pid, (WqManager.unnumbered_run is).vfid⟩, rfl⟩

/-- `rdma_ack`, sliced from the acknowledgement word of the stack.  The fields `pid`
and `vfid` are bits of the queue-pair number. -/
def rdmaAck (w : BitVec 64) : Dack where
  ack :=
    { opcode := w.setWidth 5
      strm := w.extractLsb' 53 2
      remote := true
      host := w.getLsbD 48
      dest := w.extractLsb' 49 4
      pid := w.extractLsb' 32 6
      vfid := w.extractLsb' 38 4
      qpNum := w.extractLsb' 32 16
      rsrvd := 0 }
  last := w.getLsbD 55

/-- The entry of an acknowledgement. -/
def ackAddr (d : Dack) : BitVec 8 :=
  BitVec.ofBool (isOpcodeRdResp d.ack.opcode) ++ (d.ack.vfid.setWidth 1 ++ d.ack.pid)

/-- The entry of a request. -/
def reqAddr (d : Dreq) : BitVec 8 :=
  BitVec.ofBool (isOpcodeRdReq d.req1.opcode) ++ (d.req1.vfid.setWidth 1 ++ d.req1.pid)

/-! ## The machine -/

/-- `state_t`. -/
inductive State where
  | idle | ackLupWait | reqLupWait | ackLup | reqLup
  deriving DecidableEq

/-- The registers, the table with its output register, the request on `s_req` and the
two queues. -/
structure Flow where
  st : State
  addr : BitVec 8
  ram : BitVec 8 → BitVec 16
  dataReg : BitVec 16
  sReq : Option WqRequest
  cq : List Ack
  sq : List Dreq

/-- `RDMA_N_WR_OUTSTANDING`, the depth of the queues and the range of the pointers. -/
def nOst : Nat := 16

/-- After reset. -/
def Flow.reset : Flow := ⟨.idle, 0, fun _ => 0, 0, none, [], []⟩

/-- The inputs of one cycle. -/
structure Input where
  /-- A request the work-queue manager puts on `s_req` when nothing is there. -/
  newReq : Option WqRequest
  /-- The acknowledgement word of the stack, where it is valid. -/
  ack : Option (BitVec 64)
  mReqReady : Bool
  mAckReady : Bool

namespace Flow

/-- `req_out.ready`. -/
def reqOutReady (s : Flow) : Bool := decide (s.sq.length < nOst)

/-- The lookup of a request lets it pass. -/
def accepts (s : Flow) : Bool := !issued s.dataReg || head s.dataReg != tail s.dataReg

/-- The request on `s_req` is taken. -/
def takesReq (s : Flow) : Bool := s.st == .reqLup && s.accepts

/-- The request that leaves for the queue; its `offs` is cut out of the head
concatenated with an unsized zero. -/
def reqOut (s : Flow) (d : Dreq) : Dreq :=
  { d with req1 := { d.req1 with offs := (head s.dataReg ++ 0#32).setWidth 6 } }

/-- What `ST_IDLE` begins: an acknowledgement comes before a request. -/
def begins (s : Flow) (i : Input) : Option (State × BitVec 8) :=
  match i.ack with
  | some w => some (.ackLupWait, ackAddr (rdmaAck w))
  | none =>
    match s.sReq with
    | some r => if s.reqOutReady then some (.reqLupWait, reqAddr r.dreq) else none
    | none => none

/-- `ssn_addr`. -/
def ssnAddr (s : Flow) (i : Input) : BitVec 8 :=
  match s.st with
  | .idle => ((s.begins i).map Prod.snd).getD 0
  | .ackLup => s.addr
  | .reqLup => if s.accepts then s.addr else 0
  | _ => 0

/-- What is written to the table. -/
def ssnWrite (s : Flow) : Option (BitVec 16) :=
  let t := tail s.dataReg
  let h := head s.dataReg
  match s.st with
  | .ackLup => some (entry (if h = t + 1 then false else issued s.dataReg) h (t + 1))
  | .reqLup => if s.accepts then some (entry true (h + 1) t) else none
  | _ => none

end Flow

/-- One clock edge. -/
def step (s : Flow) (i : Input) : Flow where
  st :=
    match s.st with
    | .idle => ((s.begins i).map Prod.fst).getD .idle
    | .ackLupWait => .ackLup
    | .reqLupWait => .reqLup
    | _ => .idle
  addr := if s.st = .idle then ((s.begins i).map Prod.snd).getD s.addr else s.addr
  ram :=
    match s.ssnWrite with
    | some w => Function.update s.ram (s.ssnAddr i) w
    | none => s.ram
  dataReg := s.ram (s.ssnAddr i)
  sReq :=
    match s.sReq with
    | some r => if s.takesReq then none else some r
    | none => i.newReq
  cq :=
    let pushed :=
      match s.st, i.ack with
      | .idle, some w =>
        if (rdmaAck w).last && decide (s.cq.length < nOst) then [(rdmaAck w).ack] else []
      | _, _ => []
    (if i.mAckReady then s.cq.tail else s.cq) ++ pushed
  sq :=
    let pushed :=
      match s.sReq with
      | some r => if s.takesReq && s.reqOutReady then [s.reqOut r.dreq] else []
      | none => []
    (if i.mReqReady then s.sq.tail else s.sq) ++ pushed

/-- The flow control as a machine. -/
def flow : Machine Flow Input := ⟨Flow.reset, step⟩

end RdmaFlow
end RecoNIC
