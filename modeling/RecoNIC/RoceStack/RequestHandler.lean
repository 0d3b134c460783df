import RecoNIC.RoceTypes
import RecoNIC.Synchronous.Machine

/-!
# The request handler

`roce_stack_request_handler.sv`: one instance with `READ = 1` serves the memory
reads of the stack, one with `READ = 0` its writes.  A packet request of a local
message takes its address as it stands; the first packet of a remote message
asks the address lookup of the register file.  `RQ_MIDDLE` checks the request and
loads the command register, `RQ_SENDCMD` hands the register to the data mover.

The file follows the source: `step` is the `always_comb` block with the clocked
registers, one branch per state, and the outputs are the functions after it.  The
check is `checkPasses`, written with the operators of the source; `&&` binds
tighter than `||` in both languages.

The last section is about a request whose check fails.  `RQ_MIDDLE` then leaves
the command register alone and `RQ_SENDCMD` offers it all the same, so what the
data mover is handed is the command of an earlier packet
(`nextCommand_of_checkFails`).
-/

namespace RecoNIC
namespace RequestHandler

open Synchronous

/-! ## Registers, inputs and outputs -/

/-- `req_state`. -/
inductive ReqState where
  | idle | getPaddr | middle | sendCmd | wbDbAdd
  deriving DecidableEq

/-- The registers of one handler. -/
structure Handler where
  reqState : ReqState
  tag : BitVec 33
  offsVaddr : BitVec 64
  len : BitVec 28
  totalLen : BitVec 48
  qpn : BitVec 16
  paddr : BitVec 64
  paddrBase : BitVec 64
  buflen : BitVec 48
  accessdesc : BitVec 4
  rkeyDb : BitVec 32
  cmdData : BitVec 104
  errSt : Bool
  first : Bool
  deriving DecidableEq

/-- The registers after `aresetn_i`. -/
def Handler.reset : Handler :=
  ⟨.idle, 0, 0, 0, 0, 0, 0, 0, 0, 0, 0, 0, false, true⟩

/-- The inputs of one cycle. -/
structure Input where
  reqValid : Bool
  reqData : Req
  reqAddrReady : Bool
  respAddrValid : Bool
  respAddrData : DmaReq
  cmdReady : Bool
  deriving DecidableEq

variable (READ : Bool)

/-- The opcodes of a message whose address needs no lookup: the payload of an own
WRITE or SEND is read, the payload of an own READ is written. -/
def isLocal (opcode : BitVec 5) : Bool :=
  (READ && (opcode == rcRdmaWriteMiddle || opcode == rcRdmaWriteFirst ||
    opcode == rcRdmaWriteLast || opcode == rcRdmaWriteOnly || opcode == rcSendOnly ||
    opcode == rcSendFirst || opcode == rcSendMiddle || opcode == rcSendLast)) ||
  (!READ && (opcode == rcRdmaReadRespFirst || opcode == rcRdmaReadRespMiddle ||
    opcode == rcRdmaReadRespLast || opcode == rcRdmaReadRespOnly))

/-- The key check of `RQ_GETPADDR`; bit 8 of the key field says that the
protection domain is not the one of the queue pair. -/
def keyFails (s : Handler) (resp : DmaReq) : Bool :=
  (s.offsVaddr != 0 && (s.tag.setWidth 8 != resp.rkey.setWidth 8 || resp.rkey.getLsbD 8)) ||
    (s.offsVaddr == 0 && READ)

/-- The check of `RQ_MIDDLE`. -/
def checkPasses (s : Handler) : Bool :=
  !s.errSt && (decide (s.totalLen ≤ s.buflen) && s.accessdesc == 0b0010#4 ||
    (READ && s.accessdesc == 0b0000#4) || (!READ && s.accessdesc == 0b0001#4))

/-- The command word of the data mover for an address and a length. -/
def cmdWord (paddr : BitVec 64) (len : BitVec 28) : BitVec 104 :=
  0#8 ++ paddr ++ 0#1 ++ 1#1 ++ 0#6 ++ 1#1 ++ len.setWidth 23

/-- One clock edge. -/
def step (s : Handler) (i : Input) : Handler :=
  match s.reqState with
  | .idle =>
    if i.reqValid then
      let d := { s with
        len := i.reqData.len
        totalLen := s.totalLen + i.reqData.len.setWidth 48
        first := i.reqData.last }
      if isLocal READ i.reqData.opcode then
        if s.first then
          { d with
            buflen := 0x7FFFFFFFFFFF
            accessdesc := 0b0010
            paddr := i.reqData.vaddr
            reqState := .middle }
        else { d with reqState := .middle }
      else if i.reqAddrReady then
        if s.first then
          { d with
            qpn := i.reqData.qpn
            tag := i.reqData.tag.setWidth 33
            offsVaddr := i.reqData.vaddr
            reqState := .getPaddr }
        else { d with reqState := .middle }
      else d
    else s
  | .getPaddr =>
    if i.respAddrValid then
      { s with
        buflen := i.respAddrData.buflen
        accessdesc := i.respAddrData.accesdesc
        rkeyDb := i.respAddrData.rkey
        errSt := if keyFails READ s i.respAddrData then true else s.errSt
        paddr := i.respAddrData.paddr + (s.offsVaddr - i.respAddrData.baseVaddr)
        paddrBase := i.respAddrData.paddr + (s.offsVaddr - i.respAddrData.baseVaddr)
        totalLen := (s.totalLen.setWidth 64 +
          (s.offsVaddr - i.respAddrData.baseVaddr)).setWidth 48
        reqState := .middle }
    else s
  | .middle =>
    if checkPasses READ s then
      { s with
        cmdData := cmdWord s.paddr s.len
        paddr := s.paddr + s.len.setWidth 64
        reqState := .sendCmd }
    else
      { s with
        errSt := true
        paddr := s.paddr + s.len.setWidth 64
        reqState := .sendCmd }
  | .sendCmd =>
    if i.cmdReady then
      if s.first then
        if s.offsVaddr == 0 && !READ then
          { s with
            totalLen := 0
            errSt := false
            paddrBase := s.paddrBase + s.buflen.setWidth 64
            rkeyDb := s.rkeyDb + 1
            reqState := .wbDbAdd }
        else { s with totalLen := 0, errSt := false, reqState := .idle }
      else { s with reqState := .idle }
    else s
  | .wbDbAdd => { s with reqState := .idle }

/-- The handler as a machine. -/
def handler : Machine Handler Input := ⟨Handler.reset, step READ⟩

namespace Handler

/-- `s_rdma_req.ready`. -/
def reqReady (s : Handler) : Bool := s.reqState == .idle || s.reqState == .wbDbAdd

/-- `req_addr_valid_o`. -/
def reqAddrValid (s : Handler) : Bool := s.reqState == .getPaddr

/-- `resp_addr_ready_o`. -/
def respAddrReady (s : Handler) : Bool := s.reqState == .getPaddr || s.reqState == .wbDbAdd

/-- `req_addr_pdidx_o`. -/
def reqAddrPdidx (s : Handler) : BitVec 24 := s.tag.extractLsb' 8 24

/-- `cmd_valid_o`. -/
def cmdValid (s : Handler) : Bool := s.reqState == .sendCmd

/-- `wb_valid_o`. -/
def wbValid (s : Handler) : Bool := s.reqState == .wbDbAdd

/-- `wb_rqbufaddr_o`, the low 72 bits of the 80 that are concatenated. -/
def wbRqbufaddr (s : Handler) : BitVec 72 := (s.qpn ++ s.paddrBase).setWidth 72

/-- `wb_rqpidb_o`, the low 40 bits of the 48 that are concatenated. -/
def wbRqpidb (s : Handler) : BitVec 40 := (s.qpn ++ s.rkeyDb).setWidth 40

end Handler

/-- A command word is the command handed over in this cycle. -/
def handsOver (s : Handler) (i : Input) : Bool := s.cmdValid && i.cmdReady

/-! ## What a cycle does to the command register -/

variable {READ}

/-- Only a passing check loads the command register. -/
theorem cmdData_step (s : Handler) (i : Input) :
    (step READ s i).cmdData =
      if s.reqState = .middle ∧ checkPasses READ s then cmdWord s.paddr s.len
      else s.cmdData := by
  cases hs : s.reqState with
  | idle => simp only [step, hs]; split_ifs <;> simp_all
  | getPaddr => simp only [step, hs]; split_ifs <;> simp_all
  | middle => simp only [step, hs]; split_ifs <;> simp_all
  | sendCmd => simp only [step, hs]; split_ifs <;> simp_all
  | wbDbAdd => simp [step, hs]

/-- A failing check goes on to `RQ_SENDCMD` with the old command. -/
theorem step_of_checkFails {s : Handler} (i : Input) (hs : s.reqState = .middle)
    (hc : checkPasses READ s = false) :
    (step READ s i).reqState = .sendCmd ∧ (step READ s i).cmdData = s.cmdData := by
  constructor
  · simp [step, hs, hc]
  · rw [cmdData_step]
    simp [hc]

/-- `RQ_IDLE` waits for a request. -/
theorem step_idle_of_quiet {s : Handler} {i : Input} (hs : s.reqState = .idle)
    (hi : i.reqValid = false) : step READ s i = s := by
  simp [step, hs, hi]

/-- A packet that goes on with a message needs no lookup. -/
theorem step_idle_of_later {s : Handler} {i : Input} (hs : s.reqState = .idle)
    (hi : i.reqValid = true) (hready : i.reqAddrReady = true) (hfirst : s.first = false) :
    step READ s i =
      { s with
        len := i.reqData.len
        totalLen := s.totalLen + i.reqData.len.setWidth 48
        first := i.reqData.last
        reqState := .middle } := by
  simp [step, hs, hi, hready, hfirst]

/-- `RQ_SENDCMD` waits for the data mover. -/
theorem step_sendCmd_of_not_ready {s : Handler} {i : Input} (hs : s.reqState = .sendCmd)
    (hi : i.cmdReady = false) : step READ s i = s := by
  simp [step, hs, hi]

/-- The message goes on behind the command. -/
theorem step_sendCmd_of_later {s : Handler} {i : Input} (hs : s.reqState = .sendCmd)
    (hi : i.cmdReady = true) (hfirst : s.first = false) :
    step READ s i = { s with reqState := .idle } := by
  simp [step, hs, hi, hfirst]

/-- The message ends with the command, and it is not a SEND. -/
theorem step_sendCmd_of_last {s : Handler} {i : Input} (hs : s.reqState = .sendCmd)
    (hi : i.cmdReady = true) (hfirst : s.first = true) (h0 : s.offsVaddr ≠ 0#64) :
    step READ s i = { s with totalLen := 0, errSt := false, reqState := .idle } := by
  simp [step, hs, hi, hfirst, h0]

/-- The SEND ends with the command, and its buffer is used up. -/
theorem step_sendCmd_of_send {s : Handler} {i : Input} (hs : s.reqState = .sendCmd)
    (hi : i.cmdReady = true) (hfirst : s.first = true) (h0 : s.offsVaddr = 0#64) :
    step false s i =
      { s with
        totalLen := 0
        errSt := false
        paddrBase := s.paddrBase + s.buflen.setWidth 64
        rkeyDb := s.rkeyDb + 1
        reqState := .wbDbAdd } := by
  simp [step, hs, hi, hfirst, h0]

/-- `RQ_WB_DBADD` lasts one cycle. -/
theorem step_wbDbAdd {s : Handler} (hs : s.reqState = .wbDbAdd) (i : Input) :
    step READ s i = { s with reqState := .idle } := by
  simp [step, hs]

/-! ## A request that fails its check -/

/-- The next command handed over, out of a state and the coming cycles.  Out of
`RQ_MIDDLE` it is the command handed over for the packet being checked, because
the handler leaves `RQ_SENDCMD` only by handing one over. -/
def nextCommand (READ : Bool) : Handler → List Input → Option (BitVec 104)
  | _, [] => none
  | s, i :: is =>
    if handsOver s i then some s.cmdData else nextCommand READ (step READ s i) is

/-- In `RQ_SENDCMD` the register is handed over in the first ready cycle. -/
theorem nextCommand_of_sendCmd {s : Handler} (hs : s.reqState = .sendCmd) (is : List Input) :
    nextCommand READ s is = if is.any Input.cmdReady then some s.cmdData else none := by
  induction is with
  | nil => simp [nextCommand]
  | cons i is ih =>
    cases hi : i.cmdReady with
    | true => simp [nextCommand, handsOver, Handler.cmdValid, hs, hi]
    | false =>
      rw [nextCommand, step_sendCmd_of_not_ready hs hi, ih]
      simp [handsOver, hi]

/-- **A failing request hands over the old command.**  The register was not
loaded, and it is offered all the same. -/
theorem nextCommand_of_checkFails {s : Handler} (hs : s.reqState = .middle)
    (hc : checkPasses READ s = false) (i : Input) (is : List Input) :
    nextCommand READ s (i :: is) = if is.any Input.cmdReady then some s.cmdData else none := by
  obtain ⟨hsend, hcmd⟩ := @step_of_checkFails READ _ i hs hc
  have hidle : handsOver s i = false := by simp [handsOver, Handler.cmdValid, hs]
  rw [nextCommand, hidle, if_neg Bool.false_ne_true, nextCommand_of_sendCmd hsend, hcmd]

/-- A failing check is a check after which `err_st` stands. -/
theorem errSt_step_of_middle {s : Handler} (i : Input) (hs : s.reqState = .middle) :
    (step READ s i).errSt = !checkPasses READ s := by
  cases hc : checkPasses READ s with
  | false => simp [step, hs, hc]
  | true =>
    have herr : s.errSt = false := by
      simp only [checkPasses, Bool.and_eq_true, Bool.not_eq_true'] at hc
      exact hc.1
    simp [step, hs, hc, herr]

/-- **What a rejected request hands over.**  Take any run up to `RQ_MIDDLE` and a
cycle that rejects the packet, so that `err_st` stands after it.  No command is
handed over for the packet iff the data mover is never ready again, and the
command that is handed over otherwise is the one that stood in the register. -/
theorem rejected_iff_never_ready (READ : Bool) (is : List Input) (i : Input) (js : List Input)
    (hs : ((handler READ).run is).reqState = .middle)
    (hrej : (step READ ((handler READ).run is) i).errSt = true) :
    (nextCommand READ ((handler READ).run is) (i :: js) = none ↔
      ∀ j ∈ js, j.cmdReady = false) ∧
    ∀ w, nextCommand READ ((handler READ).run is) (i :: js) = some w →
      w = ((handler READ).run is).cmdData := by
  have hc : checkPasses READ ((handler READ).run is) = false := by
    rw [errSt_step_of_middle i hs] at hrej
    simpa using hrej
  rw [nextCommand_of_checkFails hs hc]
  constructor
  · simp
  · intro w hw
    split_ifs at hw
    exact (Option.some.inj hw).symm

/-- A cycle in which nothing arrives and the data mover is not ready. -/
def Input.quiet : Input := ⟨false, default, false, false, default, false⟩

/-- A cycle in which the data mover takes a command. -/
def Input.take : Input := { Input.quiet with cmdReady := true }

/-- The cycles of an inbound write of 64 bytes to `0x1000` under the key `key`, up
to its check.  The register file answers with a writable region of 4096 bytes
under the key 7. -/
def writeUnderKey (key : BitVec 32) : List Input :=
  [{ Input.quiet with
      reqValid := true
      reqAddrReady := true
      reqData := { (default : Req) with
        opcode := rcRdmaWriteOnly, vaddr := 0x1000, tag := key, len := 64, last := true } },
   { Input.quiet with
      respAddrValid := true
      respAddrData := ⟨0x1000, 0x1000, 0b0001, 0x8000, 7⟩ }]

/-- A write under the right key, its command taken, and then one under a wrong
key, up to the check. -/
def writeThenWrongKey : List Input :=
  writeUnderKey 7 ++ [Input.quiet, Input.take] ++ writeUnderKey 8

theorem rejected_iff_never_ready_writeThenWrongKey :
    (nextCommand false ((handler false).run writeThenWrongKey) [Input.quiet, Input.quiet] = none ↔
      ∀ j ∈ [Input.quiet], j.cmdReady = false) ∧
    ∀ w, nextCommand false ((handler false).run writeThenWrongKey)
        [Input.quiet, Input.quiet] = some w →
      w = ((handler false).run writeThenWrongKey).cmdData :=
  rejected_iff_never_ready false writeThenWrongKey Input.quiet [Input.quiet]
    (by decide) (by decide)

/-- The write under the wrong key is rejected, and the data mover is handed the
command of the write before it for the second time. -/
theorem rejected_write_repeats_command :
    ((handler false).run writeThenWrongKey).reqState = .middle ∧
    (step false ((handler false).run writeThenWrongKey) Input.quiet).errSt = true ∧
    nextCommand false ((handler false).run (writeUnderKey 7)) [Input.quiet, Input.take] =
      some (cmdWord 0x8000 64) ∧
    nextCommand false ((handler false).run writeThenWrongKey) [Input.quiet, Input.take] =
      some (cmdWord 0x8000 64) := by
  decide

end RequestHandler
end RecoNIC
