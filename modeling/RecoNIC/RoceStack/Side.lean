import RecoNIC.RoceStack.RequestHandler
import RecoNIC.RoceStack.Vtp

/-!
# One side of the address translation

A request handler wired to its lookup machine, as the read side and the write side
of `roce_stack_wrapper.sv` are.  A side is driven by packet requests and by the
readiness of its data mover, and it sees the register port through a `PortView`.
-/

namespace RecoNIC

open RequestHandler

/-- A request handler and its lookup machine. -/
structure Side where
  handler : Handler
  vtp : Vtp.Regs
  deriving DecidableEq

/-- The inputs of a side: the packet requests of the stack and the data mover. -/
structure SideIn where
  reqValid : Bool
  reqData : Req
  cmdReady : Bool

namespace Side

/-- Both machines after reset. -/
def reset : Side := ⟨Handler.reset, Vtp.Regs.reset⟩

/-- The lookup the handler asks for. -/
def lookup (s : Side) : Vtp.Lookup :=
  ⟨s.handler.reqAddrValid, s.handler.offsVaddr, s.handler.reqAddrPdidx, s.handler.qpn⟩

/-- The inputs of the handler. -/
def handlerIn (s : Side) (i : SideIn) : RequestHandler.Input where
  reqValid := i.reqValid
  reqData := i.reqData
  reqAddrReady := s.vtp.reqReady s.lookup
  respAddrValid := s.vtp.respValid
  respAddrData := s.vtp.respAddrData
  cmdReady := i.cmdReady

/-- One clock edge. -/
def step (READ : Bool) (s : Side) (i : SideIn) (p : Vtp.PortView) : Side where
  handler := RequestHandler.step READ s.handler (s.handlerIn i)
  vtp := Vtp.step READ s.vtp s.lookup s.handler.respAddrReady p

/-- One cycle of a side: the stack, the data mover and the register port. -/
abbrev Cycle := SideIn × Vtp.PortView

/-- A side as a machine. -/
def machine (READ : Bool) : Synchronous.Machine Side Cycle :=
  ⟨reset, fun s c => s.step READ c.1 c.2⟩

/-! ## Questions and answers -/

section Step

variable {READ : Bool} {s : Side} {i : SideIn} {p : Vtp.PortView}

/-- The handler waits while the lookup is under way. -/
theorem handler_step_of_lookup (hs : s.handler.reqState = .getPaddr) (hv : s.vtp.st ≠ .valid) :
    (s.step READ i p).handler = s.handler := by
  simp [step, RequestHandler.step, handlerIn, hs, Vtp.Regs.respValid, hv]

/-- The question a waiting handler asks. -/
theorem lookup_of_getPaddr (hs : s.handler.reqState = .getPaddr) :
    s.lookup = ⟨true, s.handler.offsVaddr, s.handler.reqAddrPdidx, s.handler.qpn⟩ := by
  simp [lookup, Handler.reqAddrValid, hs]

/-- A lookup machine without a question stays idle. -/
theorem vtp_step_of_not_getPaddr (hst : s.vtp.st = .idle) (hs : s.handler.reqState ≠ .getPaddr) :
    (s.step READ i p).vtp = s.vtp := by
  have hask : s.lookup.valid = false := by simp [lookup, Handler.reqAddrValid, hs]
  cases READ <;> simp [step, Vtp.step, Vtp.rdStep, Vtp.wrStep, hst, hask]

/-- A lookup machine at rest takes a question from `RQ_IDLE`. -/
theorem reqReady_lookup (hv : s.vtp.st = .idle) (hs : s.handler.reqState = .idle) :
    s.vtp.reqReady s.lookup = true := by
  simp [Vtp.Regs.reqReady, hv, lookup, Handler.reqAddrValid, hs]

/-- The handler takes the answer when the lookup machine has it, and both go on. -/
theorem vtp_idle_step (hv : s.handler.reqState ≠ .getPaddr → s.vtp.st = .idle)
    (h : (s.step READ i p).handler.reqState ≠ .getPaddr) :
    (s.step READ i p).vtp.st = .idle := by
  by_cases hs : s.handler.reqState = .getPaddr
  · by_cases hvalid : s.vtp.st = .valid
    · have hready : s.handler.respAddrReady = true := by simp [Handler.respAddrReady, hs]
      cases READ <;> simp [step, Vtp.step, Vtp.rdStep, Vtp.wrStep, Vtp.Regs.finish, hvalid,
        hready]
    · rw [handler_step_of_lookup hs hvalid] at h
      exact absurd hs h
  · rw [vtp_step_of_not_getPaddr (hv hs) hs]
    exact hv hs

end Step

end Side

end RecoNIC
