import RecoNIC.RoceStack.Handover
import RecoNIC.Synchronous.Conservation

/-!
# Configuration events

When the host has written a register of a connection or of a queue pair, the registers send
a pulse, together with the values, to the work-queue manager, which puts a context on one of
two interfaces of the stack.  The `CONN_*` and the `QP_*` machine look at the pulse in their
idle state, and only there; neither interface says when it is busy.  A pulse that comes while
a context waits to be taken, or while the `QP_*` machine serves a work-queue element, is lost
(the source calls it "unsafe if the FSM is busy").

`configurations_conserved_iff` is the exact statement: every valid pulse of a run leads to one
context, in order and with its values, iff each of them meets an idle machine.
-/

namespace RecoNIC
namespace WqManager

open Synchronous

/-! ## What goes in and out -/

/-- The context of a connection with the values on the register wires. -/
def connCtx (i : Input) : RdmaQpConn where
  destMacAddr := i.macDesAdd
  remoteUdpPort := i.conf.extractLsb' 16 16
  remoteIpAddress := i.ipDesAddr1 ++ i.ipDesAddr1 ++ i.ipDesAddr1 ++ i.ipDesAddr1
  remoteQpn := i.destQpConf
  localQpn := 0#8 ++ i.qpIdx

/-- A pulse for a connection with an address. -/
def connAsked (i : Input) : List RdmaQpConn :=
  if i.connConfigured = true ∧ i.ipDesAddr1 ≠ 0#32 then [connCtx i] else []

/-- A pulse for a queue pair that is enabled, with a defined MTU.  The context has no remote
address and no key. -/
def qpAsked (i : Input) : List RdmaQpCtx :=
  if i.qpConfigured = true ∧ qpEnabled i.qpConf = true then [State.qpCtx i 0 0] else []

namespace State

variable (s : State) (i : Input)

/-- The context on the connection interface. -/
def connOffered : List RdmaQpConn := if s.conn.st = .valid then [s.conn.ctx] else []

/-- The context on the queue-pair interface, if it comes from a pulse. -/
def qpOffered : List RdmaQpCtx := if s.qp.st = .valid then [s.qp.ctx] else []

/-- The stack takes it. -/
def connTaken : List RdmaQpConn := if i.connReady then s.connOffered else []

def qpTaken : List RdmaQpCtx := if i.qpReady then s.qpOffered else []

/-- A cycle of the connection interface is balanced iff a pulse finds it idle. -/
theorem conn_balanced_iff :
    wqManager.Balanced connOffered (fun _ => connAsked) connTaken s i ↔
      (connAsked i ≠ [] → s.conn.st = .idle) := by
  have hnext : (wqManager.step s i).connOffered =
      if (s.connStep i).st = .valid then [(s.connStep i).ctx] else [] := rfl
  rw [Machine.Balanced, hnext, connTaken, connOffered]
  cases hst : s.conn.st with
  | idle =>
    have hidle : (s.connStep i) = if i.connConfigured && i.ipDesAddr1 != 0#32 then
        ⟨.valid, connCtx i⟩ else s.conn := by
      rw [connStep, hst]
      rfl
    rw [hidle]
    by_cases hask : i.connConfigured = true ∧ i.ipDesAddr1 ≠ 0#32
    · simp [connAsked, hask]
    · have hoff : (i.connConfigured && i.ipDesAddr1 != 0#32) = false := by
        rw [← Bool.not_eq_true, Bool.and_eq_true, bne_iff_ne]
        exact hask
      simp [connAsked, hask, hoff, hst]
  | valid => cases hready : i.connReady <;> simp [connStep, hst, hready]
  | ifValid => simp [connStep, hst]

/-- The `QP_*` machine goes to `QP_VALID` for a pulse, and stays there until the context is
taken. -/
theorem qpStep_st_eq_valid_iff : (s.qpStep i).st = .valid ↔
    (s.qp.st = .idle ∧ qpAsked i ≠ []) ∨ (s.qp.st = .valid ∧ i.qpReady = false) := by
  have hask : qpAsked i ≠ [] ↔ i.qpConfigured = true ∧ qpEnabled i.qpConf = true := by
    rw [qpAsked]
    split_ifs with h <;> simp [h]
  rw [hask]
  constructor
  · intro h
    rcases s.of_qpStep_valid i h with ⟨hst, hconf, hon, -⟩ | ⟨hst, hready, -⟩
    · exact Or.inl ⟨hst, hconf, hon⟩
    · exact Or.inr ⟨hst, hready⟩
  · rintro (⟨hst, hconf, hon⟩ | ⟨hst, hready⟩)
    · simp [qpStep, hst, hconf, hon]
    · simp [qpStep, hst, hready]

/-- A cycle of the queue-pair interface is balanced iff a pulse finds it idle. -/
theorem qp_balanced_iff :
    wqManager.Balanced qpOffered (fun _ => qpAsked) qpTaken s i ↔
      (qpAsked i ≠ [] → s.qp.st = .idle) := by
  have hnext : (wqManager.step s i).qpOffered =
      if (s.qpStep i).st = .valid then [(s.qpStep i).ctx] else [] := rfl
  rw [Machine.Balanced, hnext, qpTaken, qpOffered]
  by_cases hidle : s.qp.st = .idle
  · -- a pulse becomes the context that is offered
    have hnot : s.qp.st ≠ .valid := by simp [hidle]
    rw [if_neg hnot, ite_self, List.nil_append, List.nil_append]
    refine iff_of_true ?_ fun _ => hidle
    by_cases hask : i.qpConfigured = true ∧ qpEnabled i.qpConf = true
    · simp [qpAsked, hask, qpStep, hidle]
    · have hnil : qpAsked i = [] := if_neg hask
      rw [hnil, if_neg]
      rw [qpStep_st_eq_valid_iff]
      simp [hnil, hnot]
  · -- it is not looked at
    have hsame : (s.qpStep i).st = .valid → (s.qpStep i).ctx = s.qp.ctx := by
      intro hv
      rcases s.of_qpStep_valid i hv with ⟨h, -⟩ | ⟨-, -, hctx⟩
      · exact absurd h hidle
      · exact hctx
    have hst : (s.qpStep i).st = .valid ↔ s.qp.st = .valid ∧ i.qpReady = false := by
      rw [qpStep_st_eq_valid_iff]
      simp [hidle]
    by_cases hv : s.qp.st = .valid
    · cases hready : i.qpReady with
      | true => simp [hst, hv, hready]
      | false =>
        have hv' := hst.mpr ⟨hv, hready⟩
        rw [if_pos hv, if_pos hv', hsame hv']
        simp [hidle]
    · simp [hst, hv, hidle]

end State

/-! ## The result -/

/-- Contexts for connections, and contexts for queue pairs. -/
def connections : Machine (State × Traffic RdmaQpConn) Input :=
  wqManager.traffic (fun _ => connAsked) State.connTaken

def queuePairs : Machine (State × Traffic RdmaQpCtx) Input :=
  wqManager.traffic (fun _ => qpAsked) State.qpTaken

/-- A valid pulse meets an idle machine. -/
structure FindsIdle (s : State) (i : Input) : Prop where
  conn : connAsked i ≠ [] → s.conn.st = .idle
  qp : qpAsked i ≠ [] → s.qp.st = .idle

/-- **No configuration event is lost, exactly.**  In every state of a run, the contexts that
the two interfaces have handed over, with those they offer, are those the pulses have asked
for, once each, in order and with their values, iff every valid pulse of the run finds its
machine idle. -/
theorem configurations_conserved_iff (is : List Input) :
    (connections.Always (Machine.Conserves State.connOffered) connections.reset is ∧
      queuePairs.Always (Machine.Conserves State.qpOffered) queuePairs.reset is) ↔
      wqManager.Guarded FindsIdle wqManager.reset is := by
  rw [connections, queuePairs, Machine.conserves_iff_guarded rfl, Machine.conserves_iff_guarded rfl]
  constructor
  · rintro ⟨hconn, hqp⟩
    exact (hconn.and hqp).mono fun s i h =>
      ⟨(s.conn_balanced_iff i).mp h.1, (s.qp_balanced_iff i).mp h.2⟩
  · intro h
    exact ⟨h.mono fun s i hi => (s.conn_balanced_iff i).mpr hi.conn,
      h.mono fun s i hi => (s.qp_balanced_iff i).mpr hi.qp⟩

/-! ### A context that is taken late -/

/-- The pulses for queue pair `qp` and its connection, with the stack not ready. -/
def configure (qp : BitVec 8) : Input :=
  { Input.quiet with
    qpIdx := qp
    qpConf := 1
    ipDesAddr1 := 0x0a000001
    qpConfigured := true
    connConfigured := true
    qpReady := false
    connReady := false }

/-- The stack takes 16 cycles for the context of queue pair 1, and in the last one of them
the pulses for queue pair 2 come. -/
def lateStack : List Input :=
  configure 1 :: List.replicate 16 { Input.quiet with qpReady := false, connReady := false } ++
    configure 2 :: List.replicate 4 Input.quiet

/-- Queue pair 2 and its connection are never announced. -/
theorem second_configuration_lost :
    (queuePairs.run lateStack).2.entered.map (·.qpNum) = [1, 2] ∧
    (queuePairs.run lateStack).2.left.map (·.qpNum) = [1] ∧
    (connections.run lateStack).2.left.map (·.localQpn) = [1] ∧
    ¬ (connections.Always (Machine.Conserves State.connOffered) connections.reset lateStack ∧
      queuePairs.Always (Machine.Conserves State.qpOffered) queuePairs.reset lateStack) := by
  refine ⟨by decide +kernel, by decide +kernel, by decide +kernel, fun h => ?_⟩
  have hlost := congrArg List.length h.2.last
  revert hlost
  decide +kernel

end WqManager
end RecoNIC
