import RecoNIC.RoceStack.RdmaFlow
import RecoNIC.Synchronous.Conservation
import RecoNIC.Synchronous.Fifo

/-!
# The queue of acknowledgements

`rdma_flow` takes an acknowledgement in `ST_IDLE` whenever one is there, and puts it into the
queue `inst_cq` if it is the last one of its message.  The queue has 16 places and says with
`ack_que_in.ready` whether one is free, and nobody looks at it: with a full queue the
acknowledgement is taken and dropped.  (A request is taken only if `req_out.ready` says that
the other queue has room.)

Here the queue is the FIFO of `fifo.sv`, with its pointers; `contents_eq_cq` says that the list
`cq` of `Flow` is what it holds.
-/

namespace RecoNIC
namespace RdmaFlow

open Synchronous

/-! ## The queue -/

/-- `ack_que_in`, where it is valid: an accepted acknowledgement with `last` set. -/
def ackQueIn (s : Flow) (i : Input) : Option Ack :=
  match s.st, i.ack with
  | .idle, some w => if (rdmaAck w).last then some (rdmaAck w).ack else none
  | _, _ => none

/-- The flow control with the registers of its queue; `queue_meta` reads where `m_ack` is
valid and ready. -/
def queued : Machine (Flow × Fifo Ack 4) Input where
  reset := (Flow.reset, Fifo.reset default)
  step := fun s i =>
    (step s.1 i,
      s.2.step (s.2.readyRd && i.mAckReady) (ackQueIn s.1 i).isSome ((ackQueIn s.1 i).getD default))

/-- `m_ack`, where it is taken. -/
def mAck (s : Flow × Fifo Ack 4) (i : Input) : List Ack :=
  if s.2.readyRd && i.mAckReady then [s.2.dataOut] else []

/-- What is in the queue. -/
def waiting (s : Flow × Fifo Ack 4) : List Ack := s.2.contents

section Step

variable (s : Flow × Fifo Ack 4) (i : Input)

/-- What is taken was the oldest. -/
theorem mAck_append_rest :
    mAck s i ++ (if s.2.readyRd && i.mAckReady then s.2.contents.tail else s.2.contents) =
      waiting s := by
  rw [mAck, waiting]
  cases hrd : s.2.readyRd with
  | false => simp
  | true =>
    cases i.mAckReady with
    | false => simp
    | true =>
      simp only [Bool.and_self, if_true]
      exact (s.2.contents_eq_cons hrd).symm

/-- One clock edge of the queue: an acknowledgement gets in if there is room. -/
theorem waiting_step : mAck s i ++ waiting (queued.step s i) =
    waiting s ++ if s.2.readyWr then (ackQueIn s.1 i).toList else [] := by
  have hcont := s.2.contents_step (s.2.readyRd && i.mAckReady) (ackQueIn s.1 i).isSome
    ((ackQueIn s.1 i).getD default)
  rw [show waiting (queued.step s i) = _ from hcont, ← List.append_assoc, mAck_append_rest]
  congr 1
  rw [Fifo.readyWr]
  cases ackQueIn s.1 i <;> cases s.2.isFull <;> rfl

/-- **A cycle is balanced** iff no acknowledgement comes to a full queue. -/
theorem ack_balanced_iff :
    queued.Balanced waiting (fun s i => (ackQueIn s.1 i).toList) mAck s i ↔
      (ackQueIn s.1 i ≠ none → s.2.readyWr = true) := by
  rw [Machine.Balanced, waiting_step, List.append_cancel_left_eq]
  cases ackQueIn s.1 i <;> cases s.2.readyWr <;> simp

end Step

/-- What gets into the list `cq` of `Flow`. -/
theorem cq_step (s : Flow) (i : Input) :
    (step s i).cq = (if i.mAckReady then s.cq.tail else s.cq) ++
      if s.cq.length < nOst then (ackQueIn s i).toList else [] := by
  simp only [step, ackQueIn]
  congr 1
  cases s.st with
  | idle =>
    cases i.ack with
    | none => simp
    | some w =>
      by_cases hlast : (rdmaAck w).last
      · by_cases hroom : s.cq.length < nOst <;> simp [hlast, hroom]
      · simp [hlast]
  | _ => simp

/-- The queue stands for the list of `Flow`. -/
theorem contents_eq_cq (is : List Input) : waiting (queued.run is) = (queued.run is).1.cq := by
  have hrun : queued.Always (fun s => waiting s = s.1.cq) queued.reset is := by
    refine Machine.always_of_step (P := fun s => waiting s = s.1.cq) (fun s i h => ?_) rfl is
    have hstep := waiting_step s i
    have hroom : s.2.readyWr = decide (s.1.cq.length < nOst) := by
      rw [Bool.eq_iff_iff, decide_eq_true_eq, Fifo.readyWr_iff, ← h]
      rfl
    rw [← mAck_append_rest s i, List.append_assoc, List.append_cancel_left_eq, hroom] at hstep
    rw [hstep, show (queued.step s i).1.cq = _ from cq_step s.1 i, ← h]
    cases hrd : s.2.readyRd with
    | true => simp [waiting]
    | false =>
      have hempty : s.2.contents = [] := by
        by_contra hne
        simp [s.2.readyRd_iff.mpr hne] at hrd
      simp [waiting, hempty]
  exact hrun.last

/-! ## The result -/

/-- The flow control with the acknowledgements it has accepted and handed on. -/
def acknowledging : Machine ((Flow × Fifo Ack 4) × Traffic Ack) Input :=
  queued.traffic (fun s i => (ackQueIn s.1 i).toList) mAck

/-- An acknowledgement comes to a queue with room. -/
def HasRoom (s : Flow × Fifo Ack 4) (i : Input) : Prop :=
  ackQueIn s.1 i ≠ none → s.2.contents.length < nOst

/-- **No acknowledgement is lost, exactly.**  In every state of a run, the acknowledgements
that were handed on, with those that wait, are those accepted with `last` set, once each and in
order, iff none of them was accepted while 16 others waited. -/
theorem acks_conserved_iff (is : List Input) :
    acknowledging.Always (Machine.Conserves waiting) acknowledging.reset is ↔
      queued.Guarded HasRoom queued.reset is := by
  rw [acknowledging, Machine.conserves_iff_guarded rfl]
  have hroom (s : Flow × Fifo Ack 4) (i : Input) :
      queued.Balanced waiting (fun s i => (ackQueIn s.1 i).toList) mAck s i ↔ HasRoom s i := by
    rw [ack_balanced_iff, HasRoom, Fifo.readyWr_iff]
    rfl
  exact ⟨fun h => h.mono fun s i => (hroom s i).mp, fun h => h.mono fun s i => (hroom s i).mpr⟩

/-! ## Seventeen acknowledgements -/

/-- The last acknowledgement of a message of queue pair `qp`, and the two cycles of its
lookup; nobody takes what is in the queue. -/
def lastAck (qp : BitVec 16) : List Input :=
  let wait : Input := { newReq := none, ack := none, mReqReady := false, mAckReady := false }
  { wait with ack := some (0x0080#16 ++ qp ++ 0#27 ++ 0x11#5) } :: List.replicate 2 wait

/-- Queue pairs 0 to 16 finish a message each. -/
def seventeenAcks : List Input :=
  ((List.range 17).map fun k => lastAck (BitVec.ofNat 16 k)).flatten

/-- **The seventeenth acknowledgement is lost** if `m_ack` is not ready all the time: 17 are
accepted, and 16 wait. -/
theorem seventeenth_ack_lost :
    ¬ acknowledging.Always (Machine.Conserves waiting) acknowledging.reset seventeenAcks := by
  intro h
  have hlength := congrArg List.length h.last
  revert hlength
  decide +kernel

end RdmaFlow
end RecoNIC
