import RecoNIC.Driver.Bridge
import RecoNIC.Synchronous.Machine

/-!
# Receiving messages

The device counts the SENDs that have completed in `STATRQPIDBi`, and the driver keeps a
copy of the count.  A call of `rdma_post_receive` reads the register until it differs
from the copy, takes what it has read for the new copy, and returns the slot before it.

Between two reads any number of SENDs may complete.  A call that finds one more than the
copy returns the slot of the next message.  A call that finds two more returns the slot of
the second one, and the copy says that both are received: the first one is never returned.
-/

namespace RecoNIC
namespace Receive

open Synchronous RdmaApi

/-! ## A call and its reads -/

/-- A call with one read. -/
theorem rdmaPostReceive_one (qp : RdmaQp) (answer : BitVec 32) :
    rdmaPostReceive qp [answer] =
      if answer = qp.rqPidb then .waiting
      else if answer = -1 then .exited
      else .returned ({ qp with rqPidb := answer }, rqeAddr qp answer) [] := by
  rw [rdmaPostReceive, pollRqPidb]
  split_ifs with hsame hexit
  · rfl
  · simp only [if_pos hexit]
  · simp only [if_neg hexit]

/-- **A call reads once at a time.**  After a read that ends nothing, it goes on as if it
had just been made. -/
theorem rdmaPostReceive_cons (qp : RdmaQp) (answer : BitVec 32) (rest : List (BitVec 32)) :
    rdmaPostReceive qp (answer :: rest) =
      match rdmaPostReceive qp [answer] with
      | .returned result _ => .returned result rest
      | .exited => .exited
      | .waiting => rdmaPostReceive qp rest := by
  rw [rdmaPostReceive_one, rdmaPostReceive, pollRqPidb]
  split_ifs with hsame hexit
  · rfl
  · simp only [if_pos hexit]
  · simp only [if_neg hexit]

/-! ## The system -/

/-- The driver, the number of SENDs that have completed, and the addresses that the calls
have returned. -/
structure Sys where
  qp : RdmaQp
  exited : Bool
  completed : Nat
  results : List (BitVec 64)

/-- A SEND completes, or the host makes one of its register reads: for the call of
`rdma_post_receive` under way, or for a new one, or for `rdma_release_rq_consumed`. -/
inductive Event where
  | sendCompletes
  | poll
  | release
  deriving DecidableEq

/-- `STATRQPIDBi`. -/
def Sys.statRqPidb (s : Sys) : BitVec 32 := BitVec.ofNat 32 s.completed

/-- A call that returns leaves an address; one that exits is the last. -/
def Sys.receive (s : Sys) : Outcome (RdmaQp × BitVec 64) → Sys
  | .returned (qp, rqe) _ => { s with qp := qp, results := s.results ++ [rqe] }
  | .exited => { s with exited := true }
  | .waiting => s

def Sys.step (s : Sys) : Event → Sys
  | .sendCompletes => { s with completed := s.completed + 1 }
  | .poll => if s.exited then s else s.receive (rdmaPostReceive s.qp [s.statRqPidb])
  | .release =>
    if s.exited then s else { s with qp := (rdmaReleaseRqConsumed s.qp s.statRqPidb).1 }

/-- The host and the device, for a queue pair as it was allocated. -/
def receiving (qp : RdmaQp) : Machine Sys Event := ⟨⟨qp, false, 0, []⟩, Sys.step⟩

/-! ## A call in a run -/

/-- What the reads of a run find. -/
def answers : Sys → List Event → List (BitVec 32)
  | _, [] => []
  | s, .poll :: es => s.statRqPidb :: answers (s.step .poll) es
  | s, e :: es => answers (s.step e) es

/-- The host and the device after the outcome of a call, `n` SENDs later. -/
def Sys.receiveAfter (s : Sys) (o : Outcome (RdmaQp × BitVec 64)) (n : Nat) : Sys :=
  { s.receive o with completed := s.completed + n }

/-- A call that was made before a SEND completed. -/
theorem receiveAfter_succ (s : Sys) (o : Outcome (RdmaQp × BitVec 64)) (n : Nat) :
    (s.step .sendCompletes).receiveAfter o n = s.receiveAfter o (n + 1) := by
  have hadd : s.completed + 1 + n = s.completed + (n + 1) := by omega
  cases o <;> simp only [Sys.receiveAfter, Sys.receive, Sys.step, hadd]

/-- **A call is a run of reads.**  A call that gets the answers of a run does in the run what
it does on the list of its answers: it waits to the end of the run, or it is over after some
events, and the answers that it leaves are those of the others. -/
theorem exists_run_of_call (qp : RdmaQp) (s : Sys) (es : List Event) (hs : s.exited = false)
    (hes : .release ∉ es) :
    ∃ es₁ es₂, es = es₁ ++ es₂ ∧
      (receiving qp).runFrom s es₁ =
        s.receiveAfter (rdmaPostReceive s.qp (answers s es)) (es₁.count .sendCompletes) ∧
      (rdmaPostReceive s.qp (answers s es) = .waiting → es₂ = []) ∧
      ∀ r rest, rdmaPostReceive s.qp (answers s es) = .returned r rest →
        rest = answers ((receiving qp).runFrom s es₁) es₂ := by
  induction es generalizing s with
  | nil => exact ⟨[], [], rfl, rfl, fun _ => rfl, nofun⟩
  | cons e es ih =>
    have hes' : .release ∉ es := fun h => hes (List.mem_cons_of_mem _ h)
    cases e with
    | release => exact absurd List.mem_cons_self hes
    | sendCompletes =>
      obtain ⟨es₁, es₂, rfl, hrun, hwait, hrest⟩ := ih (s.step .sendCompletes) hs hes'
      refine ⟨.sendCompletes :: es₁, es₂, rfl, ?_, hwait, hrest⟩
      rw [List.count_cons_self, ← receiveAfter_succ]
      exact hrun
    | poll =>
      have hstep : s.step .poll = s.receive (rdmaPostReceive s.qp [s.statRqPidb]) := by
        rw [Sys.step, hs, if_neg Bool.false_ne_true]
      rw [answers, rdmaPostReceive_cons]
      -- the first read ends the call, or the call goes on behind it
      cases hone : rdmaPostReceive s.qp [s.statRqPidb] with
      | returned result rest =>
        rw [hone] at hstep
        refine ⟨[.poll], es, rfl, hstep, nofun, fun r rest' h => ?_⟩
        cases h
        rfl
      | exited =>
        rw [hone] at hstep
        exact ⟨[.poll], es, rfl, hstep, nofun, nofun⟩
      | waiting =>
        have hsame : s.step .poll = s := hstep.trans (congrArg s.receive hone)
        rw [hsame]
        obtain ⟨es₁, es₂, rfl, hrun, hwait, hrest⟩ := ih s hs hes'
        refine ⟨.poll :: es₁, es₂, rfl, ?_, hwait, fun r rest h => ?_⟩
        · rw [List.count_cons_of_ne (by decide), ← hrun]
          exact congrArg ((receiving qp).runFrom · es₁) hsame
        · rw [hrest r rest h]
          exact congrArg (fun t => answers ((receiving qp).runFrom t es₁) es₂) hsame.symm

/-! ## What the calls return -/

/-- The receive slot of SEND `n + 1`. -/
def slot (buffer : BitVec 64) (n : Nat) : BitVec 64 := buffer + BitVec.ofNat 64 (512 * n)

/-- The results are the slots of the SENDs from the first one on, and those SENDs have
completed. -/
structure InOrder (buffer : BitVec 64) (s : Sys) : Prop where
  results : s.results = (List.range s.results.length).map (slot buffer)
  completed : s.results.length ≤ s.completed

/-- A read finds at most one SEND that the driver has not seen, and a count whose slot
has an offset below `2 ^ 31`. -/
def OneNew (s : Sys) : Event → Prop
  | .poll => s.completed ≤ s.qp.rqPidb.toNat + 1 ∧ s.completed ≤ 2 ^ 22
  | _ => True

/-! ## One call -/

/-- A later index is not zero. -/
theorem ofNat_add_one_ne_zero {n : Nat} (hn : n + 1 < 2 ^ 32) : BitVec.ofNat 32 (n + 1) ≠ 0 := by
  intro h
  have hzero := congrArg BitVec.toNat h
  rw [BitVec.toNat_ofNat, show (0 : BitVec 32).toNat = 0 from rfl] at hzero
  omega

theorem ofNat_add_one_sub_one (n : Nat) :
    BitVec.ofNat 32 (n + 1) - 1 = BitVec.ofNat 32 n := by
  rw [BitVec.ofNat_add, show (1 : BitVec 32) = BitVec.ofNat 32 1 from rfl, BitVec.add_sub_cancel]

/-- The slot of a small index lies where it should. -/
theorem rqeAddr_succ (qp : RdmaQp) {n : Nat} (hn : n < 2 ^ 22) :
    rqeAddr qp (BitVec.ofNat 32 (n + 1)) = slot qp.rq.buffer n := by
  have hne : BitVec.ofNat 32 (n + 1) ≠ 0 := ofNat_add_one_ne_zero (by omega)
  have hprod : (BitVec.ofNat 32 (n + 1) - 1) * rqeSize = BitVec.ofNat 32 (512 * n) := by
    rw [ofNat_add_one_sub_one, Nat.mul_comm, BitVec.ofNat_mul]
    rfl
  have hmsb : (BitVec.ofNat 32 (512 * n)).msb = false := by
    rw [BitVec.msb_eq_decide, BitVec.toNat_ofNat]
    simp only [decide_eq_false_iff_not]
    omega
  rw [rqeAddr, if_neg hne, hprod, BitVec.signExtend_eq_setWidth_of_msb_false hmsb, slot]
  congr 1
  apply BitVec.eq_of_toNat_eq
  simp only [BitVec.toNat_setWidth, BitVec.toNat_ofNat]
  omega

/-- What holds while no SEND is skipped. -/
structure Inv (buffer : BitVec 64) (s : Sys) : Prop where
  inOrder : InOrder buffer s
  buffer : s.qp.rq.buffer = buffer
  copy : s.qp.rqPidb = BitVec.ofNat 32 s.results.length
  bound : s.results.length ≤ 2 ^ 22

/-- A read that finds one more SEND returns the next slot. -/
theorem Inv.poll {buffer : BitVec 64} {s : Sys} (h : Inv buffer s)
    (hok : s.completed ≤ s.qp.rqPidb.toNat + 1 ∧ s.completed ≤ 2 ^ 22) :
    Inv buffer (s.receive (rdmaPostReceive s.qp [s.statRqPidb])) := by
  have hbound := h.bound
  have hle := h.inOrder.completed
  have hcopy : s.qp.rqPidb.toNat = s.results.length := by
    rw [h.copy, BitVec.toNat_ofNat]
    omega
  rcases (by omega : s.completed = s.results.length ∨ s.completed = s.results.length + 1)
    with hsame | hnext
  · have hwait : rdmaPostReceive s.qp [s.statRqPidb] = .waiting := by
      rw [rdmaPostReceive_one, Sys.statRqPidb, hsame, h.copy, if_pos rfl]
    rw [hwait]
    exact h
  · have hnew : s.statRqPidb ≠ s.qp.rqPidb := by
      intro heq
      have := congrArg BitVec.toNat heq
      rw [Sys.statRqPidb, hcopy, BitVec.toNat_ofNat] at this
      omega
    have hexit : s.statRqPidb ≠ -1 := by
      intro heq
      have hmax := congrArg BitVec.toNat heq
      rw [Sys.statRqPidb, BitVec.toNat_ofNat, show (-1 : BitVec 32).toNat = 2 ^ 32 - 1 from rfl]
        at hmax
      omega
    have hret : rdmaPostReceive s.qp [s.statRqPidb] =
        .returned ({ s.qp with rqPidb := s.statRqPidb }, slot buffer s.results.length) [] := by
      rw [rdmaPostReceive_one, if_neg hnew, if_neg hexit, ← h.buffer,
        ← rqeAddr_succ s.qp (show s.results.length < 2 ^ 22 by omega), ← hnext, Sys.statRqPidb]
    rw [hret]
    refine ⟨⟨?_, ?_⟩, h.buffer, ?_, ?_⟩
    · simp only [Sys.receive, List.length_append, List.length_singleton, List.range_succ,
        List.map_append, List.map_singleton]
      rw [← h.inOrder.results]
    · simp [Sys.receive, hnext]
    · simp [Sys.receive, Sys.statRqPidb, hnext]
    · simp only [Sys.receive, List.length_append, List.length_singleton]
      omega

theorem Inv.step {buffer : BitVec 64} {s : Sys} {e : Event} (h : Inv buffer s)
    (hok : OneNew s e) : Inv buffer (s.step e) := by
  cases e with
  | sendCompletes =>
    exact ⟨⟨h.inOrder.results, Nat.le_succ_of_le h.inOrder.completed⟩, h.buffer, h.copy, h.bound⟩
  | poll =>
    rw [Sys.step]
    split_ifs
    · exact h
    · exact h.poll hok
  | release =>
    rw [Sys.step]
    split_ifs
    · exact h
    · exact ⟨⟨h.inOrder.results, h.inOrder.completed⟩, h.buffer, h.copy, h.bound⟩

/-! ## The result -/

/-- **No message is skipped while the host keeps up.**  On every queue pair that was
allocated, in a run whose reads find at most one new SEND each, the calls return the slots
of the SENDs in their order, and each one only after its SEND has completed. -/
theorem received_inOrder (paddr : BitVec 64 → BitVec 64) (dev : RdmaDev)
    (rnDev rnDev' : RnDev) (qdepth : BitVec 32) (loc : BufLocation) (qp : RdmaQp)
    (regs : QpRegs) (halloc : allocateRdmaQp paddr dev rnDev qdepth loc = some (qp, regs, rnDev'))
    (es : List Event) (hone : (receiving qp).Guarded OneNew (receiving qp).reset es) :
    (receiving qp).Always (InOrder qp.rq.buffer) (receiving qp).reset es := by
  have hreset : Inv qp.rq.buffer (receiving qp).reset := by
    refine ⟨⟨rfl, Nat.le_refl 0⟩, rfl, ?_, Nat.zero_le _⟩
    rw [show (receiving qp).reset.qp = qp from rfl, (of_allocate halloc).2.1]
    rfl
  have hinv := Machine.always_of_guarded (fun s e hs hok => hs.step hok) hreset hone
  exact hinv.mono fun s hs => hs.inOrder

/-! ### A queue of two slots -/

/-- A queue pair with queues for two messages in device memory. -/
def twoDeep : RdmaQp where
  sq := ⟨0xa350000000000000, 0xa350000000000000, 128⟩
  sqPidb := 0
  sqCidb := 0
  cq := ⟨0xa350000000000080, 0xa350000000000080, 8⟩
  cqCidb := 0
  rq := ⟨0xa350000000000088, 0xa350000000000088, 1024⟩
  rqCidb := 0
  rqPidb := 0
  qdepth := 2

def twoDeepRegs : QpRegs :=
  ⟨0xa350000000000000, 0xa350000000000080, 0xa350000000000088, qpConfig⟩

/-- Two SENDs, each one received before the next one completes. -/
def oneByOne : List Event := [.poll, .sendCompletes, .poll, .release, .sendCompletes, .poll]

instance decidableOneNew (s : Sys) : ∀ e, Decidable (OneNew s e)
  | .poll => inferInstanceAs (Decidable (_ ∧ _))
  | .sendCompletes => isTrue trivial
  | .release => isTrue trivial

theorem received_oneByOne :
    (receiving twoDeep).Always (InOrder twoDeep.rq.buffer) (receiving twoDeep).reset oneByOne :=
  received_inOrder id oneQp ⟨0, 0, 0⟩ ⟨0, 0, 0x488⟩ 2 .devMem twoDeep twoDeepRegs rfl oneByOne
    (by decide)

/-- Two SENDs complete before the first call. -/
def bothAtOnce : List Event := [.sendCompletes, .sendCompletes, .poll]

/-- The first message is skipped: the call returns the slot of the second one, and the
next call waits for a third. -/
theorem first_message_skipped :
    allocateRdmaQp id oneQp ⟨0, 0, 0⟩ 2 .devMem = some (twoDeep, twoDeepRegs, ⟨0, 0, 0x488⟩) ∧
    ¬ InOrder twoDeep.rq.buffer ((receiving twoDeep).run bothAtOnce) ∧
    ∀ n, ((receiving twoDeep).run (bothAtOnce ++ List.replicate n .poll)).results =
      [slot twoDeep.rq.buffer 1] := by
  refine ⟨rfl, fun h => absurd h.results (by decide), fun n => ?_⟩
  rw [Machine.run, Machine.runFrom_append]
  induction n with
  | zero => decide
  | succ n ih => exact ih

end Receive
end RecoNIC
