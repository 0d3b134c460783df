import Mathlib.Data.Prod.Lex
import RecoNIC.PacketClassification.PacketMatcher
import RecoNIC.Synchronous.FallThrough

/-!
# Requests to configure the table

A request comes into `table_config_req_fifo` and is read as soon as the FIFO shows it: the two
states of the reader do the same.  The state machine of the table looks at the request in that
same cycle, and only there.  It takes the request when no beat comes, and at the first beat of
a packet with the key of a write that is not in the table.  In any other cycle with a beat the
request is gone, though the source means to hold it until `tlast`.

`appliedOnce_iff` says that this is the only way to lose a request, and that without it no
request waits for ever.
-/

namespace RecoNIC
namespace PacketMatcher

open SlotMap Synchronous

/-! ## The source -/

/-- `rd_config_state`. -/
inductive RdConfigState
  | idle
  | read
  deriving DecidableEq

/-- The inputs of one cycle.  `reqWrEn` and `din` come from the clock domain of the registers. -/
structure ConfigIn where
  packet : PacketIn
  reqWrEn : Bool
  din : Request

variable (F : FallThrough Request)

/-- The state machine of the table with its requests. -/
structure Port where
  matcher : State
  reqFifo : F.State
  rdConfigState : RdConfigState

variable {F}

namespace Port

variable (q : Port F)

/-- `req_rd_en`. -/
def reqRdEn : Bool :=
  match q.rdConfigState with
  | .idle => !F.empty q.reqFifo
  | .read => !F.empty q.reqFifo

/-- `rd_config_nextstate`. -/
def rdConfigNextstate : RdConfigState :=
  match q.rdConfigState with
  | .idle => if !F.empty q.reqFifo then .read else .idle
  | .read => if !F.empty q.reqFifo then .idle else .read

/-- `fifo_out_config_vld`. -/
def fifoOutConfigVld : Bool := q.reqRdEn

/-- The request that the FIFO shows. -/
def request : Option Request :=
  if F.empty q.reqFifo then none else some (F.dout q.reqFifo)

/-- What a cycle writes into the FIFO. -/
def arriving (i : ConfigIn) : List Request :=
  if i.reqWrEn && !F.full q.reqFifo then [i.din] else []

/-- One clock edge. -/
def step (i : ConfigIn) : Port F where
  matcher := q.matcher.step i.packet q.request
  reqFifo := F.step q.reqFifo q.reqRdEn i.reqWrEn i.din
  rdConfigState := q.rdConfigNextstate

end Port

/-! ## The ledger -/

/-- The requests that have been accepted, those that have been done, and how many pulses there
were of `fifo_out_config_vld`, the one answer that a request gets. -/
structure Requests where
  accepted : List Request
  applied : List Request
  answers : ℕ

/-- What one cycle adds. -/
def Requests.note (l : Requests) (q : Port F) (i : ConfigIn) : Requests where
  accepted := l.accepted ++ q.arriving i
  applied := l.applied ++ (q.matcher.applied i.packet q.request).toList
  answers := l.answers + if q.fifoOutConfigVld then 1 else 0

variable (F) in
/-- The matcher with its requests, watched. -/
def tableConfig : Machine (Port F × Requests) ConfigIn :=
  Machine.watch ⟨⟨State.reset, F.reset, .idle⟩, Port.step⟩ ⟨[], [], 0⟩ Requests.note

/-- **Applied once.**  The requests accepted are those that have been done, in their order, and
those that wait.  The table is what the requests done have made of it, and each of them has
been answered once. -/
structure AppliedOnce (x : Port F × Requests) : Prop where
  inOrder : x.2.accepted = x.2.applied ++ F.contents x.1.reqFifo
  table : x.1.matcher.table = x.2.applied.foldl Table.configure Table.reset
  answered : x.2.answers = x.2.applied.length

/-- The request that the FIFO shows, if there is one, is taken in this cycle. -/
def TakesShown (x : Port F × Requests) (i : ConfigIn) : Prop :=
  ∀ r ∈ x.1.request, x.1.matcher.Takes i.packet r

/-! ## One cycle -/

section Step

variable {q : Port F} {i : ConfigIn}

/-- The two states of the reader do not differ. -/
theorem reqRdEn_eq (q : Port F) : q.reqRdEn = !F.empty q.reqFifo := by
  rw [Port.reqRdEn]
  cases q.rdConfigState <;> rfl

theorem request_eq_none (h : F.empty q.reqFifo = true) : q.request = none := if_pos h

theorem request_eq_some (h : F.empty q.reqFifo = false) :
    q.request = some (F.dout q.reqFifo) := by
  rw [Port.request, h, if_neg Bool.false_ne_true]

/-- The request that is shown leaves the FIFO, whatever becomes of it. -/
theorem contents_step_fifo (q : Port F) (i : ConfigIn) :
    q.request.toList ++ F.contents (q.step i).reqFifo = F.contents q.reqFifo ++ q.arriving i := by
  have hstep := F.contents_step q.reqFifo q.reqRdEn i.reqWrEn i.din
  rw [reqRdEn_eq, Bool.and_self] at hstep
  rw [Port.step, reqRdEn_eq, hstep, ← List.append_assoc, Port.arriving]
  congr 1
  cases hempty : F.empty q.reqFifo with
  | true => rw [request_eq_none hempty]; rfl
  | false =>
    rw [request_eq_some hempty, F.contents_eq_cons _ hempty]
    rfl

theorem applied_eq_request (h : ∀ r ∈ q.request, q.matcher.Takes i.packet r) :
    q.matcher.applied i.packet q.request = q.request := by
  cases hreq : q.request with
  | none => rfl
  | some r => exact State.applied_of_takes (h r hreq)

/-- The table is always what the requests that have been done make of it. -/
theorem table_foldl_applied {l : List Request}
    (h : q.matcher.table = l.foldl Table.configure Table.reset) (i : ConfigIn) :
    (q.step i).matcher.table =
      (l ++ (q.matcher.applied i.packet q.request).toList).foldl Table.configure Table.reset := by
  rw [List.foldl_append, ← h]
  change (q.matcher.step i.packet q.request).table = _
  rw [State.table_step]
  cases q.matcher.applied i.packet q.request <;> rfl

end Step

/-! ## The invariant -/

theorem appliedOnce_reset : AppliedOnce (tableConfig F).reset where
  inOrder := F.contents_reset.symm
  table := rfl
  answered := rfl

/-- A cycle that takes the request shown. -/
theorem AppliedOnce.step {x : Port F × Requests} {i : ConfigIn} (h : AppliedOnce x)
    (hi : TakesShown x i) : AppliedOnce ((tableConfig F).step x i) where
  inOrder := by
    change x.2.accepted ++ x.1.arriving i =
      (x.2.applied ++ (x.1.matcher.applied i.packet x.1.request).toList) ++
        F.contents (x.1.step i).reqFifo
    rw [applied_eq_request hi, List.append_assoc, contents_step_fifo, h.inOrder,
      List.append_assoc]
  table := table_foldl_applied h.table i
  answered := by
    change x.2.answers + (if x.1.fifoOutConfigVld then 1 else 0) =
      (x.2.applied ++ (x.1.matcher.applied i.packet x.1.request).toList).length
    rw [applied_eq_request hi, List.length_append, h.answered, Port.fifoOutConfigVld, reqRdEn_eq]
    cases hempty : F.empty x.1.reqFifo with
    | true => rw [request_eq_none hempty]; rfl
    | false => rw [request_eq_some hempty]; rfl

/-- **A lost request.**  A request that is shown and not taken is in the FIFO no more, and it
has not been done. -/
theorem AppliedOnce.lost {x : Port F × Requests} {i : ConfigIn} (h : AppliedOnce x)
    (hi : ¬ TakesShown x i) : ¬ AppliedOnce ((tableConfig F).step x i) := by
  rw [TakesShown] at hi
  push Not at hi
  obtain ⟨r, hr, hnot⟩ := hi
  intro hbad
  have hall : x.2.accepted ++ x.1.arriving i =
      (x.2.applied ++ (x.1.matcher.applied i.packet x.1.request).toList) ++
        F.contents (x.1.step i).reqFifo := hbad.inOrder
  have hcontents := contents_step_fifo x.1 i
  rw [hr] at hall hcontents
  rw [State.applied_of_not_takes hnot, h.inOrder, List.append_assoc, ← hcontents] at hall
  have hlen := congrArg List.length hall
  simp only [List.length_append, Option.toList_some, Option.toList_none, List.length_cons,
    List.length_nil] at hlen
  omega

/-! ## No request waits for ever -/

/-- No beat comes, and no request. -/
structure Quiet (i : ConfigIn) : Prop where
  beat : i.packet.beat = false
  reqWrEn : i.reqWrEn = false

/-- All requests have been done. -/
def AllApplied (x : Port F × Requests) : Prop := x.2.applied = x.2.accepted

/-- The requests in the FIFO, and how long the oldest one has to wait until it is shown. -/
def toDo (x : Port F × Requests) : ℕ ×ₗ ℕ :=
  toLex ((F.contents x.1.reqFifo).length, F.wait x.1.reqFifo)

section Progress

variable {x : Port F × Requests} {i : ConfigIn}

/-- Without a beat every request is taken. -/
theorem Quiet.takesShown (hi : Quiet i) (x : Port F × Requests) : TakesShown x i :=
  fun _ _ => Or.inl hi.beat

theorem AppliedOnce.allApplied_iff (h : AppliedOnce x) :
    AllApplied x ↔ F.contents x.1.reqFifo = [] := by
  rw [AllApplied, h.inOrder, List.self_eq_append_right]

theorem toDo_step (hi : Quiet i) (hne : F.contents x.1.reqFifo ≠ []) :
    toDo ((tableConfig F).step x i) < toDo x := by
  change toLex ((F.contents (F.step x.1.reqFifo x.1.reqRdEn i.reqWrEn i.din)).length,
    F.wait (F.step x.1.reqFifo x.1.reqRdEn i.reqWrEn i.din)) < toDo x
  rw [toDo, Prod.Lex.toLex_lt_toLex, hi.reqWrEn, reqRdEn_eq]
  cases hempty : F.empty x.1.reqFifo with
  | true =>
    have hpos := F.wait_pos hne hempty
    have hwait := F.wait_idle x.1.reqFifo i.din
    right
    rw [Bool.not_true, F.contents_idle]
    exact ⟨rfl, by dsimp only; omega⟩
  | false =>
    left
    exact F.length_contents_read hempty i.din

end Progress

/-! ## Requests in every run -/

/-- **Requests are applied once exactly if each is taken when it is shown.**  And then none of
them waits for ever: in cycles without a beat and without a new request, all that are left are
done after finitely many cycles. -/
theorem appliedOnce_iff (is : List ConfigIn) :
    ((tableConfig F).Always AppliedOnce (tableConfig F).reset is ↔
        (tableConfig F).Guarded TakesShown (tableConfig F).reset is) ∧
      ((tableConfig F).Guarded TakesShown (tableConfig F).reset is →
        ∀ q : ℕ → ConfigIn, (∀ t, Quiet (q t)) →
          ∃ n, AllApplied ((tableConfig F).run (is ++ (List.range n).map q))) := by
  have hiff : (tableConfig F).Always AppliedOnce (tableConfig F).reset is ↔
      (tableConfig F).Guarded TakesShown (tableConfig F).reset is :=
    Machine.always_iff_guarded (fun _ h => h) (fun _ _ h _ => h.step) (fun _ _ h _ => h.lost)
      appliedOnce_reset (Machine.guarded_true _ is)
  refine ⟨hiff, fun htakes q hq => ?_⟩
  have honce : AppliedOnce ((tableConfig F).runFrom (tableConfig F).reset is) :=
    (hiff.mpr htakes).last
  obtain ⟨n, hall⟩ := Machine.exists_runFrom_of_measure (G := AllApplied) toDo
    (fun x i h hi => AppliedOnce.step h (Quiet.takesShown hi x))
    (fun x i h hi hno => toDo_step hi (mt h.allApplied_iff.mpr hno)) honce q hq
  refine ⟨n, ?_⟩
  rw [Machine.run, Machine.runFrom_append]
  exact hall

/-- `table_config_req_fifo` with its parameters. -/
def tableConfigReqFifo : FallThrough Request :=
  Queue.fallThrough 64 64 ⟨⟨0, 0, 0⟩, 0, 0⟩

/-- A request that writes an entry for the sender 1, and in the next cycle a packet of one beat
from the sender 7. -/
def beatAtRequest : List ConfigIn :=
  [⟨⟨true, false, false, 0, false⟩, true, ⟨⟨1, 0, 0⟩, 0x1000, tableOpWrite⟩⟩,
    ⟨⟨true, true, true, (7 : BitVec 203) <<< 139, true⟩, false, ⟨⟨0, 0, 0⟩, 0, 0⟩⟩]

/-- The request is not in the FIFO afterwards, and it has not been done. -/
theorem not_appliedOnce_beatAtRequest :
    ¬ (tableConfig tableConfigReqFifo).Always AppliedOnce
      (tableConfig tableConfigReqFifo).reset beatAtRequest := by
  intro h
  have hlost : ¬ ((tableConfig tableConfigReqFifo).run beatAtRequest).2.accepted =
      ((tableConfig tableConfigReqFifo).run beatAtRequest).2.applied ++
        tableConfigReqFifo.contents
          ((tableConfig tableConfigReqFifo).run beatAtRequest).1.reqFifo := by
    decide +kernel
  exact hlost h.last.inOrder

end PacketMatcher
end RecoNIC
