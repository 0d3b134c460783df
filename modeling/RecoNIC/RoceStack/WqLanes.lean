import RecoNIC.RoceStack.Lane
import RecoNIC.RoceStack.WqLedger

/-!
# The work-queue manager, queue pair by queue pair

`lane q s` is what the state and the ledger say about the queue pair `q`, and
`actions q s i` is what a cycle does for it: at most one action of the `SQ_*` machine,
one of the `ACK_*` machine, and a doorbell.  Component by component, the lane after the
cycle is the lane under these actions.

The two machines act at one edge.  Their actions are put in an order in which each sees
what the block RAM gave it: the `SQ_*` machine goes first, except with its write-back,
which comes after whatever the `ACK_*` machine does --- unless both write one entry,
where the order is that of the two writes.

The lemmas go through the components of the lane one by one.  `Sound.sq_lane_step` and
`ack_lane_step` are about the two machines, with one lemma for each of their states.  The
doorbells and the batch list follow from what the FIFOs hold (`Sound.rung_lane_step`,
`Sound.batch_lane_step`), the entry from the two ports of the RAM (`cache_lane_step`), and the
rest from the ledger.
-/

namespace RecoNIC
namespace WqManager

open Synchronous Lane

/-! ## The view -/

/-- What matters of an entry. -/
def entryOf (d : SQdata) : Entry := ⟨d.sqProdIdx, d.cqHeadIdx⟩

/-- The entries of the queue pair `q`. -/
def entriesOf (q : BitVec 8) (ds : List SQdata) : List Entry :=
  ds.filterMap fun d => if d.sqIdx = q then some (entryOf d) else none

namespace State

variable (q : BitVec 8) (s : State)

/-- The doorbells that wait, the captured one last. -/
def waiting : List SQdata :=
  s.sqFifo.contents ++ if s.sqFifoIf.st = .valid then [s.sqFifoIf.input] else []

/-- Where the `SQ_*` machine is, for the queue pair `q`. -/
def sqPhase : SqPhase :=
  if s.sq.output.sqIdx = q then
    match s.sq.st with
    | .getQueue => .get (entryOf s.sq.output)
    | .readCache => .read (entryOf s.sq.output) (entryOf s.sqCache.douta)
    | .checkQueueBusy => .check (entryOf s.sq.output) (entryOf s.sq.cDouta)
    | .ifReady => .ready (entryOf s.sq.output)
    | .waitQp =>
      if s.ar.st = .calcAddr then .fetch (entryOf s.sq.output) else .busy (entryOf s.sq.output)
    | .write | .send | .read | .valid => .busy (entryOf s.sq.output)
    | .idle | .writeCqCache => .away
  else .away

/-- Where the `ACK_*` machine is, for the queue pair `q`. -/
def ackPhase : AckPhase :=
  if s.ackQp = q then
    match s.ack.st with
    | .idle => .away
    | .getCaches => .get
    | .readCaches => .read (entryOf s.sqCache.doutb)
    | .updateCqhead => .report (entryOf s.ack.sqCDoutb)
    | .writeCompletion | .wbFifoCache => .settle (entryOf s.ack.sqCDoutb)
    | .finish => .finish (entryOf s.ack.sqCDoutb)
  else .away

end State

/-- The life of the queue pair `q` so far. -/
def lane (q : BitVec 8) (s : State × Ledger) : Lane where
  rung := entriesOf q s.1.waiting
  sq := s.1.sqPhase q
  batch := entriesOf q s.1.sqFifoBatch.contents
  ack := s.1.ackPhase q
  cache := entryOf (s.1.sqCache.ram q)
  unacked := s.2.unacked q
  lastPi := s.2.lastPi q
  fetched := s.2.fetched q
  issued := s.2.issued q

/-! ## The actions of a cycle -/

namespace State

variable (q : BitVec 8) (s : State) (i : Input)

/-- The queue pair the `SQ_*` machine acts for: in `SQ_IDLE` the one it takes. -/
def sqTarget : BitVec 8 :=
  if s.sq.st = .idle then
    if s.sqFifo.readyRd then s.sqFifo.dataOut.sqIdx else s.sqFifoBatch.dataOut.sqIdx
  else s.sq.output.sqIdx

/-- What the `SQ_*` machine does, with the fetch of the `AR_*` machine. -/
def sqOp : Option Action :=
  match s.sq.st with
  | .idle =>
    if s.sqFifo.readyRd then some .take
    else if s.sqFifoBatch.readyRd then some .takeBatch
    else none
  | .getQueue => some .lookup
  | .readCache => some .adopt
  | .checkQueueBusy => some .check
  | .ifReady =>
    if s.sq.output.sqProdIdx ≤ s.sq.output.cqHeadIdx then some .skip
    else if s.fetchWqeAck then some .start
    else none
  | .waitQp => if s.ar.st = .calcAddr then some .fetch else none
  | .valid => if s.issues i then some .issue else none
  | _ => none

/-- What it does for `q`. -/
def sqAction : Option Action := if s.sqTarget = q then s.sqOp i else none

/-- The queue pair the `ACK_*` machine acts for: in `ACK_IDLE` the one it takes. -/
def ackTarget : BitVec 8 := (s.accepts i).getD s.ackQp

/-- What the `ACK_*` machine does. -/
def ackOp : Option Action :=
  match s.ack.st with
  | .idle => if i.ack.isSome then some .accept else none
  | .getCaches => some .ackLookup
  | .readCaches => some .advance
  | .updateCqhead => some .report
  | .writeCompletion => none
  | .wbFifoCache => some .settle
  | .finish => some (.finish s.sqFifoBatch.readyWr)

/-- What it does for `q`. -/
def ackAction : Option Action := if s.ackTarget i = q then s.ackOp i else none

/-- The doorbell of `q`. -/
def bellAction : Option Action :=
  if i.sqUpdated ∧ i.qpIdx = q then
    some (.ring ⟨i.sqPi, i.cqHead⟩ (s.sqFifoIf.st == .idle && s.sqFifo.readyWr))
  else none

/-- The `SQ_*` machine goes first. -/
def sqFirst : Bool :=
  s.sq.st != .checkQueueBusy || (s.ack.st == .finish && i.bLast)

/-- What a cycle does for `q`. -/
def actions : List Action :=
  (if s.sqFirst i then (s.sqAction q i).toList ++ (s.ackAction q i).toList
    else (s.ackAction q i).toList ++ (s.sqAction q i).toList) ++ (s.bellAction q i).toList

end State

/-! ## The lists of entries -/

section Entries

variable (q : BitVec 8)

@[simp] theorem entriesOf_nil : entriesOf q [] = [] := rfl

@[simp] theorem entriesOf_append (ds es : List SQdata) :
    entriesOf q (ds ++ es) = entriesOf q ds ++ entriesOf q es := List.filterMap_append

/-- What comes in for another queue pair is left out. -/
theorem entriesOf_cons (d : SQdata) (ds : List SQdata) :
    entriesOf q (d :: ds) =
      if d.sqIdx = q then entryOf d :: entriesOf q ds else entriesOf q ds := by
  unfold entriesOf
  split_ifs with h <;> simp [h]

/-- What is left of the entries of `q` when the first one of a FIFO is read. -/
theorem entriesOf_read (f : Fifo SQdata 3) (hready : f.readyRd = true) :
    entriesOf q f.contents =
      if f.dataOut.sqIdx = q then entryOf f.dataOut :: entriesOf q f.contents.tail
      else entriesOf q f.contents.tail := by
  conv_lhs => rw [f.contents_eq_cons hready]
  exact entriesOf_cons q _ _

end Entries

/-! ## The machines' actions -/

section Ops

variable (q : BitVec 8) (s : State) (i : Input)

/-- What the `SQ_*` machine does for a queue pair is one of its own actions.  The lemmas below
read each action back to the state of the machine: it is taken for `q` iff the machine is in
the state of the action and works for `q`. -/
theorem actor_sqAction : ∀ a ∈ s.sqAction q i, a.actor = .sq := by
  intro a ha
  simp only [State.sqAction, State.sqOp] at ha
  cases hst : s.sq.st <;> simp only [hst] at ha <;> split_ifs at ha <;>
    simp at ha <;> subst ha <;> rfl

/-- A doorbell of `q` is taken iff the FIFO is read and has one of `q` at its front. -/
theorem sqAction_eq_take_iff :
    s.sqAction q i = some .take ↔
      s.sqFifoRd = true ∧ s.sqFifo.dataOut.sqIdx = q := by
  cases hst : s.sq.st <;>
    simp only [State.sqAction, State.sqTarget, State.sqOp, State.sqFifoRd, hst] <;>
    split_ifs <;> simp_all

/-- The same for the batch FIFO, which is read only while no doorbell waits. -/
theorem sqAction_eq_takeBatch_iff :
    s.sqAction q i = some .takeBatch ↔
      s.sqFifoBatchRd = true ∧ s.sqFifoBatch.dataOut.sqIdx = q := by
  cases hst : s.sq.st <;>
    simp only [State.sqAction, State.sqTarget, State.sqOp, State.sqFifoBatchRd, hst] <;>
    split_ifs <;> simp_all

/-- `SQ_GET_QUEUE` has the entry looked up. -/
theorem sqAction_eq_lookup_iff :
    s.sqAction q i = some .lookup ↔ s.sq.st = .getQueue ∧ s.sq.output.sqIdx = q := by
  cases hst : s.sq.st <;>
    simp only [State.sqAction, State.sqTarget, State.sqOp, hst] <;>
    split_ifs <;> simp_all

/-- `SQ_IF_READY` gives up an entry whose producer index has been reached. -/
theorem sqAction_eq_skip_iff :
    s.sqAction q i = some .skip ↔
      s.sq.st = .ifReady ∧ s.sq.output.sqProdIdx ≤ s.sq.output.cqHeadIdx ∧
        s.sq.output.sqIdx = q := by
  cases hst : s.sq.st <;>
    simp only [State.sqAction, State.sqTarget, State.sqOp, hst] <;>
    split_ifs <;> simp_all

/-- `SQ_CHECK_QUEUE_BUSY` lasts one cycle, and writes the entry back in it. -/
theorem sqAction_eq_check_iff :
    s.sqAction q i = some .check ↔
      s.sq.st = .checkQueueBusy ∧ s.sq.output.sqIdx = q := by
  cases hst : s.sq.st <;>
    simp only [State.sqAction, State.sqTarget, State.sqOp, hst] <;>
    split_ifs <;> simp_all

/-- An element counts as fetched when the `AR_*` machine computes its address, and the `SQ_*`
machine waits meanwhile. -/
theorem sqAction_eq_fetch_iff :
    s.sqAction q i = some .fetch ↔
      s.sq.st = .waitQp ∧ s.ar.st = .calcAddr ∧ s.sq.output.sqIdx = q := by
  cases hst : s.sq.st <;>
    simp only [State.sqAction, State.sqTarget, State.sqOp, hst] <;>
    split_ifs <;> simp_all

/-- An element counts as issued when its last packet has been handed over. -/
theorem sqAction_eq_issue_iff :
    s.sqAction q i = some .issue ↔ s.issues i = true ∧ s.sq.output.sqIdx = q := by
  cases hst : s.sq.st <;>
    simp only [State.sqAction, State.sqTarget, State.sqOp, hst] <;>
    split_ifs <;> simp_all [State.issues]

/-- What the `ACK_*` machine does is one of its own actions. -/
theorem actor_ackAction : ∀ a ∈ s.ackAction q i, a.actor = .ack := by
  intro a ha
  simp only [State.ackAction, State.ackOp] at ha
  cases hst : s.ack.st <;> simp only [hst] at ha <;> split_ifs at ha <;>
    simp at ha <;> subst ha <;> rfl

/-- An acknowledgement is taken for the queue pair that it names. -/
theorem ackAction_eq_accept_iff :
    s.ackAction q i = some .accept ↔ s.accepts i = some q := by
  cases hst : s.ack.st <;> cases ha : i.ack <;>
    simp only [State.ackAction, State.ackTarget, State.ackOp, State.accepts, hst, ha] <;>
    simp

/-- `ACK_FINISH` writes the entry back, and the batch FIFO has room or not. -/
theorem ackAction_eq_finish_iff (room : Bool) :
    s.ackAction q i = some (.finish room) ↔
      s.ack.st = .finish ∧ s.ackQp = q ∧ s.sqFifoBatch.readyWr = room := by
  cases hst : s.ack.st <;> cases ha : i.ack <;>
    simp only [State.ackAction, State.ackTarget, State.ackOp, State.accepts, hst, ha] <;>
    simp

/-- `ACK_GET_CACHES` has the entry looked up. -/
theorem ackAction_eq_ackLookup_iff :
    s.ackAction q i = some .ackLookup ↔ s.ack.st = .getCaches ∧ s.ackQp = q := by
  cases hst : s.ack.st <;> cases ha : i.ack <;>
    simp only [State.ackAction, State.ackTarget, State.ackOp, State.accepts, hst, ha] <;>
    simp

/-- A doorbell is neither's. -/
theorem actor_bellAction : ∀ a ∈ s.bellAction q i, a.actor = .bell := by
  intro a ha
  simp only [State.bellAction] at ha
  split_ifs at ha <;> simp at ha
  subst ha
  rfl

variable {q s i}

/-- So no action of the others is among those of the `SQ_*` machine, and the other way round. -/
theorem sqAction_ne_ack (a : Action) (ha : a.actor ≠ .sq) : s.sqAction q i ≠ some a :=
  fun h => ha (actor_sqAction q s i a h)

theorem ackAction_ne_sq (a : Action) (ha : a.actor ≠ .ack) : s.ackAction q i ≠ some a :=
  fun h => ha (actor_ackAction q s i a h)

theorem bellAction_ne (a : Action) (ha : a.actor ≠ .bell) : s.bellAction q i ≠ some a :=
  fun h => ha (actor_bellAction q s i a h)

end Ops

/-! ## The first machine -/

section Sq

variable {q : BitVec 8} {s : State × Ledger} {i : Input}

/-- The queue pair of the entry changes only when an entry is taken. -/
theorem sqIdx_sqStep (s : State) (i : Input) (hidle : s.sq.st ≠ .idle) :
    (s.sqStep i).output.sqIdx = s.sq.output.sqIdx := by
  by_cases hread : s.sq.st = .readCache
  · simp only [State.sqStep, State.sqNext, hread]
    split_ifs <;> rfl
  · rw [s.output_sqStep i hidle hread]

/-- In `SQ_IDLE` the machine takes a doorbell, or else an element of the batch FIFO.  It is away
for every queue pair before, and for all but one afterwards. -/
theorem sq_lane_step_idle (hst : s.1.sq.st = .idle) :
    ((lane q s).act (s.1.sqAction q i)).sq = (s.1.step i).sqPhase q := by
  have haway : (lane q s).sq = .away := by simp [lane, State.sqPhase, hst]
  cases hready : s.1.sqFifo.readyRd with
  | true =>
    -- a doorbell waits, and goes before the batch
    have hstep : (s.1.step i).sq.st = .getQueue ∧
        (s.1.step i).sq.output = s.1.sqFifo.dataOut := by
      simp [State.step, State.sqStep, State.sqNext, hst, hready]
    have hrung := entriesOf_read q s.1.sqFifo hready
    by_cases hq : s.1.sqFifo.dataOut.sqIdx = q
    · have hrung' : (lane q s).rung = entryOf s.1.sqFifo.dataOut ::
          (lane q s).rung.tail := by
        simp [lane, State.waiting, hrung, hq]
      rw [show s.1.sqAction q i = some .take by
        simp [State.sqAction, State.sqTarget, State.sqOp, hst, hready, hq]]
      simp only [act_some, sq_step, sqAfter, haway]
      rw [hrung']
      simp [State.sqPhase, hstep, hq]
    · rw [show s.1.sqAction q i = none by
        simp [State.sqAction, State.sqTarget, hst, hready, hq]]
      simp [haway, State.sqPhase, hstep, hq]
  | false =>
    cases hbatch : s.1.sqFifoBatch.readyRd with
    | true =>
      -- an element of the batch has its entry with it, so nothing is looked up
      have hstep : (s.1.step i).sq.st = .ifReady ∧
          (s.1.step i).sq.output = s.1.sqFifoBatch.dataOut := by
        simp [State.step, State.sqStep, State.sqNext, hst, hready, hbatch]
      have hentries := entriesOf_read q s.1.sqFifoBatch hbatch
      by_cases hq : s.1.sqFifoBatch.dataOut.sqIdx = q
      · have hb : (lane q s).batch = entryOf s.1.sqFifoBatch.dataOut :: (lane q s).batch.tail := by
          simp [lane, hentries, hq]
        rw [show s.1.sqAction q i = some .takeBatch by
          simp [State.sqAction, State.sqTarget, State.sqOp, hst, hready, hbatch, hq]]
        simp only [act_some, sq_step, sqAfter, haway]
        rw [hb]
        simp [State.sqPhase, hstep, hq]
      · rw [show s.1.sqAction q i = none by
          simp [State.sqAction, State.sqTarget, hst, hready, hq]]
        simp [haway, State.sqPhase, hstep, hq]
    | false =>
      have hstep : (s.1.step i).sq.st = .idle := by
        simp [State.step, State.sqStep, State.sqNext, hst, hready, hbatch]
      have hnone : s.1.sqAction q i = none := by
        simp [State.sqAction, State.sqOp, hst, hready, hbatch]
      simp [hnone, haway, State.sqPhase, hstep]

/-- The `AR_*` machine starts for `SQ_IF_READY` alone. -/
theorem Sound.not_calcAddr (h : Sound s) (hst : s.1.sq.st ≠ .ifReady) :
    (s.1.step i).ar.st ≠ .calcAddr := by
  have hfetch : s.1.sq.fetchWqe = false :=
    Bool.eq_false_iff.mpr fun hf => hst (h.coupled.fetchWqe hf).1
  show (s.1.arStep i).st ≠ _
  cases har : s.1.ar.st with
  | idle => simp [State.arStep, har, hfetch]
  | calcAddr => simp [State.arStep, har]
  | valid => cases hr : i.arReady <;> simp [State.arStep, har, hr]
  | reading =>
    rcases hr : i.rData with _ | ⟨rdata, rlast⟩
    · simp [State.arStep, har, hr]
    · cases rlast <;> simp [State.arStep, har, hr]
  | done => cases ha : s.1.newWqeFetchedAck i <;> simp [State.arStep, har, ha]

/-- A fetched element is in the hands of the `SQ_*` machine. -/
theorem sqPhase_of_working {t : State} (hq : t.sq.output.sqIdx = q)
    (hworking : t.sq.st.working = true) (har : t.ar.st ≠ .calcAddr) :
    t.sqPhase q = .busy (entryOf t.sq.output) := by
  cases hst : t.sq.st <;> simp [State.sqPhase, hq, hst, har, SqState.working] at hworking ⊢

/-- Later it acts for the queue pair of what it has taken. -/
theorem sqAction_of_ne_idle (hidle : s.1.sq.st ≠ .idle) (hq : s.1.sq.output.sqIdx = q) :
    s.1.sqAction q i = s.1.sqOp i := by
  rw [State.sqAction, State.sqTarget, if_neg hidle, if_pos hq]

/-- The machine works for another queue pair. -/
theorem sq_lane_step_other (hidle : s.1.sq.st ≠ .idle) (hq : s.1.sq.output.sqIdx ≠ q) :
    ((lane q s).act (s.1.sqAction q i)).sq = (s.1.step i).sqPhase q := by
  have hidx : (s.1.step i).sq.output.sqIdx = s.1.sq.output.sqIdx := sqIdx_sqStep s.1 i hidle
  have hnone : s.1.sqAction q i = none := by
    rw [State.sqAction, State.sqTarget, if_neg hidle, if_neg hq]
  simp [hnone, lane, State.sqPhase, hq, hidx]

/-- In `SQ_GET_QUEUE` the RAM reads the entry, as it is before the writes of this edge. -/
theorem sq_lane_step_getQueue (hst : s.1.sq.st = .getQueue) (hq : s.1.sq.output.sqIdx = q) :
    ((lane q s).act (s.1.sqAction q i)).sq = (s.1.step i).sqPhase q := by
  have hidle : s.1.sq.st ≠ .idle := by simp [hst]
  have hsame := s.1.output_sqStep i hidle (by simp [hst])
  have hstep : (s.1.step i).sq.st = .readCache := by
    simp [State.step, State.sqStep, State.sqNext, hst]
  have hout : (s.1.step i).sq.output = s.1.sq.output := hsame
  have hdouta : (s.1.step i).sqCache.douta = s.1.sqCache.ram q := by
    simp [State.step, Bram.step, State.sqCacheA, hst, hq]
  rw [sqAction_of_ne_idle hidle hq]
  simp [State.sqOp, hst, State.sqPhase, hq, hstep, hout, hdouta, lane]

/-- In `SQ_READ_CACHE` the head of a busy entry replaces the one that came with the doorbell. -/
theorem sq_lane_step_readCache (hst : s.1.sq.st = .readCache)
    (hq : s.1.sq.output.sqIdx = q) :
    ((lane q s).act (s.1.sqAction q i)).sq = (s.1.step i).sqPhase q := by
  have hidle : s.1.sq.st ≠ .idle := by simp [hst]
  have hphase : (lane q s).sq = s.1.sqPhase q := rfl
  have hidx : (s.1.step i).sq.output.sqIdx = s.1.sq.output.sqIdx := sqIdx_sqStep s.1 i hidle
  have hstep : (s.1.step i).sq.st = .checkQueueBusy ∧
      (s.1.step i).sq.cDouta = s.1.sqCache.douta := by
    simp [State.step, State.sqStep, State.sqNext, hst]
  have hout : entryOf (s.1.step i).sq.output =
      if s.1.sqCache.douta.sqProdIdx = 0#32 then entryOf s.1.sq.output
      else ⟨s.1.sq.output.sqProdIdx, s.1.sqCache.douta.cqHeadIdx⟩ := by
    by_cases hz : s.1.sqCache.douta.sqProdIdx = 0#32 <;>
      simp [State.step, State.sqStep, State.sqNext, hst, hz, entryOf]
  rw [sqAction_of_ne_idle hidle hq]
  simp only [State.sqOp, hst, hphase, State.sqPhase, hq, hidx, hstep, hout, act_some, sq_step,
    sqAfter, if_true]
  rfl

/-! In the states that follow, the machine leaves its entry alone. -/

section Keeps

variable (hq : s.1.sq.output.sqIdx = q) (hout : (s.1.step i).sq.output = s.1.sq.output)
include hq hout

/-- In `SQ_CHECK_QUEUE_BUSY` a doorbell goes on if the queue pair was idle, and is left to the
entry if it was busy. -/
theorem sq_lane_step_checkQueueBusy (hst : s.1.sq.st = .checkQueueBusy) :
    ((lane q s).act (s.1.sqAction q i)).sq = (s.1.step i).sqPhase q := by
  have hphase : (lane q s).sq = s.1.sqPhase q := rfl
  have hstep : (s.1.step i).sq.st =
      if s.1.sq.cDouta.sqProdIdx = 0#32 then .ifReady else .idle := by
    simp [State.step, State.sqStep, State.sqNext, hst]
  rw [sqAction_of_ne_idle (by simp [hst]) hq]
  by_cases hz : s.1.sq.cDouta.sqProdIdx = 0#32 <;>
    simp [State.sqOp, hst, hphase, State.sqPhase, hq, hstep, hout, hz, entryOf]

/-- In `SQ_IF_READY` the machine gives up, starts the `AR_*` machine, or waits for it. -/
theorem sq_lane_step_ifReady (hst : s.1.sq.st = .ifReady) :
    ((lane q s).act (s.1.sqAction q i)).sq = (s.1.step i).sqPhase q := by
  have hphase : (lane q s).sq = s.1.sqPhase q := rfl
  rw [sqAction_of_ne_idle (by simp [hst]) hq]
  by_cases hle : s.1.sq.output.sqProdIdx ≤ s.1.sq.output.cqHeadIdx
  · have hstep : (s.1.step i).sq.st = .idle := by
      simp [State.step, State.sqStep, State.sqNext, hst, hle]
    simp [State.sqOp, hst, hphase, State.sqPhase, hq, hout, hstep, hle]
  · have hlt := BitVec.not_le.mp hle
    cases hack : s.1.fetchWqeAck with
    | true =>
      have hstep : (s.1.step i).sq.st = .waitQp := by
        simp [State.step, State.sqStep, State.sqNext, hst, hle, hack]
      have har : (s.1.step i).ar.st = .calcAddr := by
        simp only [State.fetchWqeAck, Bool.and_eq_true, beq_iff_eq] at hack
        simp [State.step, State.arStep, hack]
      simp [State.sqOp, hst, hphase, State.sqPhase, hq, hstep, hle, hack, har, hout, entryOf, hlt]
    | false =>
      have hstep : (s.1.step i).sq.st = .ifReady := by
        simp [State.step, State.sqStep, State.sqNext, hst, hle, hack]
      simp [State.sqOp, hst, hphase, State.sqPhase, hq, hstep, hle, hack, hout]

/-- In `SQ_WAIT_QP` the element is fetched and then in the hands of the machine, whatever the
context says it is; the `QP_*` machine cannot be done before the address has been computed. -/
theorem Sound.sq_lane_step_waitQp (h : Sound s) (hst : s.1.sq.st = .waitQp) :
    ((lane q s).act (s.1.sqAction q i)).sq = (s.1.step i).sqPhase q := by
  have hphase : (lane q s).sq = s.1.sqPhase q := rfl
  rw [sqAction_of_ne_idle (by simp [hst]) hq]
  by_cases har : s.1.ar.st = .calcAddr
  · have hserve := (h.coupled.fetching (by simp [har])).2
    have hdone : s.1.qp.intfDone = false := by
      refine Bool.eq_false_iff.mpr fun hd => ?_
      simp [h.coupled.intfDone.mp hd, QpState.serving] at hserve
    -- the address is computed in this cycle, and no context can be there yet
    have hstep : (s.1.step i).sq.st = .waitQp := waitQp_of_not_done hst hdone
    have har' : (s.1.step i).ar.st = .valid := by simp [State.step, State.arStep, har]
    simp [State.sqOp, hst, hphase, State.sqPhase, hq, hstep, har, har', hout]
  · have hworking : (s.1.step i).sq.st.working = true := by
      simp only [State.step, State.sqStep, State.sqNext, hst]
      split_ifs <;> simp [SqState.working, hst]
    rw [sqPhase_of_working (hout ▸ hq) hworking (h.not_calcAddr (by simp [hst])), hout]
    simp [State.sqOp, hst, hphase, State.sqPhase, hq, har]

/-- In `SQ_VALID` one packet after the other is handed over.  The element is issued with the last
one, and this ends the service of the queue pair. -/
theorem Sound.sq_lane_step_valid (h : Sound s) (hst : s.1.sq.st = .valid) :
    ((lane q s).act (s.1.sqAction q i)).sq = (s.1.step i).sqPhase q := by
  have hphase : (lane q s).sq = s.1.sqPhase q := rfl
  rw [sqAction_of_ne_idle (by simp [hst]) hq]
  cases hissue : s.1.issues i with
  | true =>
    have hready := hissue
    simp only [State.issues, Bool.and_eq_true, beq_iff_eq] at hready
    have hstep : (s.1.step i).sq.st = .writeCqCache := by
      simp [State.step, State.sqNext, hst, hready]
    simp [State.sqOp, hst, hphase, State.sqPhase, hq, hout, hstep, hissue]
  | false =>
    have hworking : (s.1.step i).sq.st.working = true := by
      simp only [State.issues, hst, beq_self_eq_true, Bool.true_and] at hissue
      simp only [State.step, State.sqStep, State.sqNext, hst]
      split_ifs <;> simp_all [SqState.working]
    rw [sqPhase_of_working (hout ▸ hq) hworking (h.not_calcAddr (by simp [hst])), hout]
    simp [State.sqOp, hst, hphase, State.sqPhase, hq, hissue]

end Keeps

/-- **The first machine moves as the lane says.** -/
theorem Sound.sq_lane_step (h : Sound s) :
    ((lane q s).act (s.1.sqAction q i)).sq = (s.1.step i).sqPhase q := by
  by_cases hidle : s.1.sq.st = .idle
  · exact sq_lane_step_idle hidle
  by_cases hq : s.1.sq.output.sqIdx = q
  · have hphase : (lane q s).sq = s.1.sqPhase q := rfl
    have hsame : s.1.sq.st ≠ .readCache → (s.1.step i).sq.output = s.1.sq.output :=
      s.1.output_sqStep i hidle
    cases hst : s.1.sq.st with
    | idle => exact absurd hst hidle
    | getQueue => exact sq_lane_step_getQueue hst hq
    | readCache => exact sq_lane_step_readCache hst hq
    | checkQueueBusy => exact sq_lane_step_checkQueueBusy hq (hsame (by simp [hst])) hst
    | ifReady => exact sq_lane_step_ifReady hq (hsame (by simp [hst])) hst
    | waitQp => exact h.sq_lane_step_waitQp hq (hsame (by simp [hst])) hst
    | write | send | read =>
      have hstep : (s.1.step i).sq.st = .valid := by
        simp [State.step, State.sqNext, hst]
      rw [sqAction_of_ne_idle hidle hq]
      simp [State.sqOp, hst, hphase, State.sqPhase, hq, hstep, hsame (by simp [hst])]
    | valid => exact h.sq_lane_step_valid hq (hsame (by simp [hst])) hst
    | writeCqCache =>
      have hstep : (s.1.step i).sq.st = .idle := by
        simp [State.step, State.sqNext, hst]
      rw [sqAction_of_ne_idle hidle hq]
      simp [State.sqOp, hst, hphase, State.sqPhase, hq, hsame (by simp [hst]), hstep]
  · exact sq_lane_step_other hidle hq

end Sq

/-! ## The second machine -/

section Ack

variable {q : BitVec 8} {s : State × Ledger} {i : Input}

/-- Once it has taken an acknowledgement, the second machine keeps its queue pair. -/
theorem ackQp_step (s : State) (i : Input) (hst : s.ack.st ≠ .idle) :
    (s.step i).ackQp = s.ackQp := by
  show ((s.ackStep i).currAck.qpNum.setWidth 8 : BitVec 8) = s.ack.currAck.qpNum.setWidth 8
  cases h : s.ack.st with
  | idle => exact absurd h hst
  | writeCompletion | finish =>
    simp only [State.ackStep, h]
    split_ifs <;> rfl
  | _ => simp [State.ackStep, h]

/-- In `ACK_IDLE` an acknowledgement is taken for the queue pair it names. -/
theorem ack_lane_step_idle (hidle : s.1.ack.st = .idle) :
    ((lane q s).act (s.1.ackAction q i)).ack = (s.1.step i).ackPhase q := by
  have haway : (lane q s).ack = .away := by simp [lane, State.ackPhase, hidle]
  cases ha : i.ack with
  | none =>
    have hstep : (s.1.step i).ack.st = .idle := by
      simp [State.step, State.ackStep, hidle, ha]
    have hnone : s.1.ackAction q i = none := by simp [State.ackAction, State.ackOp, hidle, ha]
    simp [hnone, haway, State.ackPhase, hstep]
  | some a =>
    have hstep : (s.1.step i).ack.st = .getCaches ∧
        (s.1.step i).ackQp = a.qpNum.setWidth 8 := by
      simp [State.step, State.ackStep, State.ackQp, hidle, ha]
    have htarget : s.1.ackTarget i = a.qpNum.setWidth 8 := by
      simp [State.ackTarget, State.accepts, hidle, ha]
    by_cases hq : (a.qpNum.setWidth 8 : BitVec 8) = q
    · rw [show s.1.ackAction q i = some .accept by
        simp [State.ackAction, htarget, hq, State.ackOp, hidle, ha]]
      simp [haway, State.ackPhase, hstep, hq]
    · rw [show s.1.ackAction q i = none by simp [State.ackAction, htarget, hq]]
      simp [haway, State.ackPhase, hstep, hq]

/-- Later the machine acts for that queue pair. -/
theorem ackAction_of_ne_idle (hidle : s.1.ack.st ≠ .idle) (hq : s.1.ackQp = q) :
    s.1.ackAction q i = s.1.ackOp i := by
  have htarget : s.1.ackTarget i = s.1.ackQp := by simp [State.ackTarget, State.accepts, hidle]
  rw [State.ackAction, htarget, if_pos hq]

/-- The machine works for another queue pair. -/
theorem ack_lane_step_other (hidle : s.1.ack.st ≠ .idle) (hq : s.1.ackQp ≠ q) :
    ((lane q s).act (s.1.ackAction q i)).ack = (s.1.step i).ackPhase q := by
  have hqp := ackQp_step s.1 i hidle
  have htarget : s.1.ackTarget i = s.1.ackQp := by simp [State.ackTarget, State.accepts, hidle]
  rw [show s.1.ackAction q i = none by simp [State.ackAction, htarget, hq]]
  simp [lane, State.ackPhase, hq, hqp]

/-- In `ACK_UPDATE_CQHEAD` the head is reported; the completion is written or not. -/
theorem ack_lane_step_updateCqhead (hst : s.1.ack.st = .updateCqhead) (hq : s.1.ackQp = q) :
    ((lane q s).act (s.1.ackAction q i)).ack = (s.1.step i).ackPhase q := by
  have hphase : (lane q s).ack = s.1.ackPhase q := rfl
  have hqp := ackQp_step s.1 i (by simp [hst])
  rw [ackAction_of_ne_idle (by simp [hst]) hq]
  have hsame : (s.1.step i).ack.sqCDoutb = s.1.ack.sqCDoutb := by
    simp [State.step, State.ackStep, hst]
  cases hb : s.1.ack.sqCDoutb.qpConf[5] with
  | true =>
    have hstep : (s.1.step i).ack.st = .writeCompletion := by
      simp [State.step, State.ackStep, hst, hb]
    simp [State.ackOp, hst, hphase, State.ackPhase, hq, hqp, hstep, hsame]
  | false =>
    have hstep : (s.1.step i).ack.st = .wbFifoCache := by
      simp [State.step, State.ackStep, hst, hb]
    simp [State.ackOp, hst, hphase, State.ackPhase, hq, hqp, hstep, hsame]

/-- `ACK_WRITE_COMPLETION` waits for memory and changes nothing of the entry. -/
theorem ack_lane_step_writeCompletion (hst : s.1.ack.st = .writeCompletion) (hq : s.1.ackQp = q) :
    ((lane q s).act (s.1.ackAction q i)).ack = (s.1.step i).ackPhase q := by
  have hphase : (lane q s).ack = s.1.ackPhase q := rfl
  have hqp := ackQp_step s.1 i (by simp [hst])
  rw [ackAction_of_ne_idle (by simp [hst]) hq]
  cases hc : s.1.completionWritten with
  | true =>
    have hstep : (s.1.step i).ack.st = .wbFifoCache ∧
        (s.1.step i).ack.sqCDoutb = s.1.ack.sqCDoutb := by
      simp [State.step, State.ackStep, hst, hc]
    simp [State.ackOp, hst, hphase, State.ackPhase, hq, hqp, hstep]
  | false =>
    have hstep : (s.1.step i).ack = s.1.ack := by
      simp [State.step, State.ackStep, hst, hc]
    simp [State.ackOp, hst, hphase, State.ackPhase, hq, hqp, hstep]

/-- In `ACK_WB_FIFO_CACHE` an entry that has been worked off loses its producer index. -/
theorem ack_lane_step_wbFifoCache (hst : s.1.ack.st = .wbFifoCache) (hq : s.1.ackQp = q) :
    ((lane q s).act (s.1.ackAction q i)).ack = (s.1.step i).ackPhase q := by
  have hphase : (lane q s).ack = s.1.ackPhase q := rfl
  have hqp := ackQp_step s.1 i (by simp [hst])
  rw [ackAction_of_ne_idle (by simp [hst]) hq]
  have hstep : (s.1.step i).ack.st = .finish := by simp [State.step, State.ackStep, hst]
  have hentry : entryOf (s.1.step i).ack.sqCDoutb =
      if s.1.ack.sqCDoutb.sqProdIdx ≤ s.1.ack.sqCDoutb.cqHeadIdx then
        ⟨0, s.1.ack.sqCDoutb.cqHeadIdx⟩
      else entryOf s.1.ack.sqCDoutb := by
    simp only [State.step, State.ackStep, hst]
    split_ifs <;> rfl
  simp only [State.ackOp, hst, hphase, State.ackPhase, hq, hqp, hstep, hentry, if_true,
    act_some, ack_step, ackAfter]
  rfl

/-- In `ACK_FINISH` the machine is done, unless there is an element left for which the batch FIFO
has no room. -/
theorem ack_lane_step_finish (hst : s.1.ack.st = .finish) (hq : s.1.ackQp = q) :
    ((lane q s).act (s.1.ackAction q i)).ack = (s.1.step i).ackPhase q := by
  have hphase : (lane q s).ack = s.1.ackPhase q := rfl
  have hqp := ackQp_step s.1 i (by simp [hst])
  rw [ackAction_of_ne_idle (by simp [hst]) hq]
  by_cases hstay : s.1.ack.sqCDoutb.sqProdIdx ≠ 0#32 ∧ s.1.sqFifoBatch.readyWr = false
  · have hstep : (s.1.step i).ack = s.1.ack := by
      simp [State.step, State.ackStep, hst, hstay]
    simp [State.ackOp, hst, hphase, State.ackPhase, hq, hqp, hstep, entryOf, hstay]
  · have hstep : (s.1.step i).ack.st = .idle := by
      simp only [State.step, State.ackStep, hst]
      split_ifs <;> simp_all
    simp [State.ackOp, hst, hphase, State.ackPhase, hq, hstep, entryOf, hstay]

/-- **The second machine moves as the lane says.** -/
theorem ack_lane_step :
    ((lane q s).act (s.1.ackAction q i)).ack = (s.1.step i).ackPhase q := by
  by_cases hidle : s.1.ack.st = .idle
  · exact ack_lane_step_idle hidle
  by_cases hq : s.1.ackQp = q
  · have hphase : (lane q s).ack = s.1.ackPhase q := rfl
    have hqp := ackQp_step s.1 i hidle
    cases hst : s.1.ack.st with
    | idle => exact absurd hst hidle
    | getCaches =>
      have hstep : (s.1.step i).ack.st = .readCaches := by
        simp [State.step, State.ackStep, hst]
      have hdoutb := (s.1.readCaches_ackStep i hstep).2.2
      rw [ackAction_of_ne_idle hidle hq]
      simp [State.ackOp, hst, State.ackPhase, hq, hqp, hstep, hdoutb, lane]
    | readCaches =>
      have hstep : (s.1.step i).ack.st = .updateCqhead ∧
          (s.1.step i).ack.sqCDoutb.sqProdIdx = s.1.sqCache.doutb.sqProdIdx ∧
          (s.1.step i).ack.sqCDoutb.cqHeadIdx = s.1.sqCache.doutb.cqHeadIdx + 1 := by
        simp [State.step, State.ackStep, hst]
      rw [ackAction_of_ne_idle hidle hq]
      simp [State.ackOp, hst, hphase, State.ackPhase, hq, hqp, hstep, entryOf]
    | updateCqhead => exact ack_lane_step_updateCqhead hst hq
    | writeCompletion => exact ack_lane_step_writeCompletion hst hq
    | wbFifoCache => exact ack_lane_step_wbFifoCache hst hq
    | finish => exact ack_lane_step_finish hst hq
  · exact ack_lane_step_other hidle hq

end Ack

/-! ## The lists, the entry and the ledger -/

section Parts

variable {q : BitVec 8} {s : State × Ledger} {i : Input}

/-- The doorbell that is captured. -/
def State.captured (i : Input) : SQdata where
  sqIdx := i.qpIdx
  cqBaseAddr := i.cqBa
  sqBaseAddr := i.sqBa
  sqProdIdx := i.sqPi
  cqHeadIdx := i.cqHead
  qpConf := i.qpConf

/-- Doorbells join at the end and are taken at the front. -/
theorem waiting_step {t : State} (hroom : Room t) (i : Input) :
    (t.step i).waiting =
      (if t.sqFifoRd then t.waiting.tail else t.waiting) ++
        (if t.sqFifoIf.st = .idle ∧ i.sqUpdated ∧ t.sqFifo.readyWr then [State.captured i]
          else []) := by
  have hcontents : (t.step i).sqFifo.contents =
      (if t.sqFifoRd then t.sqFifo.contents.tail else t.sqFifo.contents) ++
        (if t.sqFifoWr && !t.sqFifo.isFull then [t.sqFifoIf.input] else []) :=
    Fifo.contents_step _ _ _ _
  have hne : t.sqFifoRd = true → t.sqFifo.contents ≠ [] := by
    intro hrd
    simp only [State.sqFifoRd, Bool.and_eq_true] at hrd
    exact (Fifo.readyRd_iff _).mp hrd.2
  cases hst : t.sqFifoIf.st with
  | idle =>
    have hif : (t.step i).sqFifoIf =
        if i.sqUpdated && t.sqFifo.readyWr then ⟨.valid, State.captured i⟩ else t.sqFifoIf := by
      simp only [State.step, State.sqFifoStep, hst]
      rfl
    simp only [State.waiting, hcontents, hif, State.sqFifoWr, hst]
    cases i.sqUpdated <;> cases t.sqFifo.readyWr <;> cases t.sqFifoRd <;> simp [hst]
  | valid =>
    -- the captured doorbell moves into the FIFO, and so stays the last one
    have hif : (t.step i).sqFifoIf.st = .idle := by simp [State.step, State.sqFifoStep, hst]
    have hfull : t.sqFifo.isFull = false := by simpa [Fifo.readyWr] using hroom hst
    simp only [State.waiting, hcontents, hif, State.sqFifoWr, hst, hfull]
    cases hrd : t.sqFifoRd with
    | false => simp
    | true => simp [List.tail_append_of_ne_nil (hne hrd)]

/-- The doorbells of `q` that wait: the first one is taken, and the one that is rung is put last
if it is captured. -/
theorem Sound.rung_lane_step (h : Sound s) :
    (((lane q s).act (s.1.sqAction q i)).act (s.1.bellAction q i)).rung =
      entriesOf q (s.1.step i).waiting := by
  rw [waiting_step h.room, entriesOf_append]
  have htaken : ((lane q s).act (s.1.sqAction q i)).rung =
      entriesOf q (if s.1.sqFifoRd then s.1.waiting.tail else s.1.waiting) := by
    cases hrd : s.1.sqFifoRd with
    | false =>
      refine rung_act _ (fun htake => ?_) (fun e kept hring => ?_)
      · rw [sqAction_eq_take_iff, hrd] at htake
        cases htake.1
      · have := actor_sqAction q s.1 i _ hring
        cases this
    | true =>
      have hready := hrd
      simp only [State.sqFifoRd, Bool.and_eq_true, beq_iff_eq] at hready
      have hcons : s.1.waiting = s.1.sqFifo.dataOut :: s.1.waiting.tail := by
        rw [State.waiting, Fifo.contents_eq_cons _ hready.2]
        rfl
      have haway : (lane q s).sq = .away := by simp [lane, State.sqPhase, hready.1]
      have hrung : (lane q s).rung = entriesOf q s.1.waiting := rfl
      by_cases hq : s.1.sqFifo.dataOut.sqIdx = q
      · rw [(sqAction_eq_take_iff q s.1 i).mpr ⟨hrd, hq⟩]
        simp only [act_some, rung_step, rungAfter, haway, if_true, hrung]
        rw [hcons, entriesOf_cons, if_pos hq]
        rfl
      · rw [rung_act _ (fun htake => ?_) (fun e kept hring => ?_), hrung]
        · simp only [if_true]
          rw [hcons, entriesOf_cons, if_neg hq, List.tail_cons]
        · rw [sqAction_eq_take_iff] at htake
          exact hq htake.2
        · have := actor_sqAction q s.1 i _ hring
          cases this
  rw [← htaken]
  -- then the doorbell of this cycle
  by_cases hring : i.sqUpdated ∧ i.qpIdx = q
  · have hbell : s.1.bellAction q i =
        some (.ring ⟨i.sqPi, i.cqHead⟩ (s.1.sqFifoIf.st == .idle && s.1.sqFifo.readyWr)) :=
      if_pos hring
    rw [hbell]
    simp only [act_some, rung_step, rungAfter, Bool.and_eq_true, beq_iff_eq, hring.1, true_and]
    split_ifs with hkept
    · simp [entriesOf_cons, State.captured, entryOf, hring.2]
    · simp
  · have hbell : s.1.bellAction q i = none := if_neg hring
    rw [hbell, act_none]
    by_cases hup : i.sqUpdated = true
    · have hq : i.qpIdx ≠ q := fun hq => hring ⟨hup, hq⟩
      split_ifs <;> simp [entriesOf_cons, State.captured, hq]
    · simp [hup]

/-- The elements fetched are those of the ledger. -/
theorem Sound.fetched_lane_step (h : Sound s) :
    ((lane q s).act (s.1.sqAction q i)).fetched = (note s.2 s.1 i).fetched q := by
  by_cases hfetch : s.1.ar.st = .calcAddr ∧ s.1.sq.output.sqIdx = q
  · obtain ⟨har, hq⟩ := hfetch
    have hst := (h.coupled.fetching (by simp [har])).1
    have hidx := h.indexed (by simp [hst, SqState.working])
    rw [(sqAction_eq_fetch_iff q s.1 i).mpr ⟨hst, har, hq⟩]
    simp [lane, State.sqPhase, hst, hq, har, note, hidx, entryOf]
  · rw [fetched_act]
    · simp [lane, note, hfetch]
    · exact fun hop => hfetch ((sqAction_eq_fetch_iff q s.1 i).mp hop).2

/-- The element that is issued is the one in the hands of the first machine. -/
theorem Sound.busy_of_issues (h : Sound s) (hissue : s.1.issues i = true)
    (hq : s.1.sq.output.sqIdx = q) :
    (lane q s).sq = .busy (entryOf s.1.sq.output) ∧
      s.1.sq.localidx = (entryOf s.1.sq.output).head := by
  simp only [State.issues, Bool.and_eq_true, beq_iff_eq] at hissue
  refine ⟨by simp [lane, State.sqPhase, hq, hissue.1.1], ?_⟩
  exact h.indexed (by simp [hissue.1.1, SqState.working])

/-- The elements issued are those of the ledger. -/
theorem Sound.issued_lane_step (h : Sound s) :
    ((lane q s).act (s.1.sqAction q i)).issued = (note s.2 s.1 i).issued q := by
  by_cases hissue : s.1.issues i = true ∧ s.1.sq.output.sqIdx = q
  · obtain ⟨hbusy, hidx⟩ := h.busy_of_issues hissue.1 hissue.2
    rw [(sqAction_eq_issue_iff q s.1 i).mpr hissue]
    simp [hbusy, note, hissue, hidx]
    rfl
  · rw [issued_act]
    · simp [lane, note, hissue]
    · exact fun hop => hissue ((sqAction_eq_issue_iff q s.1 i).mp hop)

/-- The elements that wait for an acknowledgement are counted up by the first machine and down by
the second one.  Both may happen at one edge. -/
theorem Sound.unacked_lane_step (h : Sound s) :
    (((lane q s).act (s.1.sqAction q i)).act (s.1.ackAction q i)).unacked =
      (note s.2 s.1 i).unacked q := by
  have hissued : ((lane q s).act (s.1.sqAction q i)).unacked =
      s.2.unacked q + if s.1.issues i ∧ s.1.sq.output.sqIdx = q then 1 else 0 := by
    by_cases hissue : s.1.issues i = true ∧ s.1.sq.output.sqIdx = q
    · obtain ⟨hbusy, -⟩ := h.busy_of_issues hissue.1 hissue.2
      rw [(sqAction_eq_issue_iff q s.1 i).mpr hissue, if_pos hissue]
      simp [hbusy]
      rfl
    · rw [unacked_act, if_neg hissue]
      · rfl
      · exact fun hop => hissue ((sqAction_eq_issue_iff q s.1 i).mp hop)
      · intro hop
        have := actor_sqAction q s.1 i _ hop
        cases this
  have hsame := ack_act (lane q s) (o := s.1.sqAction q i) fun a ha => by
    rw [actor_sqAction q s.1 i a ha]
    nofun
  by_cases haccept : s.1.accepts i = some q
  · have haway : (lane q s).ack = .away := by
      have hidle : s.1.ack.st = .idle := by
        by_contra hne
        simp [State.accepts, hne] at haccept
      simp [lane, State.ackPhase, hidle]
    rw [(ackAction_eq_accept_iff q s.1 i).mpr haccept]
    simp [hsame, haway, hissued, note, haccept]
  · rw [unacked_act, hissued]
    · simp [note, haccept]
    · intro hop
      have := actor_ackAction q s.1 i _ hop
      cases this
    · exact fun hop => haccept ((ackAction_eq_accept_iff q s.1 i).mp hop)

/-- The first machine takes an entry from the batch list. -/
theorem batch_lane_sqAction :
    ((lane q s).act (s.1.sqAction q i)).batch =
      entriesOf q (if s.1.sqFifoBatchRd then s.1.sqFifoBatch.contents.tail
        else s.1.sqFifoBatch.contents) := by
  have hb : (lane q s).batch = entriesOf q s.1.sqFifoBatch.contents := rfl
  cases hrd : s.1.sqFifoBatchRd with
  | false =>
    rw [batch_act _ (fun htake => ?_) (fun _ => sqAction_ne_ack _ nofun)]
    · exact hb
    · rw [sqAction_eq_takeBatch_iff, hrd] at htake
      cases htake.1
  | true =>
    have hready := hrd
    simp only [State.sqFifoBatchRd, Bool.and_eq_true, beq_iff_eq] at hready
    have haway : (lane q s).sq = .away := by simp [lane, State.sqPhase, hready.1.1]
    have hread := entriesOf_read q s.1.sqFifoBatch hready.2
    by_cases hq : s.1.sqFifoBatch.dataOut.sqIdx = q
    · rw [(sqAction_eq_takeBatch_iff q s.1 i).mpr ⟨hrd, hq⟩]
      simp [haway, hb, hread, hq]
    · rw [batch_act _ (fun htake => ?_) (fun _ => sqAction_ne_ack _ nofun), hb, hread]
      · simp [hq]
      · rw [sqAction_eq_takeBatch_iff] at htake
        exact hq htake.2

/-- The second machine puts on the batch list the entry of its acknowledgement. -/
theorem Sound.batch_lane_step (h : Sound s) :
    (((lane q s).act (s.1.sqAction q i)).act (s.1.ackAction q i)).batch =
      entriesOf q (s.1.step i).sqFifoBatch.contents := by
  have hcontents : (s.1.step i).sqFifoBatch.contents =
      (if s.1.sqFifoBatchRd then s.1.sqFifoBatch.contents.tail else s.1.sqFifoBatch.contents) ++
        (if s.1.sqFifoBatchWr && !s.1.sqFifoBatch.isFull then [s.1.ack.sqCDoutb] else []) :=
    Fifo.contents_step _ _ _ _
  have hwr : (s.1.sqFifoBatchWr && !s.1.sqFifoBatch.isFull) = true ↔
      s.1.ack.st = .finish ∧ s.1.ack.sqCDoutb.sqProdIdx ≠ 0#32 ∧
        s.1.sqFifoBatch.readyWr = true := by
    simp [State.sqFifoBatchWr, Fifo.readyWr, and_assoc]
  have hphase : s.1.ack.st = .finish → s.1.ackQp = q →
      ((lane q s).act (s.1.sqAction q i)).ack = .finish (entryOf s.1.ack.sqCDoutb) := by
    intro hfin hq
    rw [ack_act _ fun a ha => by rw [actor_sqAction q s.1 i a ha]; rintro ⟨⟩]
    simp [lane, State.ackPhase, hfin, hq]
  rw [hcontents, entriesOf_append, ← batch_lane_sqAction (i := i)]
  by_cases hq : s.1.ack.st = .finish ∧ s.1.ackQp = q
  · obtain ⟨hfin, hq⟩ := hq
    rw [(ackAction_eq_finish_iff q s.1 i s.1.sqFifoBatch.readyWr).mpr ⟨hfin, hq, rfl⟩]
    simp only [act_some, batch_step, batchAfter, hphase hfin hq]
    by_cases hpush : s.1.ack.sqCDoutb.sqProdIdx ≠ 0#32 ∧ s.1.sqFifoBatch.readyWr = true
    · have hidx := h.numbered.latched (by simp [hfin, AckState.latched]) hpush.1
      rw [if_pos (hwr.mpr ⟨hfin, hpush⟩),
        if_pos (show (entryOf s.1.ack.sqCDoutb).prod ≠ 0#32 ∧ _ from hpush)]
      simp [entriesOf_cons, hidx, hq]
    · rw [if_neg fun hc => hpush (hwr.mp hc).2,
        if_neg (show ¬ ((entryOf s.1.ack.sqCDoutb).prod ≠ 0#32 ∧ _) from hpush)]
      simp
  · rw [batch_act _ (ackAction_ne_sq _ (by rintro ⟨⟩)) fun room hop => hq ?_]
    · split_ifs with hpush
      · obtain ⟨hfin, hprod, -⟩ := hwr.mp hpush
        have hidx := h.numbered.latched (by simp [hfin, AckState.latched]) hprod
        have hne : s.1.ackQp ≠ q := fun heq => hq ⟨hfin, heq⟩
        simp [entriesOf_cons, hidx, hne]
      · simp
    · obtain ⟨hfin, heq, -⟩ := (ackAction_eq_finish_iff q s.1 i room).mp hop
      exact ⟨hfin, heq⟩

/-- The last producer index is the one of the last doorbell, captured or not. -/
theorem lastPi_lane_step :
    ((lane q s).act (s.1.bellAction q i)).lastPi = (note s.2 s.1 i).lastPi q := by
  by_cases hring : i.sqUpdated ∧ i.qpIdx = q
  · simp [State.bellAction, hring, note]
  · simp [State.bellAction, hring, note, lane]

/-- The entry of `q`, under the write-backs of the two machines. -/
theorem cache_lane_step :
    entryOf ((s.1.step i).sqCache.ram q) =
      if s.1.ack.st = .finish ∧ s.1.ackQp = q ∧
          ¬ (s.1.sq.st = .checkQueueBusy ∧ s.1.sq.output.sqIdx = q ∧ i.bLast = false) then
        entryOf s.1.ack.sqCDoutb
      else if s.1.sq.st = .checkQueueBusy ∧ s.1.sq.output.sqIdx = q then entryOf s.1.sq.output
      else (lane q s).cache := by
  have hram : (s.1.step i).sqCache.ram q =
      (s.1.sqCache.step s.1.sqCacheA s.1.sqCacheB i.bLast).ram q := rfl
  by_cases ha : s.1.sqCacheA.writes q = true <;> by_cases hb : s.1.sqCacheB.writes q = true
  · -- both ports write the entry, and `bLast` says which of the two writes stays
    rw [hram, Bram.ram_step_of_writes_both _ _ ha hb]
    rw [State.writes_sqCacheA] at ha
    rw [State.writes_sqCacheB] at hb
    cases i.bLast <;> simp [ha, hb, State.sqCacheA, State.sqCacheB]
  · rw [hram, Bram.ram_step_of_writes_a _ _ ha (Bool.eq_false_iff.mpr hb)]
    rw [State.writes_sqCacheA] at ha
    rw [State.writes_sqCacheB] at hb
    rw [if_neg (fun hf => hb ⟨hf.1, hf.2.1⟩), if_pos ha]
    rfl
  · rw [hram, Bram.ram_step_of_writes_b _ _ (Bool.eq_false_iff.mpr ha) hb]
    rw [State.writes_sqCacheA] at ha
    rw [State.writes_sqCacheB] at hb
    rw [if_pos ⟨hb.1, hb.2, fun hc => ha ⟨hc.1, hc.2.1⟩⟩]
    rfl
  · rw [hram, Bram.ram_step_of_not_writes _ _ (Bool.eq_false_iff.mpr ha) (Bool.eq_false_iff.mpr hb)]
    rw [State.writes_sqCacheA] at ha
    rw [State.writes_sqCacheB] at hb
    rw [if_neg (fun hf => hb ⟨hf.1, hf.2.1⟩), if_neg ha]
    rfl

end Parts

end WqManager
end RecoNIC
