import RecoNIC.Compute.CommandQueue
import RecoNIC.Compute.ControlCommand
import RecoNIC.Compute.Dispatch
import RecoNIC.Compute.KernelStatus
import RecoNIC.Compute.MatrixProduct
import Mathlib.Data.List.TakeWhile

/-!
# The accelerator as a whole

`compute_logic_wrapper` with everything in it: the write interface and the command FIFO, the
two kernels under their two machines, memory, the status FIFO and the read interface.  There
are two clocks.  The host writes commands and reads registers with one of them, and with the
other `cl_box` takes words out of the command FIFO and `mmult` works on memory and writes work
IDs into the status FIFO, each at a pace of its own.

The parts are those of the modules imported here.  What is new is that they meet: `cl_box`
puts out what `parse_ctl_cmd` makes of the words it has read in its present run, and `mmult`
does its job on the arguments in the registers.  It stores the words of its result over as many
cycles as it likes, and when all of them are in memory it writes its work ID.

All of this is a sequential program in disguise (`carriedOut_run`): the commands of the host are
carried out one after the other, in order and none twice, and the host reads their work IDs in
the same order.  Memory is what the commands leave that have been carried out, and the first
words of the result of the one that is under way.
-/

namespace RecoNIC
namespace Accelerator

open Synchronous
open ControlCommand (CtlCmd CtlArgs parseCtlCmd driverCmdSize)
open Dispatch (ClBoxOut MmultArgs KernelState)
open Mmult (Mem LocalArray Job Effect)
open CommandPort (commandQueue commands delivered)

/-! ## The parts -/

/-- What the design takes from elsewhere: the two FIFOs with their data counts, and what the
arrays of `mmult` hold before they are written. -/
structure Parts where
  ctlCmdAfifo : AsyncFifo (BitVec 32)
  kerStatusAfifo : AsyncFifo (BitVec 32)
  wrDataCount : ctlCmdAfifo.State → BitVec 32
  rdDataCount : kerStatusAfifo.State → BitVec 32
  beyond : LocalArray
  localC : LocalArray

variable (P : Parts)

/-- The registers of the wrapper, and the kernels.  `words` are those that `cl_box` has read in
its present run, and `rest` is what `mmult` has still to do in its present run. -/
structure System where
  cmd : CommandPort.Queue P.ctlCmdAfifo
  status : KernelStatus.Status P.kerStatusAfifo
  dispatch : Dispatch.System
  words : List (BitVec 32)
  rest : List Effect
  mem : Mem

/-- The arguments that `cl_box` puts out in a cycle. -/
structure Valid where
  aBaseaddr : Bool
  bBaseaddr : Bool
  cBaseaddr : Bool
  aRow : Bool
  aCol : Bool
  bCol : Bool
  workId : Bool
  deriving DecidableEq

/-- What the kernels would do in a cycle in which they work: read a word, put out arguments,
end the run; store so many words, write the work ID, end the run. -/
structure Kernels where
  clBoxReads : Bool
  vld : Valid
  clBoxLast : Bool
  mmultStores : Nat
  mmultWrites : Bool
  mmultLast : Bool
  deriving DecidableEq

/-- An edge of the clock of the bus, or of the clock of the kernels. -/
inductive Edge where
  | axil (wr : CommandPort.Bus) (rd : KernelStatus.Bus)
  | axis (k : Kernels)

/-- `JOB_SUBMITTED`. -/
def jobSubmitted : BitVec 12 := 0x008

/-- `JOB_COMPLETED_NOT_READ`. -/
def jobCompletedNotRead : BitVec 12 := 0x00C

/-- The arguments of a parsed command, as `cl_box` puts them out. -/
def full (a : CtlArgs) : ClBoxOut :=
  ⟨some a.aBaseaddr, some a.bBaseaddr, some a.cBaseaddr, some a.aRow, some a.aCol, some a.bCol,
    some a.workId⟩

/-- Those of them that are valid in a cycle. -/
def Valid.select (v : Valid) (a : CtlArgs) : ClBoxOut where
  aBaseaddr := if v.aBaseaddr then some a.aBaseaddr else none
  bBaseaddr := if v.bBaseaddr then some a.bBaseaddr else none
  cBaseaddr := if v.cBaseaddr then some a.cBaseaddr else none
  aRow := if v.aRow then some a.aRow else none
  aCol := if v.aCol then some a.aCol else none
  bCol := if v.bCol then some a.bCol else none
  workId := if v.workId then some a.workId else none

/-- What `parse_ctl_cmd` makes of some words; `none` while it waits for more. -/
def parsed (ws : List (BitVec 32)) : Option CtlArgs :=
  match parseCtlCmd ws with
  | .waiting _ => none
  | .returned args _ _ => some args

/-- The registers `*_reg` that hold a parsed command. -/
def mmultArgs (a : CtlArgs) : MmultArgs :=
  ⟨0#32 ++ a.aBaseaddr, 0#32 ++ a.bBaseaddr, 0#32 ++ a.cBaseaddr, a.aRow, a.aCol, a.bCol, a.workId⟩

/-- The job of `mmult`.  An address of bytes names the word it lies in. -/
def job (r : MmultArgs) : Job :=
  ⟨r.a.toNat / 4, r.b.toNat / 4, r.c.toNat / 4, ⟨r.aRow, r.aCol, r.bCol⟩⟩

/-- What `mmult` does on the arguments in its registers. -/
def Parts.effects (r : MmultArgs) (mem : Mem) : List Effect :=
  Mmult.mmult P.beyond P.localC mem (job r).a (job r).b (job r).c (job r).sizes r.workId

/-! ## One edge -/

variable {P}

namespace System

variable (s : System P) (k : Kernels)

/-- What the addresses other than `KER_STS` answer. -/
def others (addr : BitVec 12) : BitVec 32 :=
  if addr = jobSubmitted then P.wrDataCount s.cmd.fifo
  else if addr = jobCompletedNotRead then P.rdDataCount s.status.fifo
  else if addr = CommandPort.templateRegAddr then s.cmd.port.templateReg
  else KernelStatus.defaultValue

/-- The words `cl_box` has read before this cycle in its present run. -/
def clBoxWords : List (BitVec 32) := if s.dispatch.clBox.running then s.words else []

/-- `ctl_cmd_fifo_rd_en`: `parse_ctl_cmd` waits for a word. -/
def rdEn : Bool :=
  s.dispatch.clBox.active s.dispatch.clBoxStart && (parsed s.clBoxWords).isNone && k.clBoxReads

/-- The words it has read at the end of this cycle. -/
def wordsNow : List (BitVec 32) :=
  s.clBoxWords ++ P.ctlCmdAfifo.taken s.cmd.fifo (s.rdEn k)

/-- What `cl_box` would put out. -/
def out : ClBoxOut := (parsed (s.wordsNow k)).elim ClBoxOut.none k.vld.select

/-- `mmult` works in this cycle. -/
def mmultActive : Bool := s.dispatch.mmult.active s.dispatch.apStart

/-- What `mmult` has still to do before this cycle. -/
def todo : List Effect :=
  if s.dispatch.mmult.running then s.rest else P.effects s.dispatch.args s.mem

/-- The words that `writeC` stores in this cycle. -/
def stores : List Effect :=
  if s.mmultActive then (s.todo.takeWhile (·.id?.isNone)).take k.mmultStores else []

/-- The work ID that comes next. -/
def nextId : Option (BitVec 32) := (s.todo.drop (s.stores k).length).head?.bind Effect.id?

/-- `ker_status_fifo_wr_en`: a write to a stream waits for room. -/
def wrEn : Bool :=
  s.mmultActive && (s.nextId k).isSome && k.mmultWrites &&
    (!P.kerStatusAfifo.full s.status.fifo && !P.kerStatusAfifo.wrRstBusy s.status.fifo)

/-- The work ID that is written, if there is one. -/
def workId : BitVec 32 := (s.nextId k).getD 0

/-- What `mmult` does in this cycle. -/
def doneNow : List Effect := s.stores k ++ if s.wrEn k then [.workId (s.workId k)] else []

/-- What it has to do behind this cycle. -/
def todoNow : List Effect := s.todo.drop (s.doneNow k).length

/-- What the two machines see of the FIFO and the kernels.  A run of `mmult` ends when nothing
is left to do. -/
def input : Dispatch.Input :=
  ⟨P.ctlCmdAfifo.empty s.cmd.fifo, s.out k, k.clBoxLast, k.mmultLast && (s.todoNow k).isEmpty⟩

/-- One edge. -/
def step : Edge → System P
  | .axil wr rd =>
    { s with
      cmd := s.cmd.step (.axil wr)
      status := s.status.bus s.others rd }
  | .axis k =>
    { cmd := s.cmd.step (.axis (s.rdEn k))
      status := s.status.kernel (s.wrEn k) (s.workId k)
      dispatch := s.dispatch.step (s.input k)
      words := s.wordsNow k
      rest := s.todoNow k
      mem := Mmult.after s.mem (s.doneNow k) }

/-- The edge, as the command queue sees it. -/
def cmdEdge : Edge → CommandPort.Edge
  | .axil wr _ => .axil wr
  | .axis k => .axis (s.rdEn k)

end System

variable (P) in
/-- After reset, with some contents of memory. -/
def System.reset (mem : Mem) : System P :=
  ⟨⟨CommandPort.Regs.reset, P.ctlCmdAfifo.reset⟩,
    ⟨KernelStatus.Regs.reset, P.kerStatusAfifo.reset⟩, Dispatch.System.reset, [], [], mem⟩

/-- What has happened: what has passed the bus and the command FIFO, the work IDs that the
status FIFO has accepted, and the answers the host has read, with their addresses.  `araddr` is
the register of that name. -/
structure Ledger where
  passed : CommandPort.Passed
  completed : List (BitVec 32)
  araddr : BitVec 12
  answers : List (BitVec 12 × BitVec 32)

/-- What one edge adds. -/
def Ledger.note (l : Ledger) (s : System P) (e : Edge) : Ledger :=
  match e with
  | .axil _ rd =>
    { l with
      passed := l.passed.note s.cmd (s.cmdEdge e)
      araddr := if s.status.port.arready && rd.arvalid then rd.araddr else l.araddr
      answers := l.answers ++
        if s.status.port.rvalid && rd.rready then [(l.araddr, s.status.port.rdata)] else [] }
  | .axis k =>
    { l with
      passed := l.passed.note s.cmd (s.cmdEdge e)
      completed := l.completed ++ if s.wrEn k then [s.workId k] else [] }

variable (P) in
/-- The accelerator with its ledger. -/
def accelerator (mem : Mem) : Machine (System P × Ledger) Edge :=
  Machine.watch ⟨System.reset P mem, System.step⟩ ⟨⟨[], [], none, none, []⟩, [], 0, []⟩ Ledger.note

/-- The command queue and what has passed it. -/
def queue (x : System P × Ledger) : CommandPort.Queue P.ctlCmdAfifo × CommandPort.Passed :=
  (x.1.cmd, x.2.passed)

theorem queue_step (mem : Mem) (x : System P × Ledger) (e : Edge) :
    queue ((accelerator P mem).step x e) =
      (commandQueue P.ctlCmdAfifo).step (queue x) (x.1.cmdEdge e) := by
  cases e <;> rfl

/-! ## What has been carried out -/

/-- The job of a command. -/
def jobOf (c : CtlCmd) : Job := job (mmultArgs c.args)

/-- The work ID of a command, as `mmult` writes it. -/
def idOf (c : CtlCmd) : BitVec 32 := c.workId.setWidth 32

/-- A command of the size of the driver, with columns that fit the arrays of `mmult`. -/
structure Fits (c : CtlCmd) : Prop where
  size : c.ctlCmdSize = driverCmdSize
  low : 1 ≤ c.aCol
  high : c.aCol ≤ 16

/-- Memory after some commands, one after the other. -/
def memAfter (mem : Mem) (cs : List CtlCmd) : Mem :=
  cs.foldl (fun mem c => (jobOf c).multiply mem) mem

/-- The work IDs among the answers. -/
def reported (answers : List (BitVec 12 × BitVec 32)) : List (BitVec 32) :=
  (answers.filter fun r => r.1 = KernelStatus.kerSts ∧ r.2 ≠ KernelStatus.defaultValue).map Prod.snd

/-- The host has written the words of these commands so far. -/
def Issues (cmds : List CtlCmd) (x : System P × Ledger) : Prop :=
  commands x.2.passed.writes <+: cmds.flatMap CtlCmd.words

/-- The next command is under way: the first `n` words of its result have been stored. -/
structure Storing (mem : Mem) (cmds done : List CtlCmd) (c : CtlCmd) (n : Nat)
    (x : System P × Ledger) : Prop where
  next : done ++ [c] <+: cmds
  issued : (done ++ [c]).flatMap CtlCmd.words <+: commands x.2.passed.writes
  words : n ≤ Mmult.maxSize * Mmult.maxSize
  mem : x.1.mem = (jobOf c).storing n (memAfter mem done)

/-- **Carried out.**  The commands `done` have been: each word of theirs has been written,
memory is what they leave one after the other, but for the result of the command under way,
their work IDs have been accepted, and the host has been told the first of these. -/
structure CarriedOut (mem : Mem) (cmds done : List CtlCmd) (x : System P × Ledger) : Prop where
  issued : done.flatMap CtlCmd.words <+: commands x.2.passed.writes
  mem : x.1.mem = memAfter mem done ∨ ∃ c n, Storing mem cmds done c n x
  completed : x.2.completed = done.map idOf
  told : reported x.2.answers <+: done.map idOf

/-! ## What `cl_box` puts out -/

/-- Nothing has been put out that `w` does not say. -/
def Within (o w : ClBoxOut) : Prop := o.after w = w

/-- The arguments that words give. -/
def wanted (ws : List (BitVec 32)) : ClBoxOut := (parsed ws).elim ClBoxOut.none full

section Output

variable {o p w : ClBoxOut}

theorem after_none (o : ClBoxOut) : o.after ClBoxOut.none = o := by
  simp only [ClBoxOut.after, ClBoxOut.none, Option.or_none]

theorem Within.none (w : ClBoxOut) : Within ClBoxOut.none w := rfl

theorem Within.after (ho : Within o w) (hp : Within p w) : Within (o.after p) w := by
  have hassoc : (o.after p).after w = o.after (p.after w) := by
    simp only [ClBoxOut.after, Option.or_assoc]
  rw [Within, hassoc, hp, ho]

/-- Where nothing is to be put out, nothing has been. -/
theorem Within.eq_none (h : Within o ClBoxOut.none) : o = ClBoxOut.none :=
  (after_none o).symm.trans h

theorem within_select (v : Valid) (a : CtlArgs) : Within (v.select a) (full a) := by
  have hor (b : Bool) (x : BitVec 32) : (if b then some x else none).or (some x) = some x := by
    cases b <;> rfl
  simp only [Within, ClBoxOut.after, Valid.select, full, hor]

/-- What says everything and nothing else is the parsed command. -/
theorem Within.args_full {a : CtlArgs} {r : MmultArgs} (h : Within o (full a))
    (hr : o.args = some r) : r = mmultArgs a := by
  have hall (x : Option (BitVec 32)) (y z : BitVec 32) (hx : x = some y)
      (hor : x.or (some z) = some z) : y = z := by
    rw [hx] at hor
    exact Option.some.inj hor
  simp only [ClBoxOut.args, Option.bind_eq_bind, Option.bind_eq_some_iff, Option.pure_def,
    Option.some.injEq] at hr
  obtain ⟨v₁, h₁, v₂, h₂, v₃, h₃, v₄, h₄, v₅, h₅, v₆, h₆, v₇, h₇, rfl⟩ := hr
  simp only [Within, ClBoxOut.after, full, ClBoxOut.mk.injEq] at h
  obtain ⟨e₁, e₂, e₃, e₄, e₅, e₆, e₇⟩ := h
  rw [mmultArgs, hall _ _ _ h₁ e₁, hall _ _ _ h₂ e₂, hall _ _ _ h₃ e₃, hall _ _ _ h₄ e₄,
    hall _ _ _ h₅ e₅, hall _ _ _ h₆ e₆, hall _ _ _ h₇ e₇]

end Output

section Parsed

variable {cmds : List CtlCmd} {ws : List (BitVec 32)}

theorem parsed_words {c : CtlCmd} (hc : Fits c) : parsed c.words = some c.args := by
  have hwords := ControlCommand.parse_words hc.size []
  rw [List.append_nil] at hwords
  rw [parsed, hwords]

/-- Fewer words than a command are not parsed. -/
theorem parsed_of_length_lt {c : CtlCmd} (hc : Fits c) (hws : ws <+: c.words)
    (hlen : ws.length < 6) : parsed ws = none := by
  cases ws with
  | nil => rfl
  | cons w ws =>
    have hw : w = driverCmdSize := (List.cons_prefix_cons.mp hws).1.trans hc.size
    have hshort : ws.length ≤ (driverCmdSize - 2).toNat := by
      rw [List.length_cons] at hlen
      show ws.length ≤ 4
      omega
    obtain ⟨stored, hstored⟩ := ControlCommand.parse_waiting (by decide) hshort
    rw [parsed, hw, hstored]

/-- Words from the front of the stream, up to the length of a command: too few, or the first
command. -/
theorem parsed_of_prefix (hfits : ∀ c ∈ cmds, Fits c) (hws : ws <+: cmds.flatMap CtlCmd.words)
    (hlen : ws.length ≤ 6) :
    parsed ws = none ∧ ws.length < 6 ∨
      ∃ c rest, cmds = c :: rest ∧ ws = c.words ∧ parsed ws = some c.args := by
  cases cmds with
  | nil =>
    rw [List.prefix_nil.mp hws]
    exact Or.inl ⟨rfl, by decide⟩
  | cons c rest =>
    have hc := hfits c List.mem_cons_self
    have hpre : ws <+: c.words :=
      List.prefix_of_prefix_length_le hws (List.prefix_append _ _) hlen
    rcases Nat.lt_or_eq_of_le hlen with hlt | heq
    · exact Or.inl ⟨parsed_of_length_lt hc hpre hlt, hlt⟩
    · have hall : ws = c.words := hpre.eq_of_length heq
      exact Or.inr ⟨c, rest, rfl, hall, hall ▸ parsed_words hc⟩

end Parsed

/-! ## The kernels carry out the commands -/

/-- The kernels have carried out `done`, whether or not the host knows. -/
structure Finished (mem : Mem) (done : List CtlCmd) (x : System P × Ledger) : Prop where
  mem : x.1.mem = memAfter mem done
  completed : x.2.completed = done.map idOf

/-- `mmult` is at the command `c`, behind `done`: it has done what is in `past`, and what is in
`todo` is left. -/
structure AtWork (mem : Mem) (done : List CtlCmd) (c : CtlCmd) (past todo : List Effect)
    (x : System P × Ledger) : Prop where
  args : x.1.dispatch.args = mmultArgs c.args
  effects : P.effects (mmultArgs c.args) (memAfter mem done) = past ++ todo
  mem : x.1.mem = Mmult.after (memAfter mem done) past
  completed : x.2.completed = (if todo = [] then done ++ [c] else done).map idOf

/-- Where the kernels are in the stream of commands, by the state of the first machine. -/
def Proceeds (mem : Mem) (cmds : List CtlCmd) (x : System P × Ledger) : Prop :=
  match x.1.dispatch.kernelState with
  | .clIdle => ∃ done, done <+: cmds ∧ Finished mem done x ∧
      x.2.passed.read = done.flatMap CtlCmd.words
  | .clBoxActive => ∃ done, done <+: cmds ∧ Finished mem done x ∧
      x.2.passed.read = done.flatMap CtlCmd.words ++ x.1.clBoxWords ∧
      x.1.clBoxWords.length ≤ 6 ∧
      (x.1.dispatch.clBox.running = true → Within x.1.dispatch.produced (wanted x.1.words))
  | .clKernelActive => ∃ done c past, done ++ [c] <+: cmds ∧
      AtWork mem done c past x.1.todo x ∧
      x.2.passed.read = (done ++ [c]).flatMap CtlCmd.words

theorem memAfter_concat (mem : Mem) (done : List CtlCmd) (c : CtlCmd) :
    memAfter mem (done ++ [c]) = (jobOf c).multiply (memAfter mem done) := by
  rw [memAfter, List.foldl_append]
  rfl

/-! ### The multiplication -/

theorem Parts.emits (P : Parts) (c : CtlCmd) (mem : Mem) :
    Mmult.Emits (idOf c) (P.effects (mmultArgs c.args) mem) :=
  Mmult.emits_mmult P.beyond P.localC mem (jobOf c) _

/-- The inner size of a command of the driver. -/
theorem Fits.aCol_toInt {c : CtlCmd} (hc : Fits c) :
    1 ≤ (jobOf c).sizes.aCol.toInt ∧ (jobOf c).sizes.aCol.toInt ≤ 16 := by
  have hcol : (jobOf c).sizes.aCol.toInt = c.aCol.toNat := by
    show (c.aCol.setWidth 32).toInt = _
    have hlt := c.aCol.isLt
    rw [BitVec.toInt_eq_toNat_cond, BitVec.toNat_setWidth]
    omega
  have hlow : 1 ≤ c.aCol.toNat := BitVec.le_def.mp hc.low
  have hhigh : c.aCol.toNat ≤ 16 := BitVec.le_def.mp hc.high
  omega

section Work

variable {mem : Mem} {done : List CtlCmd} {c : CtlCmd} {past todo : List Effect}
  {x : System P × Ledger} (k : Kernels)

theorem AtWork.emits (h : AtWork mem done c past todo x) : Mmult.Emits (idOf c) (past ++ todo) :=
  h.effects ▸ P.emits c _

/-- While something is left to do, the first words of the result are in memory. -/
theorem AtWork.storing (h : AtWork mem done c past todo x) (hc : Fits c) (htodo : todo ≠ []) :
    past.length ≤ Mmult.maxSize * Mmult.maxSize ∧
      x.1.mem = (jobOf c).storing past.length (memAfter mem done) := by
  obtain ⟨hlow, hhigh⟩ := hc.aCol_toInt
  obtain ⟨hlen, hpast⟩ := h.emits.eq_take htodo
  refine ⟨hlen, ?_⟩
  rw [← h.effects] at hpast
  rw [h.mem, hpast, List.length_take, Nat.min_eq_left (hpast ▸ List.length_take_le' ..)]
  exact Mmult.after_take_mmult P.beyond P.localC _ (jobOf c) _ hlow hhigh hlen

/-- When nothing is left to do, the command has been carried out. -/
theorem AtWork.finished (h : AtWork mem done c past [] x) (hc : Fits c) :
    Finished mem (done ++ [c]) x := by
  obtain ⟨hlow, hhigh⟩ := hc.aCol_toInt
  refine ⟨?_, h.completed⟩
  rw [h.mem, ← List.append_nil past, ← h.effects, memAfter_concat]
  exact Mmult.after_mmult P.beyond P.localC _ (jobOf c) _ hlow hhigh

/-- A command that is handed to `mmult`. -/
theorem Finished.atWork (h : Finished mem done x) (hargs : x.1.dispatch.args = mmultArgs c.args)
    (hrun : x.1.dispatch.mmult.running = false) : AtWork mem done c [] x.1.todo x := by
  have htodo : x.1.todo = P.effects (mmultArgs c.args) (memAfter mem done) := by
    rw [System.todo, hrun, hargs, h.mem, if_neg Bool.false_ne_true]
  refine ⟨hargs, htodo.symm, h.mem, ?_⟩
  have hne : x.1.todo ≠ [] := by
    rw [htodo, (P.emits c _).split]
    exact List.append_ne_nil_of_right_ne_nil _ (List.cons_ne_nil _ _)
  rw [if_neg hne, h.completed]

/-- The stores of a cycle come from the front of what is to be done. -/
theorem stores_append (s : System P) : s.stores k ++ s.todo.drop (s.stores k).length = s.todo := by
  rw [System.stores]
  split_ifs
  · exact List.prefix_iff_eq_append.mp ((List.take_prefix _ _).trans (List.takeWhile_prefix _))
  · rfl

theorem id?_of_mem_stores {s : System P} {e : Effect} (he : e ∈ s.stores k) : e.id? = none := by
  rw [System.stores] at he
  split_ifs at he
  · have hstore := List.mem_takeWhile_imp (List.mem_of_mem_take he)
    exact Option.isNone_iff_eq_none.mp hstore
  · cases he

/-- A work ID is written when it comes next. -/
theorem drop_stores {s : System P} (hwr : s.wrEn k = true) :
    ∃ left, s.todo.drop (s.stores k).length = .workId (s.workId k) :: left := by
  obtain ⟨id, hid⟩ := Option.isSome_iff_exists.mp
    (Bool.and_eq_true_iff.mp (Bool.and_eq_true_iff.mp (Bool.and_eq_true_iff.mp hwr).1).1).2
  obtain ⟨e, he, heid⟩ := Option.bind_eq_some_iff.mp hid
  obtain ⟨left, hleft⟩ := List.head?_eq_some_iff.mp he
  refine ⟨left, hleft.trans (congrArg (· :: left) ?_)⟩
  rw [System.workId, hid]
  cases e with
  | store addr value => cases heid
  | workId id' => exact congrArg Effect.workId (Option.some.inj heid)

theorem doneNow_append_todoNow (s : System P) : s.doneNow k ++ s.todoNow k = s.todo := by
  have hstores := stores_append k s
  refine List.prefix_iff_eq_append.mp ?_
  rw [System.doneNow]
  cases hwr : s.wrEn k with
  | false =>
    rw [if_neg Bool.false_ne_true, List.append_nil]
    exact ⟨_, hstores⟩
  | true =>
    obtain ⟨left, hleft⟩ := drop_stores k hwr
    rw [hleft] at hstores
    exact ⟨left, by rw [if_pos rfl, List.append_assoc, List.singleton_append, hstores]⟩

/-- **A cycle of the multiplication.** -/
theorem AtWork.step (h : AtWork mem done c past x.1.todo x)
    (hargs : ((accelerator P mem).step x (.axis k)).1.dispatch.args = mmultArgs c.args) :
    AtWork mem done c (past ++ x.1.doneNow k) (x.1.todoNow k)
      ((accelerator P mem).step x (.axis k)) := by
  have hall := doneNow_append_todoNow k x.1
  have hemits := h.emits
  refine ⟨hargs, ?_, ?_, ?_⟩
  · rw [List.append_assoc, hall]
    exact h.effects
  · show Mmult.after x.1.mem (x.1.doneNow k) = _
    rw [h.mem, Mmult.after_append]
  · show x.2.completed ++ (if x.1.wrEn k then [x.1.workId k] else []) = _
    rw [h.completed]
    cases hwr : x.1.wrEn k with
    | true =>
      -- the work ID is the last effect, and the command has been carried out
      have hnow : x.1.doneNow k = x.1.stores k ++ [.workId (x.1.workId k)] := by
        rw [System.doneNow, hwr, if_pos rfl]
      rw [hnow, List.append_assoc, List.singleton_append] at hall
      rw [← hall, ← List.append_assoc] at hemits
      obtain ⟨hnil, hid⟩ := hemits.eq_nil
      have hne : x.1.todo ≠ [] := by
        rw [← hall]
        exact List.append_ne_nil_of_right_ne_nil _ (List.cons_ne_nil _ _)
      rw [if_pos rfl, if_neg hne, if_pos hnil, hid, List.map_append]
      rfl
    | false =>
      have hnow : x.1.doneNow k = x.1.stores k := by
        rw [System.doneNow, hwr, if_neg Bool.false_ne_true, List.append_nil]
      have hiff : x.1.todoNow k = [] ↔ x.1.todo = [] := by
        refine ⟨fun hnil => ?_, fun hnil => (List.append_eq_nil_iff.mp (hall.trans hnil)).2⟩
        -- the work ID is not among the stores
        by_contra hne
        obtain ⟨front, hfront⟩ := hemits.eq_concat hne
        rw [hnil, List.append_nil, hnow] at hall
        have hmem : Effect.workId (idOf c) ∈ x.1.stores k := by
          rw [hall, hfront]
          exact List.mem_append_right _ List.mem_cons_self
        cases id?_of_mem_stores k hmem
      rw [if_neg Bool.false_ne_true, List.append_nil]
      exact congrArg (List.map idOf) (if_congr hiff.symm rfl rfl)

end Work

section Kernels

variable {mem : Mem} {cmds done : List CtlCmd} {x : System P × Ledger} (k : Kernels)

theorem Finished.step_quiet (h : Finished mem done x) (hact : x.1.mmultActive = false) :
    Finished mem done ((accelerator P mem).step x (.axis k)) := by
  have hwr : x.1.wrEn k = false := by simp only [System.wrEn, hact, Bool.false_and]
  have hnow : x.1.doneNow k = [] := by
    rw [System.doneNow, System.stores, hact, hwr]
    rfl
  refine ⟨?_, ?_⟩
  · show Mmult.after x.1.mem (x.1.doneNow k) = _
    rw [hnow]
    exact h.mem
  · show x.2.completed ++ (if x.1.wrEn k then [x.1.workId k] else []) = _
    rw [hwr, h.completed]
    exact List.append_nil _

/-- What has been read after an edge of the kernels. -/
theorem read_axis (x : System P × Ledger) :
    ((accelerator P mem).step x (.axis k)).2.passed.read =
      x.2.passed.read ++ P.ctlCmdAfifo.taken x.1.cmd.fifo (x.1.rdEn k) := rfl

theorem taken_of_not_rdEn (h : x.1.rdEn k = false) :
    P.ctlCmdAfifo.taken x.1.cmd.fifo (x.1.rdEn k) = [] := by
  rw [h]
  rfl

/-- A `cl_box` that does not work reads nothing. -/
theorem rdEn_quiet (hstart : x.1.dispatch.clBoxStart = false)
    (hrun : x.1.dispatch.clBox.running = false) : x.1.rdEn k = false := by
  simp only [System.rdEn, Dispatch.Block.active, hstart, hrun, Bool.or_self, Bool.false_and]

/-- `mmult` has not been started. -/
theorem mmultActive_quiet (hap : x.1.dispatch.apStart = false)
    (hrun : x.1.dispatch.mmult.running = false) : x.1.mmultActive = false := by
  simp only [System.mmultActive, Dispatch.Block.active, hap, hrun, Bool.or_self]

theorem clBoxWords_of_not_running (hrun : x.1.dispatch.clBox.running = false) :
    x.1.clBoxWords = [] := by
  rw [System.clBoxWords, hrun]
  rfl

theorem proceeds_clIdle {x : System P × Ledger} (hstate : x.1.dispatch.kernelState = .clIdle)
    (hpre : done <+: cmds) (hdone : Finished mem done x)
    (hread : x.2.passed.read = done.flatMap CtlCmd.words) : Proceeds mem cmds x := by
  simp only [Proceeds, hstate]
  exact ⟨done, hpre, hdone, hread⟩

/-- The first machine waits for a command. -/
theorem Proceeds.step_clIdle (h : Proceeds mem cmds x) (hset : Dispatch.Settled x.1.dispatch)
    (hstate : x.1.dispatch.kernelState = .clIdle) :
    Proceeds mem cmds ((accelerator P mem).step x (.axis k)) := by
  simp only [Proceeds, hstate] at h
  obtain ⟨done, hpre, hdone, hread⟩ := h
  simp only [Dispatch.Settled, hstate] at hset
  obtain ⟨hstart, hrun, -, hap, hmm⟩ := hset
  obtain ⟨-, -, hrun'⟩ := Dispatch.clBox_quiet (x.1.input k) hstart hrun
  have hdone' := hdone.step_quiet k (mmultActive_quiet hap hmm)
  have hread' : ((accelerator P mem).step x (.axis k)).2.passed.read =
      done.flatMap CtlCmd.words := by
    rw [read_axis, taken_of_not_rdEn k (rdEn_quiet k hstart hrun), List.append_nil, hread]
  by_cases hgo : x.1.dispatch.clBoxIdle && x.1.dispatch.apIdle && !(x.1.input k).ctlCmdAfifoEmpty
  · have hstate' : ((accelerator P mem).step x (.axis k)).1.dispatch.kernelState =
        .clBoxActive := by
      show (x.1.dispatch.nextKernel (x.1.input k)).1 = _
      rw [Dispatch.System.nextKernel, hstate]
      exact congrArg Prod.fst (if_pos hgo)
    have hwords := clBoxWords_of_not_running (x := (accelerator P mem).step x (.axis k)) hrun'
    simp only [Proceeds, hstate']
    refine ⟨done, hpre, hdone', ?_, ?_, fun hr => ?_⟩
    · rw [hread', hwords, List.append_nil]
    · rw [hwords]
      decide
    · exact absurd (hrun'.symm.trans hr) Bool.false_ne_true
  · refine proceeds_clIdle ?_ hpre hdone' hread'
    show (x.1.dispatch.nextKernel (x.1.input k)).1 = _
    rw [Dispatch.System.nextKernel, hstate]
    exact congrArg Prod.fst (if_neg hgo)

/-- Words that have been parsed are the last ones of the run. -/
theorem wordsNow_of_parsed {a : CtlArgs} (h : parsed x.1.clBoxWords = some a) :
    x.1.wordsNow k = x.1.clBoxWords := by
  have hrd : x.1.rdEn k = false := by
    simp only [System.rdEn, h, Option.isNone_some, Bool.and_false, Bool.false_and]
  rw [System.wordsNow, taken_of_not_rdEn k hrd, List.append_nil]

/-- `cl_box` puts out what its words say, and nothing else. -/
theorem within_clBoxProduced (hstart : x.1.dispatch.clBoxStart = true)
    (hold : x.1.dispatch.clBox.running = true →
      Within x.1.dispatch.produced (wanted x.1.words)) :
    Within (x.1.dispatch.clBoxProduced (x.1.input k)) (wanted (x.1.wordsNow k)) := by
  refine Within.after ?_ ?_
  · have hout : x.1.dispatch.clBoxOut (x.1.input k) = x.1.out k := by
      simp only [Dispatch.System.clBoxOut, Dispatch.Block.active, hstart, Bool.or_true, if_true]
      rfl
    rw [hout, System.out, wanted]
    cases parsed (x.1.wordsNow k) with
    | none => exact Within.none _
    | some a => exact within_select k.vld a
  · cases hrun : x.1.dispatch.clBox.running with
    | false => exact Within.none _
    | true =>
      have hwords : x.1.clBoxWords = x.1.words := by rw [System.clBoxWords, hrun, if_pos rfl]
      have hwithin := hold hrun
      cases hparsed : parsed x.1.words with
      | none =>
        rw [wanted, hparsed] at hwithin
        rw [if_pos rfl, hwithin.eq_none]
        exact Within.none _
      | some a =>
        rw [wordsNow_of_parsed k (hwords ▸ hparsed), hwords]
        exact hwithin

/-- The words of the present run, as long as those of a command at most. -/
theorem length_wordsNow (hfits : ∀ c ∈ cmds, Fits c)
    (hnow : x.1.wordsNow k <+: cmds.flatMap CtlCmd.words) (hlen : x.1.clBoxWords.length ≤ 6) :
    (x.1.wordsNow k).length ≤ 6 := by
  have hold : x.1.clBoxWords <+: cmds.flatMap CtlCmd.words :=
    (List.prefix_append _ _).trans hnow
  rcases parsed_of_prefix hfits hold hlen with ⟨-, hlt⟩ | ⟨c, rest, -, -, hparsed⟩
  · have htaken : (P.ctlCmdAfifo.taken x.1.cmd.fifo (x.1.rdEn k)).length ≤ 1 := by
      rw [AsyncFifo.taken]
      split_ifs <;> simp
    rw [System.wordsNow, List.length_append]
    omega
  · rw [wordsNow_of_parsed k hparsed]
    exact hlen

/-- `cl_box` reads the next command, and hands it to `mmult` when it is done. -/
theorem Proceeds.step_clBoxActive (h : Proceeds mem cmds x) (hfits : ∀ c ∈ cmds, Fits c)
    (hset : Dispatch.Settled x.1.dispatch) (hstate : x.1.dispatch.kernelState = .clBoxActive)
    (hstream : ((accelerator P mem).step x (.axis k)).2.passed.read <+:
      cmds.flatMap CtlCmd.words) :
    Proceeds mem cmds ((accelerator P mem).step x (.axis k)) := by
  simp only [Proceeds, hstate] at h
  obtain ⟨done, ⟨rest, rfl⟩, hdone, hread, hlen, hold⟩ := h
  simp only [Dispatch.Settled, hstate] at hset
  obtain ⟨hstart, -, hap, hmm, hargs⟩ := hset
  obtain ⟨r, hr⟩ := Dispatch.args_clBoxActive (x.1.input k) hstart hargs
  obtain ⟨hap', -, hmm'⟩ := Dispatch.mmult_quiet (x.1.input k) hap hmm
  have hdone' := hdone.step_quiet k (mmultActive_quiet hap hmm)
  have hread' : ((accelerator P mem).step x (.axis k)).2.passed.read =
      done.flatMap CtlCmd.words ++ x.1.wordsNow k := by
    rw [read_axis, hread, List.append_assoc]
    rfl
  -- the words of this run are in front of what is left of the stream
  have hnow : x.1.wordsNow k <+: rest.flatMap CtlCmd.words := by
    rw [hread', List.flatMap_append] at hstream
    exact (List.prefix_append_right_inj _).mp hstream
  have hfits' : ∀ c ∈ rest, Fits c := fun c hc => hfits c (List.mem_append_right _ hc)
  have hlen' := length_wordsNow k hfits' hnow hlen
  have hwithin := within_clBoxProduced k hstart hold
  cases hlast : x.1.dispatch.clBoxDone (x.1.input k) with
  | false =>
    have hstate' : ((accelerator P mem).step x (.axis k)).1.dispatch.kernelState =
        .clBoxActive := by
      show (x.1.dispatch.nextKernel (x.1.input k)).1 = _
      simp only [Dispatch.System.nextKernel, hstate, hlast, Bool.false_eq_true, if_false]
    have hrun' : ((accelerator P mem).step x (.axis k)).1.dispatch.clBox.running = true := by
      show (x.1.dispatch.clBox.active x.1.dispatch.clBoxStart &&
        !x.1.dispatch.clBoxLast (x.1.input k)) = true
      simpa [Dispatch.System.clBoxDone, Dispatch.Block.apDone, Dispatch.Block.active, hstart]
        using hlast
    have hwords : ((accelerator P mem).step x (.axis k)).1.clBoxWords = x.1.wordsNow k := by
      rw [System.clBoxWords, hrun']
      rfl
    simp only [Proceeds, hstate']
    refine ⟨done, List.prefix_append _ _, hdone', ?_, ?_, fun _ => hwithin⟩
    · rw [hread', hwords]
    · rw [hwords]
      exact hlen'
  | true =>
    have hstate' : ((accelerator P mem).step x (.axis k)).1.dispatch.kernelState =
        .clKernelActive := by
      show (x.1.dispatch.nextKernel (x.1.input k)).1 = _
      simp only [Dispatch.System.nextKernel, hstate, hlast, hap', Bool.false_eq_true, if_true,
        if_false]
    have hall := (Bool.and_eq_true_iff.mp (Bool.and_eq_true_iff.mp hlast).2).2
    obtain ⟨a, ha⟩ := Option.isSome_iff_exists.mp hall
    -- arguments have been put out, so a command has been parsed
    rcases parsed_of_prefix hfits' hnow hlen' with ⟨hnone, -⟩ | ⟨c, rest, rfl, hwords, hparsed⟩
    · rw [wanted, hnone] at hwithin
      rw [hwithin.eq_none] at ha
      cases ha
    · rw [wanted, hparsed] at hwithin
      have hargs' : ((accelerator P mem).step x (.axis k)).1.dispatch.args = mmultArgs c.args := by
        show (x.1.dispatch.step (x.1.input k)).args = _
        rw [hr, Dispatch.latch_of_args ha, hwithin.args_full ha]
      simp only [Proceeds, hstate']
      refine ⟨done, c, [], ⟨rest, List.append_assoc ..⟩, hdone'.atWork hargs' hmm', ?_⟩
      rw [hread', hwords, List.flatMap_append, List.flatMap_singleton]

/-- `mmult` does the job that is in its registers. -/
theorem Proceeds.step_clKernelActive (h : Proceeds mem cmds x) (hfits : ∀ c ∈ cmds, Fits c)
    (hset : Dispatch.Settled x.1.dispatch)
    (hstate : x.1.dispatch.kernelState = .clKernelActive) :
    Proceeds mem cmds ((accelerator P mem).step x (.axis k)) := by
  simp only [Proceeds, hstate] at h
  obtain ⟨done, c, past, hpre, hwork, hread⟩ := h
  have hc : Fits c := hfits c (hpre.subset (List.mem_append_right _ List.mem_cons_self))
  simp only [Dispatch.Settled, hstate] at hset
  obtain ⟨hstart, hrun, -, hap, -⟩ := hset
  obtain ⟨-, hout, -⟩ := Dispatch.clBox_quiet (x.1.input k) hstart hrun
  have hread' : ((accelerator P mem).step x (.axis k)).2.passed.read =
      (done ++ [c]).flatMap CtlCmd.words := by
    rw [read_axis, taken_of_not_rdEn k (rdEn_quiet k hstart hrun), List.append_nil, hread]
  have hargs' : ((accelerator P mem).step x (.axis k)).1.dispatch.args = mmultArgs c.args := by
    show x.1.dispatch.args.latch (x.1.dispatch.clBoxOut (x.1.input k)) = _
    rw [hout, Dispatch.latch_none, hwork.args]
  cases hlast : x.1.dispatch.apDone (x.1.input k) with
  | false =>
    have hstate' : ((accelerator P mem).step x (.axis k)).1.dispatch.kernelState =
        .clKernelActive := by
      show (x.1.dispatch.nextKernel (x.1.input k)).1 = _
      simp only [Dispatch.System.nextKernel, hstate, hlast, Bool.false_eq_true, if_false]
    have hrun' : ((accelerator P mem).step x (.axis k)).1.dispatch.mmult.running = true := by
      show (x.1.dispatch.mmult.active x.1.dispatch.apStart && !(x.1.input k).mmultLast) = true
      simpa [Dispatch.System.apDone, Dispatch.Block.apDone, Dispatch.Block.active, hap]
        using hlast
    have htodo : ((accelerator P mem).step x (.axis k)).1.todo = x.1.todoNow k := by
      rw [System.todo, hrun', if_pos rfl]
      rfl
    simp only [Proceeds, hstate']
    exact ⟨done, c, _, hpre, htodo ▸ hwork.step k hargs', hread'⟩
  | true =>
    have hnil : x.1.todoNow k = [] :=
      List.isEmpty_iff.mp (Bool.and_eq_true_iff.mp (Bool.and_eq_true_iff.mp hlast).2).2
    refine proceeds_clIdle ?_ hpre ?_ hread'
    · show (x.1.dispatch.nextKernel (x.1.input k)).1 = _
      simp only [Dispatch.System.nextKernel, hstate, hlast, if_true]
    · have hdone := hwork.step k hargs'
      rw [hnil] at hdone
      exact hdone.finished hc

/-- The bus does not disturb the kernels. -/
theorem Proceeds.step_axil (h : Proceeds mem cmds x) (wr : CommandPort.Bus)
    (rd : KernelStatus.Bus) : Proceeds mem cmds ((accelerator P mem).step x (.axil wr rd)) := by
  have hdone' {done : List CtlCmd} (hdone : Finished mem done x) :
      Finished mem done ((accelerator P mem).step x (.axil wr rd)) :=
    ⟨hdone.mem, hdone.completed⟩
  have hstate' : ((accelerator P mem).step x (.axil wr rd)).1.dispatch.kernelState =
      x.1.dispatch.kernelState := rfl
  cases hstate : x.1.dispatch.kernelState <;> rw [hstate] at hstate' <;>
    simp only [Proceeds, hstate] at h <;> simp only [Proceeds, hstate']
  case clIdle =>
    obtain ⟨done, hpre, hdone, hread⟩ := h
    exact ⟨done, hpre, hdone' hdone, hread⟩
  case clBoxActive =>
    obtain ⟨done, hpre, hdone, hread, hlen, hold⟩ := h
    exact ⟨done, hpre, hdone' hdone, hread, hlen, hold⟩
  case clKernelActive =>
    obtain ⟨done, c, past, hpre, hwork, hread⟩ := h
    exact ⟨done, c, past, hpre, ⟨hwork.args, hwork.effects, hwork.mem, hwork.completed⟩, hread⟩

/-- **One edge of the kernels.** -/
theorem Proceeds.step_axis (h : Proceeds mem cmds x) (hfits : ∀ c ∈ cmds, Fits c)
    (hset : Dispatch.Settled x.1.dispatch)
    (hstream : ((accelerator P mem).step x (.axis k)).2.passed.read <+:
      cmds.flatMap CtlCmd.words) :
    Proceeds mem cmds ((accelerator P mem).step x (.axis k)) := by
  cases hstate : x.1.dispatch.kernelState with
  | clIdle => exact h.step_clIdle k hset hstate
  | clBoxActive => exact h.step_clBoxActive k hfits hset hstate hstream
  | clKernelActive => exact h.step_clKernelActive k hfits hset hstate

end Kernels

/-! ## The host reads the work IDs -/

/-- The work IDs on their way to the host: an answer on the bus, and what a read has not taken
out of the status FIFO. -/
def onTheWay (x : System P × Ledger) : List (BitVec 32) :=
  (if x.1.status.port.rvalid then reported [(x.2.araddr, x.1.status.port.rdata)] else []) ++
    x.1.status.kept

/-- The work IDs that have been accepted are those the host has read and those on their way. -/
structure Tells (x : System P × Ledger) : Prop where
  port : KernelStatus.ReadPort x.1.status
  all : x.2.completed = reported x.2.answers ++ onTheWay x

theorem reported_append (as bs : List (BitVec 12 × BitVec 32)) :
    reported (as ++ bs) = reported as ++ reported bs := by
  rw [reported, List.filter_append, List.map_append]
  rfl

/-- An answer of another register, or one that is made up. -/
theorem reported_other {addr : BitVec 12} {data : BitVec 32}
    (h : addr = KernelStatus.kerSts → data = KernelStatus.defaultValue) :
    reported [(addr, data)] = [] := by
  rw [reported, List.filter_cons_of_neg]
  · rfl
  · simpa using h

/-- A work ID. -/
theorem reported_id {data : BitVec 32} (h : data ≠ KernelStatus.defaultValue) :
    reported [(KernelStatus.kerSts, data)] = [data] := by
  rw [reported, List.filter_cons_of_pos]
  · rfl
  · simpa using h

/-- A work ID has 16 bits. -/
theorem idOf_ne_defaultValue (c : CtlCmd) : idOf c ≠ KernelStatus.defaultValue := by
  intro h
  have hlt := c.workId.isLt
  have hnat := congrArg BitVec.toNat h
  rw [idOf, BitVec.toNat_setWidth, show KernelStatus.defaultValue.toNat = 0xdeadbeef from rfl]
    at hnat
  omega

section Answers

variable {mem : Mem} {x : System P × Ledger}

/-- What a request is answered with, and what stays in the FIFO. -/
theorem contents_eq_reported {F : AsyncFifo (BitVec 32)} (s : KernelStatus.Status F)
    (others : BitVec 12 → BitVec 32) (addr : BitVec 12)
    (hids : ∀ id ∈ F.contents s.fifo, id ≠ KernelStatus.defaultValue) :
    F.contents s.fifo = reported [(addr, s.answer others addr)] ++
      if decide (addr = KernelStatus.kerSts) && !F.empty s.fifo then (F.contents s.fifo).tail
      else F.contents s.fifo := by
  rw [KernelStatus.Status.answer]
  by_cases hker : addr = KernelStatus.kerSts
  · cases hne : F.empty s.fifo with
    | true =>
      simp only [hker, if_true, Bool.not_true, Bool.false_eq_true, if_false, Bool.and_false]
      rw [reported_other fun _ => rfl, List.nil_append]
    | false =>
      have hcons := F.contents_eq_cons s.fifo hne
      have hdout : F.dout s.fifo ≠ KernelStatus.defaultValue := by
        refine hids _ ?_
        rw [hcons]
        exact List.mem_cons_self
      simp only [hker, if_true, Bool.not_false, decide_true, Bool.and_self]
      rw [reported_id hdout]
      exact hcons
  · simp only [hker, if_false, decide_false, Bool.false_and, Bool.false_eq_true]
    rw [reported_other fun h => absurd h hker, List.nil_append]

/-- The host begins a read, waits, or takes the answer. -/
theorem Tells.step_axil (h : Tells x) (hids : ∀ id ∈ x.2.completed, id ≠ KernelStatus.defaultValue)
    (wr : CommandPort.Bus) (rd : KernelStatus.Bus) :
    Tells ((accelerator P mem).step x (.axil wr rd)) := by
  have hall := h.all
  have hstatus : ((accelerator P mem).step x (.axil wr rd)).1.status =
      x.1.status.bus x.1.others rd := rfl
  have haddr : ((accelerator P mem).step x (.axil wr rd)).2.araddr =
      if x.1.status.port.arready && rd.arvalid then rd.araddr else x.2.araddr := rfl
  have hanswers : ((accelerator P mem).step x (.axil wr rd)).2.answers = x.2.answers ++
      if x.1.status.port.rvalid && rd.rready then [(x.2.araddr, x.1.status.port.rdata)]
      else [] := rfl
  refine ⟨h.port.bus _ _, ?_⟩
  show x.2.completed = _
  rw [hall, hanswers, onTheWay, onTheWay, hstatus, haddr]
  cases h.port.busEdge x.1.others rd with
  | quiet _ hrv _ hrv' hkept =>
    rw [hrv, hrv', hkept, Bool.false_and, if_neg Bool.false_ne_true, if_neg Bool.false_ne_true,
      if_neg Bool.false_ne_true, List.append_nil]
  | request har hrv hav hrv' hdata hfifo hkept =>
    have hcontents := contents_eq_reported x.1.status x.1.others rd.araddr fun id hid => by
      refine hids id ?_
      rw [hall, onTheWay, hfifo]
      exact List.mem_append_right _ (List.mem_append_right _ hid)
    rw [hrv, hrv', hdata, hkept, hfifo, har, hav, Bool.false_and, Bool.and_self,
      if_neg Bool.false_ne_true, if_neg Bool.false_ne_true, if_pos rfl, if_pos rfl,
      List.append_nil, List.nil_append]
    exact congrArg (reported x.2.answers ++ ·) hcontents
  | wait har hrv hrr hrv' hdata hkept =>
    rw [hrv, hrv', hdata, hkept, har, hrr, Bool.and_false, Bool.false_and,
      if_neg Bool.false_ne_true, if_neg Bool.false_ne_true, List.append_nil]
  | take har hrv hrr hrv' hkept =>
    rw [hrv, hrv', hkept, hrr, Bool.and_self, if_pos rfl, if_pos rfl,
      if_neg Bool.false_ne_true, reported_append, List.nil_append, List.append_assoc]

/-- A work ID goes behind everything that is on its way. -/
theorem Tells.step_axis (h : Tells x) (k : Kernels) :
    Tells ((accelerator P mem).step x (.axis k)) := by
  refine ⟨h.port.kernel _ _, ?_⟩
  have hkept := h.port.kept_kernel (x.1.wrEn k) (x.1.workId k)
  have hroom : (x.1.wrEn k &&
      (!P.kerStatusAfifo.full x.1.status.fifo && !P.kerStatusAfifo.wrRstBusy x.1.status.fifo)) =
      x.1.wrEn k := by
    rw [System.wrEn, Bool.and_assoc, Bool.and_self]
  rw [hroom] at hkept
  have hbehind : onTheWay ((accelerator P mem).step x (.axis k)) =
      onTheWay x ++ if x.1.wrEn k then [x.1.workId k] else [] := by
    rw [onTheWay, onTheWay, List.append_assoc, ← hkept]
    rfl
  show x.2.completed ++ (if x.1.wrEn k then [x.1.workId k] else []) = _
  rw [h.all, hbehind, List.append_assoc]
  rfl

end Answers

/-! ## Runs -/

/-- The invariant of the whole accelerator. -/
structure Sequential (mem : Mem) (cmds : List CtlCmd) (x : System P × Ledger) : Prop where
  writes : CommandPort.Follows (queue x)
  machines : Dispatch.Settled x.1.dispatch
  kernels : Proceeds mem cmds x
  answers : Tells x

section Run

variable {mem : Mem} {cmds : List CtlCmd} {x : System P × Ledger} {e : Edge}

/-- The words read are among those written. -/
theorem prefix_of_read (h : CommandPort.Follows (queue x)) :
    x.2.passed.read <+: commands x.2.passed.writes :=
  (List.prefix_append _ _).trans h.queued.inOrder

/-- What the kernels have done: some of the commands whose words have been read, in order, and
some of the next one. -/
theorem Proceeds.reached (h : Proceeds mem cmds x) (hfits : ∀ c ∈ cmds, Fits c)
    (hread : x.2.passed.read <+: commands x.2.passed.writes) :
    ∃ done, done <+: cmds ∧ done.flatMap CtlCmd.words <+: commands x.2.passed.writes ∧
      x.2.completed = done.map idOf ∧
      (x.1.mem = memAfter mem done ∨ ∃ c n, Storing mem cmds done c n x) := by
  cases hstate : x.1.dispatch.kernelState <;> simp only [Proceeds, hstate] at h
  case clIdle =>
    obtain ⟨done, hpre, hdone, hall⟩ := h
    exact ⟨done, hpre, hall ▸ hread, hdone.completed, Or.inl hdone.mem⟩
  case clBoxActive =>
    obtain ⟨done, hpre, hdone, hall, -⟩ := h
    exact ⟨done, hpre, (hall ▸ List.prefix_append _ _ : _ <+: x.2.passed.read).trans hread,
      hdone.completed, Or.inl hdone.mem⟩
  case clKernelActive =>
    obtain ⟨done, c, past, hpre, hwork, hall⟩ := h
    have hc : Fits c := hfits c (hpre.subset (List.mem_append_right _ List.mem_cons_self))
    have hissued : (done ++ [c]).flatMap CtlCmd.words <+: commands x.2.passed.writes :=
      hall ▸ hread
    by_cases htodo : x.1.todo = []
    · rw [htodo] at hwork
      have hdone := hwork.finished hc
      exact ⟨done ++ [c], hpre, hissued, hdone.completed, Or.inl hdone.mem⟩
    · obtain ⟨hwords, hmem⟩ := hwork.storing hc htodo
      have hcompleted := hwork.completed
      rw [if_neg htodo] at hcompleted
      refine ⟨done, (List.prefix_append _ _).trans hpre, ?_, hcompleted,
        Or.inr ⟨c, past.length, hpre, hissued, hwords, hmem⟩⟩
      rw [List.flatMap_append] at hissued
      exact (List.prefix_append _ _).trans hissued

theorem Sequential.carriedOut (h : Sequential mem cmds x) (hfits : ∀ c ∈ cmds, Fits c) :
    ∃ done, done <+: cmds ∧ CarriedOut mem cmds done x := by
  obtain ⟨done, hpre, hissued, hcompleted, hmem⟩ :=
    h.kernels.reached hfits (prefix_of_read h.writes)
  refine ⟨done, hpre, hissued, hmem, hcompleted, ?_⟩
  rw [← hcompleted, h.answers.all]
  exact List.prefix_append _ _

/-- Work IDs are never the answer of an empty FIFO. -/
theorem Sequential.ids (h : Sequential mem cmds x) (hfits : ∀ c ∈ cmds, Fits c) :
    ∀ id ∈ x.2.completed, id ≠ KernelStatus.defaultValue := by
  obtain ⟨done, -, hdone⟩ := h.carriedOut hfits
  intro id hid
  rw [hdone.completed] at hid
  obtain ⟨c, -, rfl⟩ := List.mem_map.mp hid
  exact idOf_ne_defaultValue c

theorem sequential_reset (P : Parts) (mem : Mem) (cmds : List CtlCmd) :
    Sequential mem cmds (accelerator P mem).reset := by
  refine ⟨CommandPort.follows_reset P.ctlCmdAfifo, ⟨rfl, rfl, rfl, rfl, rfl⟩,
    ⟨[], List.nil_prefix, ⟨rfl, rfl⟩, rfl⟩, ⟨⟨rfl, rfl, rfl⟩, ?_⟩⟩
  show [] = [] ++ ([] ++ P.kerStatusAfifo.contents P.kerStatusAfifo.reset)
  rw [P.kerStatusAfifo.contents_reset]
  rfl

/-- **One edge.** -/
theorem Sequential.step (h : Sequential mem cmds x) (hfits : ∀ c ∈ cmds, Fits c)
    (hissues : Issues cmds x) (hcomp : CommandPort.Compliant (queue x) (x.1.cmdEdge e))
    (hok : CommandPort.Undisturbed (queue x) (x.1.cmdEdge e)) :
    Sequential mem cmds ((accelerator P mem).step x e) := by
  have hqueue : CommandPort.Follows (queue ((accelerator P mem).step x e)) := by
    rw [queue_step]
    exact h.writes.step hcomp hok
  cases e with
  | axil wr rd =>
    exact ⟨hqueue, h.machines, h.kernels.step_axil wr rd,
      h.answers.step_axil (h.ids hfits) wr rd⟩
  | axis k =>
    have hstream : ((accelerator P mem).step x (.axis k)).2.passed.read <+:
        cmds.flatMap CtlCmd.words := by
      have hwritten : ((accelerator P mem).step x (.axis k)).2.passed.writes =
          x.2.passed.writes := rfl
      exact (hwritten ▸ prefix_of_read hqueue).trans hissues
    exact ⟨hqueue, (h.machines.advances _).1,
      h.kernels.step_axis k hfits h.machines hstream, h.answers.step_axis k⟩

theorem zip_prefix_zip_append {α β : Type*} (as as' : List α) (bs bs' : List β) :
    as.zip bs <+: (as ++ as').zip (bs ++ bs') := by
  induction as generalizing bs with
  | nil => exact List.nil_prefix
  | cons a as ih =>
    cases bs with
    | nil => exact List.nil_prefix
    | cons b bs => exact List.cons_prefix_cons.mpr ⟨rfl, ih bs⟩

/-- An edge takes no write back. -/
theorem issues_of_step (h : Issues cmds ((accelerator P mem).step x e)) : Issues cmds x := by
  refine List.IsPrefix.trans ?_ h
  have hwrites : x.2.passed.writes <+: ((accelerator P mem).step x e).2.passed.writes := by
    cases e with
    | axil wr rd => exact zip_prefix_zip_append ..
    | axis k => exact List.prefix_refl _
  exact (hwrites.filter _).map _

end Run

/-- **The accelerator is sequential.**  For each pair of FIFOs that are as their data sheet
says, each timing of the two clocks and each latency of the kernels: a host that follows the
rules of the bus and does not disturb the write interface has written the words of some
commands, which have the size of the driver and an inner dimension from 1 to 16.  Then at each
moment the accelerator has carried out the first of them, each once and in order.  Memory is
what they leave, apart from the result of the command under way, of which the first words are
stored and the others are not, and the answers of `KER_STS` that are not `0xdeadbeef` are the
work IDs of the first commands.  No work ID is there before its result. -/
theorem carriedOut_run (P : Parts) (mem : Mem) (cmds : List CtlCmd) (es : List Edge)
    (hfits : ∀ c ∈ cmds, Fits c)
    (hissues : Issues cmds ((accelerator P mem).run es))
    (hcomp : (accelerator P mem).Guarded
      (fun x e => CommandPort.Compliant (queue x) (x.1.cmdEdge e)) (accelerator P mem).reset es)
    (hok : (accelerator P mem).Guarded
      (fun x e => CommandPort.Undisturbed (queue x) (x.1.cmdEdge e)) (accelerator P mem).reset es) :
    (accelerator P mem).Always (fun x => ∃ done, done <+: cmds ∧ CarriedOut mem cmds done x)
      (accelerator P mem).reset es := by
  have hinv : (accelerator P mem).Always (Sequential mem cmds) (accelerator P mem).reset es := by
    refine Machine.always_of_guarded (fun x e h hc => h.step hfits hc.1 hc.2.1 hc.2.2)
      (sequential_reset P mem cmds) (Machine.Guarded.and ?_ (hcomp.and hok))
    refine (Machine.always_of_last (fun x e h => ?_) hissues).guarded
    exact issues_of_step (e := e) h
  exact hinv.mono fun _ h => h.carriedOut hfits

/-! ### One job -/

/-- FIFOs that show a word at once, and arrays of zeros. -/
def prompt : Parts where
  ctlCmdAfifo := AsyncFifo.ofDepth 16 0 0
  kerStatusAfifo := AsyncFifo.ofDepth 4 0 0
  wrDataCount := fun s => BitVec.ofNat 32 s.words.length
  rdDataCount := fun s => BitVec.ofNat 32 s.words.length
  beyond := fun _ => 0
  localC := fun _ => 0

/-- The command of the programs in `examples/`, for three matrices one after the other. -/
def fullCmd : CtlCmd :=
  ControlCommand.genCtlCmd 0x0 0x400 0x800 driverCmdSize 16 16 16 0xdd

/-- A host that does nothing on one of its channels. -/
def noWrite : CommandPort.Bus := ⟨false, 0, false, 0, false⟩

def noRead : KernelStatus.Bus := ⟨false, 0, false⟩

/-- The host writes a word to `CTL_CMD`. -/
def writeWord (w : BitVec 32) : List Edge :=
  [.axil ⟨true, CommandPort.ctlCmd, true, w, false⟩ noRead,
    .axil ⟨false, 0, true, w, false⟩ noRead, .axil ⟨false, 0, false, 0, true⟩ noRead]

/-- Kernels that do in each cycle what they can, and store up to 100 words. -/
def eager : Kernels := ⟨true, ⟨true, true, true, true, true, true, true⟩, true, 100, true, true⟩

/-- The host issues the command, the kernels work for twelve cycles, and the host reads
`KER_STS`. -/
def oneJob : List Edge :=
  fullCmd.words.flatMap writeWord ++ List.replicate 12 (.axis eager) ++
    [.axil noWrite ⟨true, KernelStatus.kerSts, false⟩, .axil noWrite ⟨false, 0, true⟩]

theorem carriedOut_run_oneJob :
    (accelerator prompt fun _ => 1).Always
        (fun x => ∃ done, done <+: [fullCmd] ∧ CarriedOut (fun _ => 1) [fullCmd] done x)
        (accelerator prompt fun _ => 1).reset oneJob ∧
      reported ((accelerator prompt fun _ => 1).run oneJob).2.answers = [0xdd] :=
  ⟨carriedOut_run prompt (fun _ => 1) [fullCmd] oneJob
    (by
      intro c hc
      rw [List.mem_singleton.mp hc]
      exact ⟨rfl, by decide, by decide⟩)
    ⟨[], by decide +kernel⟩ (by decide +kernel) (by decide +kernel), by decide +kernel⟩

end Accelerator
end RecoNIC
