import RecoNIC.Synchronous.Machine
import Mathlib.Data.BitVec
import Mathlib.Data.List.Basic

/-!
# From a command to a multiplication

Two kernels work on a command.  `cl_box` reads it and puts out the arguments of the
multiplication; `mmult` multiplies.  `control_command_processor` starts the first when a
command is there and both are idle, and then waits for both to be done;
`compute_logic_wrapper` keeps the arguments in registers and starts the second when the first
is done.

Both kernels have the handshake `ap_ctrl_hs`: a block begins a run when `ap_start` is high and
it is not running, `ap_done` is high in the last cycle of the run, and `ap_idle` when there is
no run.  Neither is pipelined at its top level, so `ap_ready` is `ap_done`.  How long a run
takes is left open, and so is when within it `cl_box` puts out which argument.

Whatever the latencies are, each run of `cl_box` is followed by one run of `mmult` with its
arguments, which ends before the next one begins (`dispatched_run`).
-/

namespace RecoNIC
namespace Dispatch

open Synchronous

/-! ## A block with the handshake `ap_ctrl_hs` -/

/-- A block: whether it is in the middle of a run. -/
structure Block where
  running : Bool
  deriving DecidableEq

namespace Block

/-- The block works in this cycle. -/
def active (b : Block) (apStart : Bool) : Bool := b.running || apStart

/-- A run begins in this cycle. -/
def begins (b : Block) (apStart : Bool) : Bool := !b.running && apStart

/-- `ap_idle`. -/
def apIdle (b : Block) (apStart : Bool) : Bool := !b.active apStart

/-- `ap_done` and `ap_ready`; `last` says whether a cycle of work is the last one. -/
def apDone (b : Block) (apStart last : Bool) : Bool := b.active apStart && last

/-- One clock edge. -/
def step (b : Block) (apStart last : Bool) : Block := ⟨b.active apStart && !last⟩

end Block

/-! ## Arguments -/

/-- What `cl_box` puts out in a cycle: an argument is there when its `ap_vld` is high. -/
structure ClBoxOut where
  aBaseaddr : Option (BitVec 32)
  bBaseaddr : Option (BitVec 32)
  cBaseaddr : Option (BitVec 32)
  aRow : Option (BitVec 32)
  aCol : Option (BitVec 32)
  bCol : Option (BitVec 32)
  workId : Option (BitVec 32)
  deriving DecidableEq

/-- The arguments of `mmult`: the registers `*_reg` of the wrapper. -/
structure MmultArgs where
  a : BitVec 64
  b : BitVec 64
  c : BitVec 64
  aRow : BitVec 32
  aCol : BitVec 32
  bCol : BitVec 32
  workId : BitVec 32
  deriving DecidableEq

/-- Nothing. -/
def ClBoxOut.none : ClBoxOut :=
  ⟨Option.none, Option.none, Option.none, Option.none, Option.none, Option.none, Option.none⟩

/-- What has been put out when `o` comes after `p`. -/
def ClBoxOut.after (o p : ClBoxOut) : ClBoxOut where
  aBaseaddr := o.aBaseaddr.or p.aBaseaddr
  bBaseaddr := o.bBaseaddr.or p.bBaseaddr
  cBaseaddr := o.cBaseaddr.or p.cBaseaddr
  aRow := o.aRow.or p.aRow
  aCol := o.aCol.or p.aCol
  bCol := o.bCol.or p.bCol
  workId := o.workId.or p.workId

/-- The arguments, once all of them have been put out.  An address gets 32 zeros in front. -/
def ClBoxOut.args (o : ClBoxOut) : Option MmultArgs := do
  let aBaseaddr ← o.aBaseaddr
  let bBaseaddr ← o.bBaseaddr
  let cBaseaddr ← o.cBaseaddr
  let aRow ← o.aRow
  let aCol ← o.aCol
  let bCol ← o.bCol
  let workId ← o.workId
  return ⟨0#32 ++ aBaseaddr, 0#32 ++ bBaseaddr, 0#32 ++ cBaseaddr, aRow, aCol, bCol, workId⟩

/-- The registers take what is put out. -/
def MmultArgs.latch (r : MmultArgs) (o : ClBoxOut) : MmultArgs where
  a := (o.aBaseaddr.map (0#32 ++ ·)).getD r.a
  b := (o.bBaseaddr.map (0#32 ++ ·)).getD r.b
  c := (o.cBaseaddr.map (0#32 ++ ·)).getD r.c
  aRow := o.aRow.getD r.aRow
  aCol := o.aCol.getD r.aCol
  bCol := o.bCol.getD r.bCol
  workId := o.workId.getD r.workId

theorem latch_none (r : MmultArgs) : r.latch ClBoxOut.none = r := rfl

/-- One after the other is both at once. -/
theorem latch_latch (r : MmultArgs) (p o : ClBoxOut) :
    (r.latch p).latch o = r.latch (o.after p) := by
  have hget (x y : Option (BitVec 32)) (d : BitVec 32) : x.getD (y.getD d) = (x.or y).getD d := by
    cases x <;> rfl
  have hmap (x y : Option (BitVec 32)) (d : BitVec 64) :
      (x.map (0#32 ++ ·)).getD ((y.map (0#32 ++ ·)).getD d) =
        ((x.or y).map (0#32 ++ ·)).getD d := by
    cases x <;> rfl
  simp only [MmultArgs.latch, ClBoxOut.after, hget, hmap]

/-- All arguments at once leave nothing of the old ones. -/
theorem latch_of_args {o : ClBoxOut} {a : MmultArgs} (h : o.args = some a) (r : MmultArgs) :
    r.latch o = a := by
  simp only [ClBoxOut.args, Option.bind_eq_bind, Option.bind_eq_some_iff, Option.pure_def,
    Option.some.injEq] at h
  obtain ⟨v₁, h₁, v₂, h₂, v₃, h₃, v₄, h₄, v₅, h₅, v₆, h₆, v₇, h₇, rfl⟩ := h
  simp only [MmultArgs.latch, h₁, h₂, h₃, h₄, h₅, h₆, h₇, Option.map_some, Option.getD_some]

/-! ## The two machines -/

/-- `kernel_state`. -/
inductive KernelState where
  | clIdle | clBoxActive | clKernelActive
  deriving DecidableEq

/-- `comp_state`. -/
inductive CompState where
  | computeIdle | computeBusy
  deriving DecidableEq

/-- The registers of the two machines, and the two kernels. -/
structure System where
  kernelState : KernelState
  clBoxStart : Bool
  compState : CompState
  apStart : Bool
  newReqReg : Bool
  args : MmultArgs
  /-- `cl_box`, and what it has put out in its present run. -/
  clBox : Block
  produced : ClBoxOut
  mmult : Block
  deriving DecidableEq

/-- What is left open in a cycle: whether the command FIFO is empty, what `cl_box` puts out if
it works, and whether a kernel that works has its last cycle. -/
structure Input where
  ctlCmdAfifoEmpty : Bool
  out : ClBoxOut
  clBoxLast : Bool
  mmultLast : Bool

namespace System

/-- After reset. -/
def reset : System :=
  ⟨.clIdle, false, .computeIdle, false, false, ⟨0, 0, 0, 0, 0, 0, 0⟩, ⟨false⟩, .none, ⟨false⟩⟩

variable (s : System) (i : Input)

/-- What `cl_box` puts out. -/
def clBoxOut : ClBoxOut := if s.clBox.active s.clBoxStart then i.out else .none

/-- What it has put out in its present run. -/
def clBoxProduced : ClBoxOut :=
  (s.clBoxOut i).after (if s.clBox.running then s.produced else .none)

/-- The last cycle of a run of `cl_box`, which puts out each of its arguments. -/
def clBoxLast : Bool := i.clBoxLast && (s.clBoxProduced i).args.isSome

def clBoxIdle : Bool := s.clBox.apIdle s.clBoxStart

def clBoxDone : Bool := s.clBox.apDone s.clBoxStart (s.clBoxLast i)

def apIdle : Bool := s.mmult.apIdle s.apStart

def apDone : Bool := s.mmult.apDone s.apStart i.mmultLast

/-- `ap_ready` of a kernel that is not pipelined. -/
def apReady : Bool := s.apDone i

/-- The `ap_ctrl` machine of `control_command_processor`: `kernel_state` and `cl_box_start`. -/
def nextKernel : KernelState × Bool :=
  match s.kernelState with
  | .clIdle =>
    if s.clBoxIdle && s.apIdle && !i.ctlCmdAfifoEmpty then (.clBoxActive, true)
    else (.clIdle, false)
  | .clBoxActive =>
    if s.clBoxDone i then
      if s.apDone i then (.clIdle, false) else (.clKernelActive, false)
    else (.clBoxActive, true)
  | .clKernelActive => if s.apDone i then (.clIdle, false) else (.clKernelActive, false)

/-- The machine of `compute_logic_wrapper`: `comp_state` and `ap_start`. -/
def nextComp : CompState × Bool :=
  let newReq := s.clBoxDone i
  match s.compState with
  | .computeIdle =>
    if s.apIdle && newReq then (.computeBusy, true) else (.computeIdle, false)
  | .computeBusy => (if s.apDone i then .computeIdle else .computeBusy, !s.apReady i)

/-- One clock edge. -/
def step : System where
  kernelState := (s.nextKernel i).1
  clBoxStart := (s.nextKernel i).2
  compState := (s.nextComp i).1
  apStart := (s.nextComp i).2
  newReqReg := s.clBoxDone i
  args := s.args.latch (s.clBoxOut i)
  clBox := s.clBox.step s.clBoxStart (s.clBoxLast i)
  produced := s.clBoxProduced i
  mmult := s.mmult.step s.apStart i.mmultLast

end System

/-! ## What happens -/

/-- `cl_box` completes with some arguments; `mmult` starts with those in its registers; it
finishes. -/
inductive Event where
  | completed (args : MmultArgs)
  | started (args : MmultArgs)
  | finished
  deriving DecidableEq

/-- The events of a cycle. -/
def events (s : System) (i : Input) : List Event :=
  (if s.mmult.begins s.apStart then [.started s.args] else []) ++
    (if s.apDone i then [.finished] else []) ++
      if s.clBoxDone i then ((s.clBoxProduced i).args.map .completed).toList else []

/-- The two kernels under their two machines, with the history of events. -/
def dispatch : Machine (System × List Event) Input :=
  Machine.watch ⟨System.reset, System.step⟩ [] fun h s i => h ++ events s i

/-- The events of one job. -/
def job (args : MmultArgs) : List Event := [.completed args, .started args, .finished]

/-- The events of the job under way: its arguments are in the registers. -/
def underWay (s : System) : List Event :=
  if s.mmult.running then [.completed s.args, .started s.args]
  else if s.apStart then [.completed s.args] else []

/-- **Dispatch.**  The history consists of whole jobs, one after the other, and of the job
under way.  When `mmult` is about to start, its arguments are marked as new. -/
structure Dispatched (x : System × List Event) : Prop where
  jobs : ∃ jobs : List MmultArgs, x.2 = jobs.flatMap job ++ underWay x.1
  valid : x.1.mmult.begins x.1.apStart = true → x.1.newReqReg = true

/-! ## The invariant -/

/-- What the two machines and the two kernels do, by the state of the first machine. -/
def Settled (s : System) : Prop :=
  match s.kernelState with
  | .clIdle => s.clBoxStart = false ∧ s.clBox.running = false ∧ s.compState = .computeIdle ∧
      s.apStart = false ∧ s.mmult.running = false
  | .clBoxActive => s.clBoxStart = true ∧ s.compState = .computeIdle ∧ s.apStart = false ∧
      s.mmult.running = false ∧
      (s.clBox.running = true → ∃ r : MmultArgs, s.args = r.latch s.produced)
  | .clKernelActive => s.clBoxStart = false ∧ s.clBox.running = false ∧
      s.compState = .computeBusy ∧ s.apStart = true ∧
      (s.mmult.running = false → s.newReqReg = true)

/-- A cycle of the history: the machines stay settled, and the events of the cycle take the
history from one job under way to the next. -/
def Advances (s : System) (i : Input) : Prop :=
  Settled (s.step i) ∧ ∃ jobs : List MmultArgs,
    underWay s ++ events s i = jobs.flatMap job ++ underWay (s.step i)

section Steps

variable {s : System} (i : Input)

/-- A `cl_box` that is not working does nothing. -/
theorem clBox_quiet (hstart : s.clBoxStart = false) (hrun : s.clBox.running = false) :
    s.clBoxDone i = false ∧ s.clBoxOut i = .none ∧ (s.step i).clBox.running = false := by
  have hactive : s.clBox.active s.clBoxStart = false := by simp [Block.active, hstart, hrun]
  exact ⟨by simp [System.clBoxDone, Block.apDone, hactive], by simp [System.clBoxOut, hactive],
    by simp [System.step, Block.step, hactive]⟩

/-- Nor does such an `mmult`. -/
theorem mmult_quiet (hap : s.apStart = false) (hmm : s.mmult.running = false) :
    s.apDone i = false ∧ s.apIdle = true ∧ (s.step i).mmult.running = false := by
  have hactive : s.mmult.active s.apStart = false := by simp [Block.active, hap, hmm]
  exact ⟨by simp [System.apDone, Block.apDone, hactive],
    by simp [System.apIdle, Block.apIdle, hactive], by simp [System.step, Block.step, hactive]⟩

/-- No job is under way, and nothing happens. -/
theorem underWay_quiet (hap : s.apStart = false) (hmm : s.mmult.running = false)
    (hdone : s.clBoxDone i = false) : underWay s ++ events s i = [] := by
  have hap' := (mmult_quiet i hap hmm).1
  simp [underWay, events, Block.begins, hap, hmm, hap', hdone]

/-- No job is under way once both are out. -/
theorem underWay_eq_nil (hap : s.apStart = false) (hmm : s.mmult.running = false) :
    underWay s = [] := by
  simp [underWay, hap, hmm]

/-- The first machine waits for a command. -/
theorem advances_clIdle (h : Settled s) (hstate : s.kernelState = .clIdle) : Advances s i := by
  simp only [Settled, hstate] at h
  obtain ⟨hstart, hrun, hcomp, hap, hmm⟩ := h
  obtain ⟨hdone, -, hrun'⟩ := clBox_quiet i hstart hrun
  obtain ⟨-, -, hmm'⟩ := mmult_quiet i hap hmm
  have hcomp' : s.nextComp i = (.computeIdle, false) := by
    simp [System.nextComp, hcomp, hdone]
  refine ⟨?_, [], ?_⟩
  · by_cases hgo : s.clBoxIdle && s.apIdle && !i.ctlCmdAfifoEmpty
    · have hnext : s.nextKernel i = (.clBoxActive, true) := by
        simp only [System.nextKernel, hstate, hgo, if_true]
      have hstate' : (s.step i).kernelState = .clBoxActive := congrArg Prod.fst hnext
      simp only [Settled, hstate']
      exact ⟨congrArg Prod.snd hnext, congrArg Prod.fst hcomp', congrArg Prod.snd hcomp', hmm',
        fun hr => absurd (hrun'.symm.trans hr) Bool.false_ne_true⟩
    · have hnext : s.nextKernel i = (.clIdle, false) := by
        simp only [System.nextKernel, hstate, hgo, if_false, Bool.false_eq_true]
      have hstate' : (s.step i).kernelState = .clIdle := congrArg Prod.fst hnext
      simp only [Settled, hstate']
      exact ⟨congrArg Prod.snd hnext, hrun', congrArg Prod.fst hcomp',
        congrArg Prod.snd hcomp', hmm'⟩
  · rw [underWay_quiet i hap hmm hdone, underWay_eq_nil (congrArg Prod.snd hcomp') hmm']
    rfl

/-- What `cl_box` has put out is what the registers hold. -/
theorem args_clBoxActive (hstart : s.clBoxStart = true)
    (hargs : s.clBox.running = true → ∃ r : MmultArgs, s.args = r.latch s.produced) :
    ∃ r : MmultArgs, (s.step i).args = r.latch (s.clBoxProduced i) := by
  have hout : s.clBoxOut i = i.out := by simp [System.clBoxOut, Block.active, hstart]
  cases hrun : s.clBox.running with
  | false =>
    refine ⟨s.args, ?_⟩
    rw [System.clBoxProduced, hrun, hout, ← latch_latch]
    show s.args.latch (s.clBoxOut i) = _
    rw [hout]
    rfl
  | true =>
    obtain ⟨r, hr⟩ := hargs hrun
    refine ⟨r, ?_⟩
    rw [System.clBoxProduced, hrun, hout, if_pos rfl, ← latch_latch, ← hr, ← hout]
    rfl

/-- `cl_box` works, and starts `mmult` when it is done. -/
theorem advances_clBoxActive (h : Settled s) (hstate : s.kernelState = .clBoxActive) :
    Advances s i := by
  simp only [Settled, hstate] at h
  obtain ⟨hstart, hcomp, hap, hmm, hargs⟩ := h
  obtain ⟨r, hr⟩ := args_clBoxActive i hstart hargs
  obtain ⟨hap', hidle, hmm'⟩ := mmult_quiet i hap hmm
  cases hdone : s.clBoxDone i with
  | false =>
    have hnext : s.nextKernel i = (.clBoxActive, true) := by
      simp [System.nextKernel, hstate, hdone]
    have hcomp' : s.nextComp i = (.computeIdle, false) := by
      simp [System.nextComp, hcomp, hdone]
    have hstate' : (s.step i).kernelState = .clBoxActive := congrArg Prod.fst hnext
    have hap'' : (s.step i).apStart = false := congrArg Prod.snd hcomp'
    refine ⟨?_, [], ?_⟩
    · simp only [Settled, hstate']
      exact ⟨congrArg Prod.snd hnext, congrArg Prod.fst hcomp', hap'', hmm', fun _ => ⟨r, hr⟩⟩
    · rw [underWay_quiet i hap hmm hdone, underWay_eq_nil hap'' hmm']
      rfl
  | true =>
    have hnext : s.nextKernel i = (.clKernelActive, false) := by
      simp [System.nextKernel, hstate, hdone, hap']
    have hcomp' : s.nextComp i = (.computeBusy, true) := by
      simp [System.nextComp, hcomp, hdone, hidle]
    have hstate' : (s.step i).kernelState = .clKernelActive := congrArg Prod.fst hnext
    have hap'' : (s.step i).apStart = true := congrArg Prod.snd hcomp'
    have hlast : s.clBoxLast i = true := (Bool.and_eq_true_iff.mp hdone).2
    obtain ⟨a, ha⟩ := Option.isSome_iff_exists.mp (Bool.and_eq_true_iff.mp hlast).2
    have hnew : (s.step i).args = a := by rw [hr, latch_of_args ha]
    refine ⟨?_, [], ?_⟩
    · simp only [Settled, hstate']
      refine ⟨congrArg Prod.snd hnext, ?_, congrArg Prod.fst hcomp', hap'', fun _ => hdone⟩
      simp [System.step, Block.step, hlast]
    · simp [underWay, events, Block.begins, hap, hmm, hap', hdone, hap'', hmm', ha, hnew]

/-- `mmult` works. -/
theorem advances_clKernelActive (h : Settled s) (hstate : s.kernelState = .clKernelActive) :
    Advances s i := by
  simp only [Settled, hstate] at h
  obtain ⟨hstart, hrun, hcomp, hap, hnew⟩ := h
  obtain ⟨hdone, hout, hrun'⟩ := clBox_quiet i hstart hrun
  have hargs : (s.step i).args = s.args := by
    show s.args.latch (s.clBoxOut i) = _
    rw [hout, latch_none]
  -- the job under way, once it has begun
  have hbegun : underWay s ++ (if s.mmult.begins s.apStart then [.started s.args] else []) =
      [.completed s.args, .started s.args] := by
    cases hmm : s.mmult.running <;> simp [underWay, Block.begins, hmm, hap]
  have hevents : underWay s ++ events s i =
      [.completed s.args, .started s.args] ++ if s.apDone i then [.finished] else [] := by
    rw [events, hdone, ← hbegun]
    simp only [Bool.false_eq_true, if_false, List.append_nil, List.append_assoc]
  cases hap' : s.apDone i with
  | false =>
    have hlast : i.mmultLast = false := by
      simpa [System.apDone, Block.apDone, Block.active, hap] using hap'
    have hnext : s.nextKernel i = (.clKernelActive, false) := by
      simp [System.nextKernel, hstate, hap']
    have hcomp' : s.nextComp i = (.computeBusy, true) := by
      simp [System.nextComp, hcomp, System.apReady, hap']
    have hstate' : (s.step i).kernelState = .clKernelActive := congrArg Prod.fst hnext
    have hmm' : (s.step i).mmult.running = true := by
      simp [System.step, Block.step, Block.active, hap, hlast]
    refine ⟨?_, [], ?_⟩
    · simp only [Settled, hstate']
      exact ⟨congrArg Prod.snd hnext, hrun', congrArg Prod.fst hcomp', congrArg Prod.snd hcomp',
        fun hr => absurd (hr.symm.trans hmm') Bool.false_ne_true⟩
    · rw [hevents, hap', underWay, hmm', hargs]
      rfl
  | true =>
    have hlast : i.mmultLast = true := (Bool.and_eq_true_iff.mp hap').2
    have hnext : s.nextKernel i = (.clIdle, false) := by
      simp [System.nextKernel, hstate, hap']
    have hcomp' : s.nextComp i = (.computeIdle, false) := by
      simp [System.nextComp, hcomp, System.apReady, hap']
    have hstate' : (s.step i).kernelState = .clIdle := congrArg Prod.fst hnext
    have hap'' : (s.step i).apStart = false := congrArg Prod.snd hcomp'
    have hmm' : (s.step i).mmult.running = false := by
      simp [System.step, Block.step, hlast]
    refine ⟨?_, [s.args], ?_⟩
    · simp only [Settled, hstate']
      exact ⟨congrArg Prod.snd hnext, hrun', congrArg Prod.fst hcomp', hap'', hmm'⟩
    · rw [hevents, hap', underWay, hmm', hap'']
      rfl

/-- **One cycle.** -/
theorem Settled.advances (h : Settled s) : Advances s i := by
  cases hstate : s.kernelState with
  | clIdle => exact advances_clIdle i h hstate
  | clBoxActive => exact advances_clBoxActive i h hstate
  | clKernelActive => exact advances_clKernelActive i h hstate

end Steps

/-- Settled machines mark new arguments. -/
theorem Settled.valid {s : System} (h : Settled s) (hbegins : s.mmult.begins s.apStart = true) :
    s.newReqReg = true := by
  simp only [Block.begins, Bool.and_eq_true, Bool.not_eq_true'] at hbegins
  cases hstate : s.kernelState <;> simp only [Settled, hstate] at h
  case clIdle => exact absurd (h.2.2.2.1.symm.trans hbegins.2) Bool.false_ne_true
  case clBoxActive => exact absurd (h.2.2.1.symm.trans hbegins.2) Bool.false_ne_true
  case clKernelActive => exact h.2.2.2.2 hbegins.1

/-- **Kernel dispatch.**  Whatever the latencies of the two kernels are, each completion of
`cl_box` starts `mmult` once, with the arguments of that completion, and not before its run
for the completion before has finished. -/
theorem dispatched_run (is : List Input) :
    dispatch.Always Dispatched dispatch.reset is := by
  have hinv : dispatch.Always
      (fun x => Settled x.1 ∧ ∃ jobs : List MmultArgs, x.2 = jobs.flatMap job ++ underWay x.1)
      dispatch.reset is := by
    refine Machine.always_of_step (fun x i h => ?_) ⟨⟨rfl, rfl, rfl, rfl, rfl⟩, [], rfl⟩ is
    obtain ⟨hsettled, jobs, hjobs⟩ := h
    obtain ⟨hnext, more, hmore⟩ := hsettled.advances i
    refine ⟨hnext, jobs ++ more, ?_⟩
    show x.2 ++ events x.1 i = _
    rw [hjobs, List.append_assoc, hmore, List.flatMap_append, List.append_assoc]
    rfl
  exact hinv.mono fun x h => ⟨h.2, h.1.valid⟩

end Dispatch
end RecoNIC
