import RecoNIC.Synchronous.AsyncFifo
import RecoNIC.Synchronous.Machine
import Mathlib.Data.BitVec
import Mathlib.Data.List.Basic

/-!
# Waiting for a job

A kernel that has finished writes its work ID into the status FIFO.  The host reads the FIFO
through the register `KER_STS`, and `wait_compute` reads until the answer differs from zero.

The two sides disagree on what "nothing yet" looks like.  The device answers an empty FIFO
with `0xdeadbeef`, which `wait_compute` returns as a work ID; and the work ID zero, which the
device takes out of its FIFO, is what `wait_compute` goes on waiting for.  A run reports its
jobs iff neither is ever read (`reports_iff_shown`).
-/

namespace RecoNIC
namespace KernelStatus

open Synchronous

/-! ## The host: `control_api.c` -/

/-- `wait_compute`: what it returns and the answers it has not read; `none` while it polls. -/
def waitCompute : List (BitVec 32) → Option (BitVec 32 × List (BitVec 32))
  | [] => none
  | computeDone :: reads =>
    if computeDone = 0 then waitCompute reads else some (computeDone, reads)

/-- What at most `n` calls of `wait_compute`, one after the other, return. -/
def waitCalls : Nat → List (BitVec 32) → List (BitVec 32)
  | 0, _ => []
  | n + 1, reads =>
    match waitCompute reads with
    | none => []
    | some (workId, rest) => workId :: waitCalls n rest

/-- The values returned when these answers have been read. -/
def returned (reads : List (BitVec 32)) : List (BitVec 32) := waitCalls reads.length reads

/-- A call returns the first answer that is not zero. -/
theorem waitCalls_eq_filter {n : Nat} {reads : List (BitVec 32)} (hn : reads.length ≤ n) :
    waitCalls n reads = reads.filter (· ≠ 0) := by
  induction reads generalizing n with
  | nil => cases n <;> rfl
  | cons v reads ih =>
    obtain ⟨n, rfl⟩ : ∃ m, n = m + 1 := ⟨n - 1, by simp at hn; omega⟩
    have hlen : reads.length ≤ n := by simpa using hn
    by_cases hv : v = 0
    · have hskip := ih (n := n + 1) (by omega)
      rw [waitCalls] at hskip ⊢
      rw [waitCompute, if_pos hv, hskip, List.filter_cons_of_neg (by simpa using hv)]
    · rw [waitCalls, waitCompute, if_neg hv, List.filter_cons_of_pos (by simpa using hv)]
      show v :: waitCalls n reads = _
      rw [ih hlen]

theorem returned_concat (reads : List (BitVec 32)) (v : BitVec 32) :
    returned (reads ++ [v]) = returned reads ++ if v = 0 then [] else [v] := by
  rw [returned, returned, waitCalls_eq_filter (Nat.le_refl _),
    waitCalls_eq_filter (Nat.le_refl _), List.filter_append]
  by_cases hv : v = 0
  · rw [if_pos hv, List.filter_cons_of_neg (by simpa using hv), List.filter_nil]
  · rw [if_neg hv, List.filter_cons_of_pos (by simpa using hv), List.filter_nil]

/-! ## The device: the read interface of `control_command_processor` -/

/-- `axil_read_state`. -/
inductive AxilReadState where
  | idle | resp
  deriving DecidableEq

/-- The registers of the read interface. -/
structure Regs where
  arready : Bool
  rvalid : Bool
  rdata : BitVec 32
  kerStatusRdEn : Bool
  axilReadState : AxilReadState
  deriving DecidableEq

/-- The signals of the host in one cycle. -/
structure Bus where
  arvalid : Bool
  araddr : BitVec 12
  rready : Bool

/-- `KER_STS`. -/
def kerSts : BitVec 12 := 0x004

/-- `DEFAULT_VALUE`. -/
def defaultValue : BitVec 32 := 0xdeadbeef

namespace Regs

/-- After reset. -/
def reset : Regs := ⟨true, false, 0, false, .idle⟩

/-- One clock edge.  `empty` and `dout` come from the status FIFO, and `others` is what the
other addresses answer. -/
def step (s : Regs) (empty : Bool) (dout : BitVec 32) (others : BitVec 12 → BitVec 32)
    (i : Bus) : Regs :=
  match s.axilReadState with
  | .idle =>
    if s.arready && i.arvalid then
      { arready := false
        rvalid := true
        rdata := if i.araddr = kerSts then if !empty then dout else defaultValue
          else others i.araddr
        kerStatusRdEn := decide (i.araddr = kerSts) && !empty
        axilReadState := .resp }
    else { s with kerStatusRdEn := false }
  | .resp =>
    if i.rready && s.rvalid then
      { s with arready := true, rvalid := false, kerStatusRdEn := false, axilReadState := .idle }
    else { s with kerStatusRdEn := false }

end Regs

/-! ## The two together -/

variable (F : AsyncFifo (BitVec 32))

/-- The read interface and the status FIFO. -/
structure Status where
  port : Regs
  fifo : F.State

/-- An edge of the clock of the bus, where `wait_compute` polls `KER_STS`, or of the clock of
the kernel, which may have finished a job. -/
inductive Edge where
  | axil (arvalid rready : Bool)
  | axis (workId : Option (BitVec 16))
  deriving DecidableEq

variable {F}

/-- What the host does in a cycle. -/
def poll (arvalid rready : Bool) : Bus := ⟨arvalid, kerSts, rready⟩

/-- An edge of the bus. -/
def Status.bus (s : Status F) (others : BitVec 12 → BitVec 32) (i : Bus) : Status F :=
  ⟨s.port.step (F.empty s.fifo) (F.dout s.fifo) others i, F.stepRd s.fifo s.port.kerStatusRdEn⟩

/-- An edge of the kernel. -/
def Status.kernel (s : Status F) (wrEn : Bool) (workId : BitVec 32) : Status F :=
  ⟨s.port, F.stepWr s.fifo wrEn workId⟩

/-- One edge.  No answer of another register is asked for. -/
def Status.step (s : Status F) : Edge → Status F
  | .axil arvalid rready => s.bus (fun _ => defaultValue) (poll arvalid rready)
  | .axis workId => s.kernel workId.isSome ((workId.getD 0).setWidth 32)

/-- The jobs whose work IDs the status FIFO has accepted, and the answers the host has read. -/
structure Record where
  completed : List (BitVec 32)
  answers : List (BitVec 32)
  deriving DecidableEq

/-- The work ID that the status FIFO accepts at an edge of the kernel. -/
def accepted (s : Status F) (workId : Option (BitVec 16)) : List (BitVec 32) :=
  if workId.isSome && (!F.full s.fifo && !F.wrRstBusy s.fifo) then
    [(workId.getD 0).setWidth 32] else []

/-- What one edge adds. -/
def Record.note (l : Record) (s : Status F) : Edge → Record
  | .axil _ rready =>
    { l with answers := l.answers ++ if s.port.rvalid && rready then [s.port.rdata] else [] }
  | .axis workId => { l with completed := l.completed ++ accepted s workId }

variable (F) in
/-- The status path with its record. -/
def kernelStatus : Machine (Status F × Record) Edge :=
  Machine.watch ⟨⟨Regs.reset, F.reset⟩, Status.step⟩ ⟨[], []⟩ Record.note

/-- What a read has not taken out of the FIFO. -/
def Status.kept (s : Status F) : List (BitVec 32) :=
  if s.port.kerStatusRdEn then (F.contents s.fifo).tail else F.contents s.fifo

/-- The work IDs that are on their way to `wait_compute`: an answer on the bus that it will
return, and what a read has not taken out of the FIFO. -/
def Status.onTheWay (s : Status F) : List (BitVec 32) :=
  (if s.port.rvalid && decide (s.port.rdata ≠ 0) then [s.port.rdata] else []) ++ s.kept

/-- **Real completions.**  The jobs that have completed are those that `wait_compute` has
returned, once each and in order, followed by those on their way to it. -/
def Reports (x : Status F × Record) : Prop :=
  x.2.completed = returned x.2.answers ++ x.1.onTheWay

/-- A poll that begins at this edge is shown a work ID, and one that is not zero. -/
def Shown (s : Status F) : Edge → Prop
  | .axil arvalid _ => s.port.arready = true → arvalid = true →
      F.empty s.fifo = false ∧ F.dout s.fifo ≠ 0
  | .axis _ => True

instance (x : Status F × Record) : Decidable (Reports x) := inferInstanceAs (Decidable (_ = _))

/-! ## The read interface and the FIFO -/

/-- The read interface shows its state, and the FIFO still has the word it is told to drop. -/
def ReadPort (s : Status F) : Prop :=
  match s.port.axilReadState with
  | .idle => s.port.arready = true ∧ s.port.rvalid = false ∧ s.port.kerStatusRdEn = false
  | .resp => s.port.arready = false ∧ s.port.rvalid = true ∧
      (s.port.kerStatusRdEn = true → F.empty s.fifo = false)

/-- What a request for an address is answered with. -/
def Status.answer (s : Status F) (others : BitVec 12 → BitVec 32) (addr : BitVec 12) : BitVec 32 :=
  if addr = kerSts then if !F.empty s.fifo then F.dout s.fifo else defaultValue else others addr

/-- What an edge of the bus makes of the answer and of the FIFO: nothing, a request, an answer
that waits, or one that is taken. -/
inductive BusEdge (s : Status F) (others : BitVec 12 → BitVec 32) (i : Bus) (t : Status F) : Prop
  | quiet (ready : s.port.arready = true) (valid : s.port.rvalid = false)
      (none : i.arvalid = false) (valid' : t.port.rvalid = false) (kept : t.kept = s.kept)
  | request (ready : s.port.arready = true) (valid : s.port.rvalid = false)
      (some : i.arvalid = true) (valid' : t.port.rvalid = true)
      (rdata : t.port.rdata = s.answer others i.araddr) (all : s.kept = F.contents s.fifo)
      (kept : t.kept = if decide (i.araddr = kerSts) && !F.empty s.fifo then
        (F.contents s.fifo).tail else F.contents s.fifo)
  | wait (ready : s.port.arready = false) (valid : s.port.rvalid = true)
      (none : i.rready = false) (valid' : t.port.rvalid = true)
      (rdata : t.port.rdata = s.port.rdata) (kept : t.kept = s.kept)
  | take (ready : s.port.arready = false) (valid : s.port.rvalid = true)
      (some : i.rready = true) (valid' : t.port.rvalid = false) (kept : t.kept = s.kept)

section Port

variable {s : Status F}

theorem ReadPort.not_empty (h : ReadPort s) (hen : s.port.kerStatusRdEn = true) :
    F.empty s.fifo = false := by
  unfold ReadPort at h
  cases hstate : s.port.axilReadState <;> simp only [hstate] at h
  case idle => exact absurd (h.2.2.symm.trans hen) Bool.false_ne_true
  case resp => exact h.2.2 hen

/-- What an edge of the bus leaves in the FIFO. -/
theorem ReadPort.contents_bus (h : ReadPort s) (others : BitVec 12 → BitVec 32) (i : Bus) :
    F.contents (s.bus others i).fifo = s.kept := by
  refine (F.contents_stepRd ..).trans ?_
  rw [Status.kept]
  cases hen : s.port.kerStatusRdEn with
  | false => rfl
  | true =>
    rw [h.not_empty hen]
    rfl

/-- **One edge of the bus.** -/
theorem ReadPort.busEdge (h : ReadPort s) (others : BitVec 12 → BitVec 32) (i : Bus) :
    BusEdge s others i (s.bus others i) := by
  have hcont := h.contents_bus others i
  have hkept : (s.bus others i).port.kerStatusRdEn = false → (s.bus others i).kept = s.kept := by
    intro hen
    rw [Status.kept, hen, ← hcont]
    rfl
  unfold ReadPort at h
  cases hstate : s.port.axilReadState <;> simp only [hstate] at h
  case idle =>
    obtain ⟨har, hrv, hen⟩ := h
    have hall : s.kept = F.contents s.fifo := by rw [Status.kept, hen, if_neg Bool.false_ne_true]
    cases hav : i.arvalid with
    | false =>
      refine .quiet har hrv hav ?_ (hkept ?_) <;>
        simp [Status.bus, Regs.step, hstate, hav, hrv]
    | true =>
      refine .request har hrv hav ?_ ?_ hall ?_
      · simp [Status.bus, Regs.step, hstate, har, hav]
      · simp [Status.bus, Regs.step, hstate, har, hav, Status.answer]
      · rw [Status.kept, hcont, hall]
        simp [Status.bus, Regs.step, hstate, har, hav]
  case resp =>
    obtain ⟨har, hrv, -⟩ := h
    cases hrr : i.rready with
    | false =>
      refine .wait har hrv hrr ?_ ?_ (hkept ?_) <;>
        simp [Status.bus, Regs.step, hstate, hrr, hrv]
    | true =>
      refine .take har hrv hrr ?_ (hkept ?_) <;> simp [Status.bus, Regs.step, hstate, hrr, hrv]

theorem ReadPort.bus (h : ReadPort s) (others : BitVec 12 → BitVec 32) (i : Bus) :
    ReadPort (s.bus others i) := by
  have hempty := F.empty_stepRd s.fifo
  unfold ReadPort at h
  cases hstate : s.port.axilReadState <;> simp only [hstate] at h
  case idle =>
    obtain ⟨har, hrv, hen⟩ := h
    cases hav : i.arvalid with
    | false => simp [ReadPort, Status.bus, Regs.step, hstate, hav, har, hrv]
    | true =>
      simp only [ReadPort, Status.bus, Regs.step, hstate, har, hav, Bool.and_self, if_true,
        true_and, hen]
      intro hrd
      exact hempty (by simpa using (Bool.and_eq_true_iff.mp hrd).2)
  case resp =>
    obtain ⟨har, hrv, -⟩ := h
    cases hrr : i.rready <;> simp [ReadPort, Status.bus, Regs.step, hstate, hrr, har, hrv]

theorem ReadPort.kernel (h : ReadPort s) (wrEn : Bool) (workId : BitVec 32) :
    ReadPort (s.kernel wrEn workId) := by
  have hport : (s.kernel wrEn workId).port = s.port := rfl
  simp only [ReadPort, hport] at h ⊢
  cases hstate : s.port.axilReadState <;> simp only [hstate] at h ⊢
  case idle => exact h
  case resp => exact ⟨h.1, h.2.1, fun hen => F.empty_stepWr _ _ _ (h.2.2 hen)⟩

/-- A work ID goes behind everything in the FIFO. -/
theorem ReadPort.kept_kernel (h : ReadPort s) (wrEn : Bool) (workId : BitVec 32) :
    (s.kernel wrEn workId).kept =
      s.kept ++ if wrEn && (!F.full s.fifo && !F.wrRstBusy s.fifo) then [workId] else [] := by
  have hcont : F.contents (s.kernel wrEn workId).fifo = _ := F.contents_stepWr ..
  rw [Status.kept, hcont, Status.kept]
  show (if s.port.kerStatusRdEn then _ else _) = _
  cases hen : s.port.kerStatusRdEn with
  | false => rfl
  | true => exact List.tail_append_of_ne_nil (F.contents_ne_nil (h.not_empty hen))

end Port

/-! ## The invariant -/

/-- The read interface is in order, and an answer on the bus is a work ID. -/
structure PortOk (s : Status F) : Prop where
  port : ReadPort s
  answer : s.port.rvalid = true → s.port.rdata ≠ 0

section Steps

variable {s : Status F}

/-- A poll that is shown a work ID is answered with it. -/
theorem answer_poll {arvalid rready : Bool} (others : BitVec 12 → BitVec 32)
    (hne : F.empty s.fifo = false) :
    s.answer others (poll arvalid rready).araddr = F.dout s.fifo := by
  rw [Status.answer, hne]
  rfl

/-- The answers that an edge adds, and what is on its way after it, make up what was on its
way before. -/
theorem onTheWay_axil (h : PortOk s) {arvalid rready : Bool}
    (hshown : Shown s (.axil arvalid rready)) (answers : List (BitVec 32)) :
    returned (answers ++ if s.port.rvalid && rready then [s.port.rdata] else []) ++
        (s.step (.axil arvalid rready)).onTheWay = returned answers ++ s.onTheWay ∧
      PortOk (s.step (.axil arvalid rready)) := by
  have hport : ReadPort (s.step (.axil arvalid rready)) := h.port.bus _ _
  rw [Status.onTheWay, Status.onTheWay]
  cases h.port.busEdge (fun _ => defaultValue) (poll arvalid rready) with
  | quiet _ hrv _ hrv' hkept =>
    refine ⟨?_, hport, fun hval => absurd (hrv'.symm.trans hval) Bool.false_ne_true⟩
    rw [Status.step, hrv, hrv', hkept, Bool.false_and, if_neg Bool.false_ne_true, List.append_nil]
    rfl
  | request har hrv hav hrv' hdata hall hkept =>
    obtain ⟨hne, hdout⟩ := hshown har hav
    rw [answer_poll _ hne] at hdata
    have hnew : (s.step (.axil arvalid rready)).port.rdata ≠ 0 := fun h0 => hdout (hdata ▸ h0)
    refine ⟨?_, hport, fun _ => hnew⟩
    have hcons := F.contents_eq_cons s.fifo hne
    have h0 : ¬ F.dout s.fifo = 0#32 := hdout
    rw [Status.step, hrv, hrv', hkept, hdata, hall, hne, hcons]
    simp [poll, h0]
  | wait _ hrv hrr hrv' hdata hkept =>
    refine ⟨?_, hport, fun _ => hdata.symm ▸ h.answer hrv⟩
    rw [Status.step, hrv, hrv', hdata, hkept, show rready = false from hrr]
    simp
  | take _ hrv hrr hrv' hkept =>
    refine ⟨?_, hport, fun hval => absurd (hrv'.symm.trans hval) Bool.false_ne_true⟩
    have hne : s.port.rdata ≠ 0 := h.answer hrv
    rw [Status.step, hrv, hrv', hkept, show rready = true from hrr, Bool.and_self, if_pos rfl,
      returned_concat, if_neg hne, decide_eq_true hne]
    simp

/-- A poll that is not shown a work ID makes one up, or loses one. -/
theorem onTheWay_not_shown (h : PortOk s) {e : Edge} (hno : ¬ Shown s e) (l : Record) :
    (l.note s e).completed = l.completed ∧ returned (l.note s e).answers = returned l.answers ∧
      (s.step e).onTheWay ≠ s.onTheWay := by
  cases e with
  | axis workId => exact absurd trivial hno
  | axil arvalid rready =>
    simp only [Shown, Classical.not_imp, not_and, not_not] at hno
    obtain ⟨har, hav, hbad⟩ := hno
    cases h.port.busEdge (fun _ => defaultValue) (poll arvalid rready) with
    | quiet _ _ hno => exact absurd (hno.symm.trans hav) Bool.false_ne_true
    | wait hno => exact absurd (hno.symm.trans har) Bool.false_ne_true
    | take hno => exact absurd (hno.symm.trans har) Bool.false_ne_true
    | request _ hrv _ hrv' hdata hall hkept =>
      refine ⟨rfl, by simp [Record.note, hrv], fun heq => ?_⟩
      have hlen := congrArg List.length heq
      rw [Status.onTheWay, Status.onTheWay, Status.step, hrv, hrv', hkept, hdata, hall] at hlen
      cases hne : F.empty s.fifo with
      | true => simp [Status.answer, hne, poll, defaultValue] at hlen
      | false =>
        have hcons := F.contents_eq_cons s.fifo hne
        rw [answer_poll _ hne, hbad hne, hcons, hne] at hlen
        simp [poll] at hlen

/-- A completion goes behind everything that is on its way. -/
theorem onTheWay_axis (h : PortOk s) (workId : Option (BitVec 16)) :
    (s.step (.axis workId)).onTheWay = s.onTheWay ++ accepted s workId ∧
      PortOk (s.step (.axis workId)) := by
  refine ⟨?_, h.port.kernel _ _, h.answer⟩
  have hkept := h.port.kept_kernel workId.isSome ((workId.getD 0).setWidth 32)
  rw [Status.onTheWay, Status.onTheWay, Status.step, hkept, List.append_assoc]
  rfl

end Steps

/-- The record is right and the read interface in order. -/
structure Polls (x : Status F × Record) : Prop where
  reports : Reports x
  port : PortOk x.1

section Run

variable {x : Status F × Record} {e : Edge}

theorem polls_reset (F : AsyncFifo (BitVec 32)) : Polls (kernelStatus F).reset := by
  refine ⟨?_, ⟨rfl, rfl, rfl⟩, fun h => by cases h⟩
  show [] = returned [] ++ ([] ++ F.contents F.reset)
  rw [F.contents_reset]
  rfl

theorem Polls.step (h : Polls x) (hshown : Shown x.1 e) :
    Polls ((kernelStatus F).step x e) := by
  have hreports := h.reports
  rw [Reports] at hreports
  cases e with
  | axil arvalid rready =>
    obtain ⟨hway, hport⟩ := onTheWay_axil h.port hshown x.2.answers
    exact ⟨hreports.trans hway.symm, hport⟩
  | axis workId =>
    obtain ⟨hway, hport⟩ := onTheWay_axis h.port workId
    refine ⟨?_, hport⟩
    show x.2.completed ++ accepted x.1 workId =
      returned x.2.answers ++ (x.1.step (.axis workId)).onTheWay
    rw [hway, hreports, List.append_assoc]

theorem Polls.lost (h : Polls x) (hno : ¬ Shown x.1 e) :
    ¬ Reports ((kernelStatus F).step x e) := by
  intro hnext
  obtain ⟨hcompleted, hreturned, hway⟩ := onTheWay_not_shown h.port hno x.2
  have hsame : (x.2.note x.1 e).completed =
      returned (x.2.note x.1 e).answers ++ (x.1.step e).onTheWay := hnext
  rw [hcompleted, hreturned, show x.2.completed = _ from h.reports] at hsame
  exact hway (List.append_cancel_left hsame).symm

end Run

/-- **Waiting for jobs.**  For each status FIFO that is as its data sheet says, and each timing
of polls and completions: `wait_compute` returns the work IDs of the completed jobs, once each
and in order, and misses none, iff every poll is shown a work ID other than zero. -/
theorem reports_iff_shown (F : AsyncFifo (BitVec 32)) (es : List Edge) :
    (kernelStatus F).Always Reports (kernelStatus F).reset es ↔
      (kernelStatus F).Guarded (fun x e => Shown x.1 e) (kernelStatus F).reset es :=
  Machine.always_iff_guarded (fun _ (h : Polls _) => h.reports)
    (fun _ _ h _ hshown => h.step hshown) (fun _ _ h _ hno => h.lost hno) (polls_reset F)
    (Machine.guarded_true _ _)

/-- A poll before the first job has completed returns `0xdeadbeef`, and a job with the work ID
zero is never returned. -/
theorem reports_made_up_and_missed :
    ((kernelStatus (AsyncFifo.ofDepth 16 0 0)).run
        [.axil true false, .axil false true]).2 = ⟨[], [0xdeadbeef]⟩ ∧
      returned [0xdeadbeef] = [0xdeadbeef] ∧
      ¬ (kernelStatus (AsyncFifo.ofDepth 16 0 0)).Always Reports
        (kernelStatus (AsyncFifo.ofDepth 16 0 0)).reset [.axil true false, .axil false true] ∧
      ((kernelStatus (AsyncFifo.ofDepth 16 0 0)).run
        [.axis (some 0), .axil true false, .axil false true]).2 = ⟨[0], [0]⟩ ∧
      returned [0] = [] ∧
      ¬ (kernelStatus (AsyncFifo.ofDepth 16 0 0)).Always Reports
        (kernelStatus (AsyncFifo.ofDepth 16 0 0)).reset
        [.axis (some 0), .axil true false, .axil false true] := by
  decide +kernel

end KernelStatus
end RecoNIC
