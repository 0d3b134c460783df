import RecoNIC.Compute.WritePort
import RecoNIC.Synchronous.AsyncFifo
import Mathlib.Data.List.Basic

/-!
# From the bus to the command FIFO

The write interface of `Compute.WritePort` in front of the command FIFO, whose other end is
read by the kernel with a clock of its own.  The FIFO is that of the vendor; what is used of
it is `AsyncFifo`.

A host that follows the rules of the bus can lose a command in three ways (`Undisturbed`):

* `AXIL_WRITE_WREADY` looks at `full` only.  A command that comes behind its address is
  written while the FIFO is still busy with its reset, and is gone;
* `wready` stays high in `AXIL_WRITE_WAIT`.  A beat that comes ahead of its address is
  accepted there, and nothing keeps it;
* `awready` is high in `AXIL_WRITE_RESP`, where no address is taken.

There is no other way (`queued_run`).
-/

namespace RecoNIC
namespace CommandPort

open Synchronous

variable (F : AsyncFifo (BitVec 32))

/-! ## The two clocks -/

/-- The write interface and the command FIFO. -/
structure Queue where
  port : Regs
  fifo : F.State

/-- An edge of the clock of the bus, or of the clock of the kernel, with its `rd_en`. -/
inductive Edge where
  | axil (bus : Bus)
  | axis (rdEn : Bool)
  deriving DecidableEq

variable {F}

/-- One edge. -/
def Queue.step (q : Queue F) : Edge → Queue F
  | .axil bus =>
    ⟨q.port.step (F.full q.fifo) (F.wrRstBusy q.fifo) bus,
      F.stepWr q.fifo q.port.ctlCmdWrEn q.port.ctlCmdData⟩
  | .axis rdEn => ⟨q.port, F.stepRd q.fifo rdEn⟩

/-- What has passed the bus and the kernel side: the addresses and the data that have been
accepted, those that are offered and have not been, and the words the kernel has read. -/
structure Passed where
  addrs : List (BitVec 12)
  beats : List (BitVec 32)
  addrOffered : Option (BitVec 12)
  beatOffered : Option (BitVec 32)
  read : List (BitVec 32)
  deriving DecidableEq

/-- What one edge adds. -/
def Passed.note (l : Passed) (q : Queue F) : Edge → Passed
  | .axil bus =>
    { l with
      addrs := l.addrs ++ if takesAddr q.port bus then [bus.awaddr] else []
      beats := l.beats ++ if takesData q.port bus then [bus.wdata] else []
      addrOffered := if bus.awvalid && !q.port.awready then some bus.awaddr else none
      beatOffered := if bus.wvalid && !q.port.wready then some bus.wdata else none }
  | .axis rdEn => { l with read := l.read ++ F.taken q.fifo rdEn }

variable (F) in
/-- The queue with the list of what has passed. -/
def commandQueue : Machine (Queue F × Passed) Edge :=
  Machine.watch ⟨⟨Regs.reset, F.reset⟩, Queue.step⟩ ⟨[], [], none, none, []⟩ Passed.note

/-- The writes whose address and data have both been accepted: the addresses and the data
belong together in their order. -/
def Passed.writes (l : Passed) : List (BitVec 12 × BitVec 32) := l.addrs.zip l.beats

/-- The words that writes put into `CTL_CMD`. -/
def commands (ws : List (BitVec 12 × BitVec 32)) : List (BitVec 32) :=
  (ws.filter fun w => w.1 = ctlCmd).map Prod.snd

/-- The words that the kernel has read or can read. -/
def delivered (x : Queue F × Passed) : List (BitVec 32) := x.2.read ++ F.contents x.1.fifo

/-- **Queued once.**  The words delivered are the first commands written, in their order, and
when the write interface is at rest they are all of them. -/
structure Queued (x : Queue F × Passed) : Prop where
  inOrder : delivered x <+: commands x.2.writes
  all : x.1.port.axilWriteState = .idle → delivered x = commands x.2.writes

/-- The rules of the bus: what has been offered and not accepted is offered again. -/
def Compliant (x : Queue F × Passed) : Edge → Prop
  | .axil bus =>
    (∀ a ∈ x.2.addrOffered, bus.awvalid = true ∧ bus.awaddr = a) ∧
      ∀ d ∈ x.2.beatOffered, bus.wvalid = true ∧ bus.wdata = d
  | .axis _ => True

/-- The edge does not lose a command: no word is written to the FIFO while it is busy with its
reset, no new beat comes while `wready` is left high after its beat, and no address comes
while a response is held. -/
def Undisturbed (x : Queue F × Passed) : Edge → Prop
  | .axil bus =>
    (x.1.port.ctlCmdWrEn = true → F.wrRstBusy x.1.fifo = false) ∧
    (x.1.port.axilWriteState = .wait ∨ x.1.port.axilWriteState = .resp →
      x.1.port.wready = true → bus.wvalid = true → x.2.beatOffered ≠ none) ∧
    (x.1.port.axilWriteState = .resp → x.1.port.awready = true → bus.awvalid = false)
  | .axis _ => True

-- stated for options: the general instance would go through all words of 32 bits
instance (x : Queue F × Passed) : ∀ e : Edge, Decidable (Compliant x e)
  | .axil _ => @instDecidableAnd _ _ (Option.decidableForallMem _) (Option.decidableForallMem _)
  | .axis _ => isTrue trivial

instance (x : Queue F × Passed) : ∀ e : Edge, Decidable (Undisturbed x e)
  | .axil _ => inferInstanceAs (Decidable (_ ∧ _))
  | .axis _ => isTrue trivial

/-! ## The invariant -/

/-- The data of the write after `ds`: it has been accepted, or is still offered while `wready`
is high. -/
def Beat (s : Regs) (l : Passed) (ds : List (BitVec 32)) (d : BitVec 32) : Prop :=
  l.beats = ds ++ [d] ∧ (s.wready = true → l.beatOffered = none) ∨
    s.wready = true ∧ l.beats = ds ∧ l.beatOffered = some d

/-- No write is under way. -/
def AtRest (x : Queue F × Passed) : Prop :=
  x.1.port.wready = false ∧ x.1.port.ctlCmdWrEn = false ∧
    x.2.addrs.length = x.2.beats.length ∧ delivered x = commands x.2.writes

/-- The write `(a, d)` is under way: everything before it has been delivered. -/
structure UnderWay (x : Queue F × Passed) (a : BitVec 12) (as : List (BitVec 12))
    (ds : List (BitVec 32)) : Prop where
  addrs : x.2.addrs = as ++ [a]
  length : as.length = ds.length
  delivered : delivered x = commands (as.zip ds)

/-- The command that is being written to the FIFO, if the write is one. -/
def Written (x : Queue F × Passed) (a : BitVec 12) (d : BitVec 32) : Prop :=
  if a = ctlCmd then
    x.1.port.ctlCmdWrEn = true ∧ x.1.port.ctlCmdData = d ∧ F.full x.1.fifo = false
  else x.1.port.ctlCmdWrEn = false

/-- Where a write stands, state by state. -/
def Follows (x : Queue F × Passed) : Prop :=
  match x.1.port.axilWriteState with
  | .idle => x.1.port.awready = true ∧ AtRest x
  | .wready => x.1.port.awready = false ∧ x.1.port.wready = true ∧
      x.1.port.ctlCmdWrEn = false ∧ ∃ as, UnderWay x x.1.port.awaddr as x.2.beats
  | .wait => x.1.port.awready = false ∧ x.1.port.ctlCmdWrEn = false ∧
      ∃ as ds, UnderWay x ctlCmd as ds ∧ Beat x.1.port x.2 ds x.1.port.ctlCmdData
  | .resp => (x.1.port.awready = true ∧ AtRest x) ∨
      (x.1.port.awready = false ∧
        ∃ a d as ds, UnderWay x a as ds ∧ Beat x.1.port x.2 ds d ∧ Written x a d)

theorem commands_concat (ws : List (BitVec 12 × BitVec 32)) (a : BitVec 12) (d : BitVec 32) :
    commands (ws ++ [(a, d)]) = commands ws ++ if a = ctlCmd then [d] else [] := by
  by_cases ha : a = ctlCmd <;> simp [commands, ha]

section Steps

variable {x : Queue F × Passed} {bus : Bus}

/-- The read side changes neither the words delivered nor what the write side sees. -/
theorem delivered_axis (x : Queue F × Passed) (rdEn : Bool) :
    delivered ((commandQueue F).step x (.axis rdEn)) = delivered x := by
  show (x.2.read ++ F.taken x.1.fifo rdEn) ++ F.contents (F.stepRd x.1.fifo rdEn) = _
  rw [List.append_assoc, F.taken_append]
  rfl

/-- What an edge of the bus delivers. -/
theorem delivered_axil (x : Queue F × Passed) (bus : Bus) :
    delivered ((commandQueue F).step x (.axil bus)) = delivered x ++
      if x.1.port.ctlCmdWrEn && (!F.full x.1.fifo && !F.wrRstBusy x.1.fifo) then
        [x.1.port.ctlCmdData] else [] := by
  show x.2.read ++ F.contents (F.stepWr x.1.fifo _ _) = _
  rw [F.contents_stepWr, ← List.append_assoc]
  rfl

theorem delivered_axil_of_not_wrEn (bus : Bus) (h : x.1.port.ctlCmdWrEn = false) :
    delivered ((commandQueue F).step x (.axil bus)) = delivered x := by
  rw [delivered_axil, h]
  simp

/-- The beat of a write that is under way has been accepted after the edge. -/
theorem Beat.step {ds : List (BitVec 32)} {d : BitVec 32} (h : Beat x.1.port x.2 ds d)
    (hcomp : Compliant x (.axil bus))
    (hnew : x.1.port.wready = true → bus.wvalid = true → x.2.beatOffered ≠ none) :
    (x.2.note x.1 (.axil bus)).beats = ds ++ [d] ∧
      (x.1.port.wready = true → (x.2.note x.1 (.axil bus)).beatOffered = none) := by
  refine ⟨?_, fun hready => by simp [Passed.note, hready]⟩
  show x.2.beats ++ (if takesData x.1.port bus then [bus.wdata] else []) = _
  rcases h with ⟨hdone, hnone⟩ | ⟨hready, hdue, hoffer⟩
  · have htake : takesData x.1.port bus = false := by
      cases hready : x.1.port.wready with
      | false => simp [takesData, hready]
      | true =>
        have hvalid : bus.wvalid ≠ true := fun hv => hnew hready hv (hnone hready)
        simpa [takesData, hready] using hvalid
    rw [htake, hdone]
    exact List.append_nil _
  · obtain ⟨hvalid, hdata⟩ := hcomp.2 d hoffer
    have htake : takesData x.1.port bus = true := by simp [takesData, hvalid, hready]
    rw [htake, hdue, hdata]
    rfl

theorem port_axil (x : Queue F × Passed) (bus : Bus) :
    ((commandQueue F).step x (.axil bus)).1.port =
      x.1.port.step (F.full x.1.fifo) (F.wrRstBusy x.1.fifo) bus := rfl

/-- A FIFO with room keeps it until a word is written. -/
theorem full_axil (bus : Bus) (hen : x.1.port.ctlCmdWrEn = false)
    (hroom : F.full x.1.fifo = false) :
    F.full ((commandQueue F).step x (.axil bus)).1.fifo = false := by
  show F.full (F.stepWr x.1.fifo x.1.port.ctlCmdWrEn _) = false
  rw [hen]
  exact F.full_stepWr _ _ hroom

/-- No address is taken while `awready` is low. -/
theorem addrs_axil (bus : Bus) (haw : x.1.port.awready = false) :
    ((commandQueue F).step x (.axil bus)).2.addrs = x.2.addrs := by
  show x.2.addrs ++ (if bus.awvalid && x.1.port.awready then [bus.awaddr] else []) = _
  simp [haw]

theorem follows_idle (hstate : x.1.port.axilWriteState = .idle)
    (haw : x.1.port.awready = true) (hrest : AtRest x) : Follows x := by
  simp only [Follows, hstate]
  exact ⟨haw, hrest⟩

theorem follows_resp_of_rest (hstate : x.1.port.axilWriteState = .resp)
    (haw : x.1.port.awready = true) (hrest : AtRest x) : Follows x := by
  simp only [Follows, hstate]
  exact Or.inl ⟨haw, hrest⟩

theorem follows_wready (as : List (BitVec 12)) (hstate : x.1.port.axilWriteState = .wready)
    (haw : x.1.port.awready = false) (hw : x.1.port.wready = true)
    (hen : x.1.port.ctlCmdWrEn = false) (hunder : UnderWay x x.1.port.awaddr as x.2.beats) :
    Follows x := by
  simp only [Follows, hstate]
  exact ⟨haw, hw, hen, as, hunder⟩

theorem follows_wait {as : List (BitVec 12)} {ds : List (BitVec 32)}
    (hstate : x.1.port.axilWriteState = .wait) (haw : x.1.port.awready = false)
    (hen : x.1.port.ctlCmdWrEn = false) (hunder : UnderWay x ctlCmd as ds)
    (hbeat : Beat x.1.port x.2 ds x.1.port.ctlCmdData) : Follows x := by
  simp only [Follows, hstate]
  exact ⟨haw, hen, as, ds, hunder, hbeat⟩

theorem follows_resp {a : BitVec 12} {d : BitVec 32} {as : List (BitVec 12)}
    {ds : List (BitVec 32)} (hstate : x.1.port.axilWriteState = .resp)
    (haw : x.1.port.awready = false) (hunder : UnderWay x a as ds)
    (hbeat : Beat x.1.port x.2 ds d) (hwritten : Written x a d) : Follows x := by
  simp only [Follows, hstate]
  exact Or.inr ⟨haw, a, d, as, ds, hunder, hbeat, hwritten⟩

theorem Follows.step_idle (h : Follows x) (hstate : x.1.port.axilWriteState = .idle) :
    Follows ((commandQueue F).step x (.axil bus)) := by
  simp only [Follows, hstate] at h
  obtain ⟨haw, hw, hen, hlen, hall⟩ := h
  have hdel := delivered_axil_of_not_wrEn bus hen
  rw [hall] at hdel
  have hport := port_axil x bus
  have hbeats : ((commandQueue F).step x (.axil bus)).2.beats = x.2.beats := by
    show x.2.beats ++ (if bus.wvalid && x.1.port.wready then [bus.wdata] else []) = _
    simp [hw]
  have haddrs : ((commandQueue F).step x (.axil bus)).2.addrs =
      x.2.addrs ++ if bus.awvalid then [bus.awaddr] else [] := by
    show x.2.addrs ++ (if bus.awvalid && x.1.port.awready then [bus.awaddr] else []) = _
    rw [haw, Bool.and_true]
  cases hav : bus.awvalid with
  | false =>
    simp only [hav, Bool.false_eq_true, if_false, List.append_nil] at haddrs
    simp only [Regs.step, hstate, hav, Bool.false_and, Bool.false_eq_true, if_false] at hport
    refine follows_idle (by rw [hport]) (by rw [hport]; exact haw) ⟨by rw [hport]; exact hw,
      by rw [hport], by rw [haddrs, hbeats]; exact hlen, ?_⟩
    rw [hdel, Passed.writes, Passed.writes, haddrs, hbeats]
  | true =>
    simp only [hav, if_true] at haddrs
    have hunder : UnderWay ((commandQueue F).step x (.axil bus)) bus.awaddr x.2.addrs
        x.2.beats := ⟨haddrs, hlen, hdel⟩
    have hoffer (hwv : bus.wvalid = true) :
        ((commandQueue F).step x (.axil bus)).2.beatOffered = some bus.wdata := by
      show (if bus.wvalid && !x.1.port.wready then some bus.wdata else none) = _
      simp [hwv, hw]
    simp only [Regs.step, hstate, hav, haw, hw, Bool.and_self, if_true] at hport
    cases hwv : bus.wvalid with
    | false =>
      simp only [hwv, Bool.false_eq_true, if_false] at hport
      refine follows_wready x.2.addrs (by rw [hport]) (by rw [hport]) (by rw [hport])
        (by rw [hport]) ?_
      rw [hport, hbeats]
      exact hunder
    | true =>
      simp only [hwv, if_true] at hport
      split_ifs at hport with haddr hbusy htemp
      · refine follows_wait (by rw [hport]) (by rw [hport]) (by rw [hport])
          (haddr ▸ hunder) (Or.inr ⟨by rw [hport]; rfl, hbeats, ?_⟩)
        rw [hport, hoffer hwv]
      · refine follows_resp (by rw [hport]) (by rw [hport]) hunder
          (Or.inr ⟨by rw [hport]; rfl, hbeats, hoffer hwv⟩) ?_
        rw [Written, if_pos haddr]
        refine ⟨by rw [hport], by rw [hport], full_axil bus hen ?_⟩
        simp only [Bool.or_eq_true, not_or, Bool.not_eq_true] at hbusy
        exact hbusy.1
      all_goals
        refine follows_resp (by rw [hport]) (by rw [hport]) hunder
          (Or.inr ⟨by rw [hport], hbeats, hoffer hwv⟩) ?_
        rw [Written, if_neg haddr, hport]

theorem Follows.step_wready (h : Follows x) (hstate : x.1.port.axilWriteState = .wready) :
    Follows ((commandQueue F).step x (.axil bus)) := by
  simp only [Follows, hstate] at h
  obtain ⟨haw, hw, hen, as, hunder⟩ := h
  have hdel := delivered_axil_of_not_wrEn bus hen
  have hport := port_axil x bus
  have haddrs := addrs_axil bus haw
  have hunder' : UnderWay ((commandQueue F).step x (.axil bus)) x.1.port.awaddr as
      x.2.beats := ⟨haddrs.trans hunder.addrs, hunder.length, hdel.trans hunder.delivered⟩
  have hbeats : ((commandQueue F).step x (.axil bus)).2.beats =
      x.2.beats ++ if bus.wvalid then [bus.wdata] else [] := by
    show x.2.beats ++ (if bus.wvalid && x.1.port.wready then [bus.wdata] else []) = _
    rw [hw, Bool.and_true]
  cases hwv : bus.wvalid with
  | false =>
    simp only [hwv, Bool.false_eq_true, if_false, List.append_nil] at hbeats
    simp only [Regs.step, hstate, hwv, Bool.false_eq_true, if_false] at hport
    refine follows_wready as (by rw [hport]) (by rw [hport]; exact haw)
      (by rw [hport]; exact hw) (by rw [hport]) ?_
    rw [hport, hbeats]
    exact hunder'
  | true =>
    simp only [hwv, if_true] at hbeats
    simp only [Regs.step, hstate, hwv, if_true] at hport
    have hready : ((commandQueue F).step x (.axil bus)).1.port.wready = false := by
      rw [hport]
      split_ifs <;> rfl
    have hbeat : Beat ((commandQueue F).step x (.axil bus)).1.port
        ((commandQueue F).step x (.axil bus)).2 x.2.beats bus.wdata :=
      Or.inl ⟨hbeats, fun hr => absurd (hready.symm.trans hr) Bool.false_ne_true⟩
    split_ifs at hport with haddr hfull htemp
    · refine follows_wait (by rw [hport]) (by rw [hport]; exact haw) (by rw [hport])
        (haddr ▸ hunder') ?_
      rw [show ((commandQueue F).step x (.axil bus)).1.port.ctlCmdData = bus.wdata by rw [hport]]
      exact hbeat
    · refine follows_resp (by rw [hport]) (by rw [hport]; exact haw) hunder' hbeat ?_
      rw [Written, if_pos haddr]
      exact ⟨by rw [hport], by rw [hport], full_axil bus hen (Bool.not_eq_true _ ▸ hfull)⟩
    all_goals
      refine follows_resp (by rw [hport]) (by rw [hport]; exact haw) hunder' hbeat ?_
      rw [Written, if_neg haddr, hport]

theorem Follows.step_wait (h : Follows x) (hcomp : Compliant x (.axil bus))
    (hok : Undisturbed x (.axil bus)) (hstate : x.1.port.axilWriteState = .wait) :
    Follows ((commandQueue F).step x (.axil bus)) := by
  simp only [Follows, hstate] at h
  obtain ⟨haw, hen, as, ds, hunder, hbeat⟩ := h
  obtain ⟨hbeats, hoffer⟩ := hbeat.step hcomp (hok.2.1 (Or.inl hstate))
  have hdel := delivered_axil_of_not_wrEn bus hen
  have hport := port_axil x bus
  have hunder' : UnderWay ((commandQueue F).step x (.axil bus)) ctlCmd as ds :=
    ⟨(addrs_axil bus haw).trans hunder.addrs, hunder.length, hdel.trans hunder.delivered⟩
  simp only [Regs.step, hstate] at hport
  split_ifs at hport with hroom
  · simp only [Bool.and_eq_true, Bool.not_eq_true'] at hroom
    refine follows_resp (by rw [hport]) (by rw [hport]; exact haw) hunder'
      (Or.inl ⟨hbeats, fun hr => hoffer (by rw [hport] at hr; exact hr)⟩) ?_
    rw [Written, if_pos rfl]
    exact ⟨by rw [hport], by rw [hport], full_axil bus hen hroom.1⟩
  · refine follows_wait (by rw [hport]) (by rw [hport]; exact haw) (by rw [hport]) hunder'
      (Or.inl ⟨?_, fun hr => hoffer (by rw [hport] at hr; exact hr)⟩)
    rw [hport]
    exact hbeats

/-- The first cycle of `AXIL_WRITE_RESP` delivers the write. -/
theorem atRest_of_written {a : BitVec 12} {d : BitVec 32} {as : List (BitVec 12)}
    {ds : List (BitVec 32)} (hstate : x.1.port.axilWriteState = .resp)
    (haw : x.1.port.awready = false) (hunder : UnderWay x a as ds)
    (hbeat : Beat x.1.port x.2 ds d) (hwritten : Written x a d)
    (hcomp : Compliant x (.axil bus)) (hok : Undisturbed x (.axil bus)) :
    AtRest ((commandQueue F).step x (.axil bus)) := by
  obtain ⟨hbeats, -⟩ := hbeat.step hcomp (hok.2.1 (Or.inr hstate))
  have haddrs : (x.2.note x.1 (.axil bus)).addrs = as ++ [a] :=
    (addrs_axil bus haw).trans hunder.addrs
  have hport := port_axil x bus
  simp only [Regs.step, hstate] at hport
  refine ⟨by rw [hport], by rw [hport], ?_, ?_⟩
  · show (x.2.note x.1 (.axil bus)).addrs.length = (x.2.note x.1 (.axil bus)).beats.length
    rw [haddrs, hbeats, List.length_append, List.length_append, hunder.length]
    rfl
  · have hwrites : (x.2.note x.1 (.axil bus)).writes = as.zip ds ++ [(a, d)] := by
      rw [Passed.writes, haddrs, hbeats, List.zip_append hunder.length]
      rfl
    show _ = commands (x.2.note x.1 (.axil bus)).writes
    rw [delivered_axil, hwrites, commands_concat, hunder.delivered]
    rw [Written] at hwritten
    by_cases ha : a = ctlCmd
    · rw [if_pos ha] at hwritten ⊢
      rw [hwritten.1, hwritten.2.1, hwritten.2.2, hok.1 hwritten.1]
      rfl
    · rw [if_neg ha] at hwritten ⊢
      rw [hwritten]
      rfl

theorem Follows.step_resp (h : Follows x) (hcomp : Compliant x (.axil bus))
    (hok : Undisturbed x (.axil bus)) (hstate : x.1.port.axilWriteState = .resp) :
    Follows ((commandQueue F).step x (.axil bus)) := by
  simp only [Follows, hstate] at h
  have hport := port_axil x bus
  simp only [Regs.step, hstate] at hport
  have hrest : AtRest ((commandQueue F).step x (.axil bus)) := by
    rcases h with ⟨haw, hw, hen, hlen, hall⟩ | ⟨haw, a, d, as, ds, hunder, hbeat, hwritten⟩
    · have hav := hok.2.2 hstate haw
      have haddrs : ((commandQueue F).step x (.axil bus)).2.addrs = x.2.addrs := by
        show x.2.addrs ++ (if bus.awvalid && x.1.port.awready then [bus.awaddr] else []) = _
        simp [hav]
      have hbeats : ((commandQueue F).step x (.axil bus)).2.beats = x.2.beats := by
        show x.2.beats ++ (if bus.wvalid && x.1.port.wready then [bus.wdata] else []) = _
        simp [hw]
      refine ⟨by rw [hport], by rw [hport], by rw [haddrs, hbeats]; exact hlen, ?_⟩
      rw [delivered_axil_of_not_wrEn bus hen, hall, Passed.writes, Passed.writes, haddrs, hbeats]
    · exact atRest_of_written hstate haw hunder hbeat hwritten hcomp hok
  cases hready : bus.bready with
  | false =>
    simp only [hready, Bool.false_eq_true, if_false] at hport
    exact follows_resp_of_rest (by rw [hport]) (by rw [hport]) hrest
  | true =>
    simp only [hready, if_true] at hport
    exact follows_idle (by rw [hport]) (by rw [hport]) hrest

/-- The read side does not disturb a write. -/
theorem Follows.step_axis (h : Follows x) (rdEn : Bool) :
    Follows ((commandQueue F).step x (.axis rdEn)) := by
  have hdel := delivered_axis x rdEn
  have hrest (hr : AtRest x) : AtRest ((commandQueue F).step x (.axis rdEn)) :=
    ⟨hr.1, hr.2.1, hr.2.2.1, hdel.trans hr.2.2.2⟩
  have hunder {a : BitVec 12} {as : List (BitVec 12)} {ds : List (BitVec 32)}
      (hu : UnderWay x a as ds) : UnderWay ((commandQueue F).step x (.axis rdEn)) a as ds :=
    ⟨hu.addrs, hu.length, hdel.trans hu.delivered⟩
  cases hstate : x.1.port.axilWriteState <;> simp only [Follows, hstate] at h
  case idle => exact follows_idle hstate h.1 (hrest h.2)
  case wready =>
    obtain ⟨haw, hw, hen, as, hu⟩ := h
    exact follows_wready as hstate haw hw hen (hunder hu)
  case wait =>
    obtain ⟨haw, hen, as, ds, hu, hbeat⟩ := h
    exact follows_wait hstate haw hen (hunder hu) hbeat
  case resp =>
    rcases h with ⟨haw, hr⟩ | ⟨haw, a, d, as, ds, hu, hbeat, hwritten⟩
    · exact follows_resp_of_rest hstate haw (hrest hr)
    · refine follows_resp hstate haw (hunder hu) hbeat ?_
      rw [Written] at hwritten ⊢
      split_ifs at hwritten ⊢ with ha
      · exact ⟨hwritten.1, hwritten.2.1, F.full_stepRd _ rdEn hwritten.2.2⟩
      · exact hwritten

/-- **One edge.** -/
theorem Follows.step {e : Edge} (h : Follows x) (hcomp : Compliant x e) (hok : Undisturbed x e) :
    Follows ((commandQueue F).step x e) := by
  cases e with
  | axis rdEn => exact h.step_axis rdEn
  | axil bus =>
    cases hstate : x.1.port.axilWriteState with
    | idle => exact h.step_idle hstate
    | wready => exact h.step_wready hstate
    | wait => exact h.step_wait hcomp hok hstate
    | resp => exact h.step_resp hcomp hok hstate

/-- What the invariant says about the words delivered. -/
theorem Follows.queued (h : Follows x) : Queued x := by
  have hrest (hr : AtRest x) : Queued x :=
    ⟨hr.2.2.2 ▸ List.prefix_refl _, fun _ => hr.2.2.2⟩
  have hunder {a : BitVec 12} {as : List (BitVec 12)} {ds : List (BitVec 32)}
      (tail : List (BitVec 32)) (hu : UnderWay x a as ds) (hbeats : x.2.beats = ds ++ tail) :
      delivered x <+: commands x.2.writes := by
    rw [hu.delivered, Passed.writes, hu.addrs, hbeats, List.zip_append hu.length, commands,
      commands, List.filter_append, List.map_append]
    exact List.prefix_append _ _
  have hbeat {a : BitVec 12} {d : BitVec 32} {as : List (BitVec 12)} {ds : List (BitVec 32)}
      (hu : UnderWay x a as ds) (hb : Beat x.1.port x.2 ds d) :
      delivered x <+: commands x.2.writes := by
    rcases hb with ⟨hdone, -⟩ | ⟨-, hdue, -⟩
    · exact hunder [d] hu hdone
    · exact hunder [] hu (by rw [hdue, List.append_nil])
  cases hstate : x.1.port.axilWriteState <;> simp only [Follows, hstate] at h
  case idle => exact hrest h.2
  case wready =>
    obtain ⟨-, -, -, as, hu⟩ := h
    exact ⟨hunder [] hu (List.append_nil _).symm,
      fun hidle => absurd (hstate.symm.trans hidle) (by decide)⟩
  case wait =>
    obtain ⟨-, -, as, ds, hu, hb⟩ := h
    exact ⟨hbeat hu hb, fun hidle => absurd (hstate.symm.trans hidle) (by decide)⟩
  case resp =>
    rcases h with ⟨-, hr⟩ | ⟨-, a, d, as, ds, hu, hb, -⟩
    · exact hrest hr
    · exact ⟨hbeat hu hb, fun hidle => absurd (hstate.symm.trans hidle) (by decide)⟩

end Steps

theorem follows_reset (F : AsyncFifo (BitVec 32)) : Follows (commandQueue F).reset := by
  refine follows_idle rfl rfl ⟨rfl, rfl, rfl, ?_⟩
  show [] ++ F.contents F.reset = _
  rw [F.contents_reset]
  rfl

/-- **The command queue.**  For each FIFO that is as its data sheet says, and each order and
timing of addresses, data and reads: a run of a host that follows the rules of the bus and
does not disturb the interface delivers each command once and in order. -/
theorem queued_run (F : AsyncFifo (BitVec 32)) (es : List Edge)
    (hcomp : (commandQueue F).Guarded Compliant (commandQueue F).reset es)
    (hok : (commandQueue F).Guarded Undisturbed (commandQueue F).reset es) :
    (commandQueue F).Always Queued (commandQueue F).reset es := by
  have hfollows : (commandQueue F).Always Follows (commandQueue F).reset es :=
    Machine.always_of_guarded (fun _ _ h hc => h.step hc.1 hc.2) (follows_reset F)
      (hcomp.and hok)
  exact hfollows.mono fun _ h => h.queued

/-- Two commands into a FIFO of one word: the first comes with its address, the second ahead
of it, and finds the FIFO full until the kernel reads. -/
theorem queued_run_two :
    (commandQueue (AsyncFifo.ofDepth 1 0 0)).Always Queued
      (commandQueue (AsyncFifo.ofDepth 1 0 0)).reset
      [.axil ⟨true, 0, true, 6, false⟩, .axil ⟨false, 0, true, 6, false⟩,
        .axil ⟨false, 0, false, 0, true⟩, .axil ⟨false, 0, true, 7, false⟩,
        .axil ⟨true, 0, true, 7, false⟩, .axil ⟨false, 0, true, 7, false⟩, .axis true,
        .axil ⟨false, 0, false, 0, false⟩, .axil ⟨false, 0, false, 0, true⟩, .axis true] :=
  queued_run _ _ (by decide +kernel) (by decide +kernel)

/-- A command that comes behind its address while the FIFO is busy with its reset is not
queued. -/
theorem command_lost_in_reset :
    (commandQueue (AsyncFifo.ofDepth 16 9 0)).Guarded Compliant
        (commandQueue (AsyncFifo.ofDepth 16 9 0)).reset
        [.axil ⟨true, 0, false, 0, false⟩, .axil ⟨false, 0, true, 6, false⟩,
          .axil ⟨false, 0, false, 0, true⟩] ∧
      ¬ (commandQueue (AsyncFifo.ofDepth 16 9 0)).Always Queued
        (commandQueue (AsyncFifo.ofDepth 16 9 0)).reset
        [.axil ⟨true, 0, false, 0, false⟩, .axil ⟨false, 0, true, 6, false⟩,
          .axil ⟨false, 0, false, 0, true⟩] := by
  refine ⟨by decide +kernel, fun h => ?_⟩
  have hall := h.last.all rfl
  exact absurd hall (by decide +kernel)

end CommandPort
end RecoNIC
