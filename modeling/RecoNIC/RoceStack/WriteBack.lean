import RecoNIC.RoceStack.RegisterPort

/-!
# Write-backs: what reaches the register file

The six kinds of write-back that go to registers of a queue pair, and a ledger of
what was asked for and what was written.  A kind is *lossless* when its pulses are,
in order, the commands that were written, then the one that is being written, then
the one that waits in the slot.

The slot takes a new pulse whether it is occupied or not.  `flow` says that a
cycle without a pulse moves commands along and loses none, so everything depends
on the moment a pulse arrives: `lossless_iff` says that a run is lossless iff no
pulse meets an occupied slot whose command is not being taken in the same cycle.
-/

namespace RecoNIC
namespace RegisterPort

open Synchronous

/-! ## The ledger -/

/-- The kinds that write a register of a queue pair. -/
def qpKinds : List WbKind :=
  [.cqheadi, .sqpsni, .lstrqreqi, .statrqbufcai, .statrqbufcamsbi, .statrqpidbi]

/-- The commands asked for, kind by kind, the commands written, each with the
register file right after it, and the kind that was taken last. -/
structure Ledger where
  pulses : WbKind → List WrCmd
  written : WbKind → List (WrCmd × RegFile)
  current : WbKind

/-- The empty ledger. -/
def Ledger.empty : Ledger := ⟨fun _ => [], fun _ => [], .cqheadi⟩

/-- The cycle ends a write. -/
def endsWrite (s : Port) : Bool := s.lReg == .write && s.holdAxis == 1

/-- One cycle in the ledger. -/
def note (l : Ledger) (s : Port) (i : Input) : Ledger where
  pulses := fun k => l.pulses k ++ (i.wb.cmd k).toList
  written := fun k =>
    if endsWrite s && l.current == k then l.written k ++ [(s.lWrCmd, (step s i).regs)]
    else l.written k
  current := (WbKind.all.find? (taken s i)).getD l.current

/-- The register port with its ledger. -/
def ledgered (regs : RegFile) : Machine (Port × Ledger) Input :=
  (port regs).watch Ledger.empty note

@[simp] theorem ledgered_step (regs : RegFile) (s : Port × Ledger) (i : Input) :
    (ledgered regs).step s i = (step s.1 i, note s.2 s.1 i) := rfl

/-- The command of the kind `k` that is being written. -/
def inFlight (s : Port × Ledger) (k : WbKind) : List WrCmd :=
  if s.1.lReg == .write && s.2.current == k then [s.1.lWrCmd] else []

/-- The command that waits in a slot. -/
def Slot.pending (slot : Slot) : List WrCmd := if slot.valid then [slot.cmd] else []

/-- The register holds what the command wrote. -/
def Landed (c : WrCmd) (f : RegFile) : Prop :=
  f.qp c.address c.bramIdx &&& strobeMask c.wstrb = c.data &&& strobeMask c.wstrb

/-- No command of the kind `k` is lost: the pulses are those written, the one being
written and the one waiting, and what was written stood in the register. -/
structure Lossless (k : WbKind) (s : Port × Ledger) : Prop where
  pulses : s.2.pulses k =
    (s.2.written k).map Prod.fst ++ inFlight s k ++ (s.1.slots k).pending
  landed : ∀ e ∈ s.2.written k, Landed e.1 e.2

/-- No pulse meets an occupied slot that is not being emptied. -/
def Fits (s : Port × Ledger) (i : Input) : Prop :=
  ∀ k ∈ qpKinds, (i.wb.cmd k).isSome → (s.1.slots k).valid → taken s.1 i k

/-! ## One cycle -/

section Step

variable (s : Port × Ledger) (i : Input) (k : WbKind)

/-- What is taken was waiting, in `L_IDLE`. -/
theorem taken_iff (p : Port) :
    taken p i k = true ↔ p.lReg = .idle ∧ pick p.slots i = some (.wb k) := by
  simp [taken]

theorem valid_of_taken {p : Port} (h : taken p i k = true) : (p.slots k).valid = true := by
  obtain ⟨-, hp⟩ := (taken_iff i k p).mp h
  unfold pick at hp
  split_ifs at hp
  · cases hp
  · simp at hp
  · simp at hp
  · simp at hp
  · obtain ⟨k', hk', heq⟩ := Option.map_eq_some_iff.mp hp
    obtain rfl : k' = k := by injection heq
    simpa using List.find?_some hk'

/-- At most one kind is taken, and the ledger names it. -/
theorem current_of_taken (h : taken s.1 i k = true) : (note s.2 s.1 i).current = k := by
  obtain ⟨hidle, hp⟩ := (taken_iff i k s.1).mp h
  have hfun : taken s.1 i = fun k' => decide (k' = k) := by
    funext k'
    rw [Bool.eq_iff_iff, taken_iff, hp]
    simp [hidle, eq_comm]
  have hfind : (WbKind.all.find? fun k' => decide (k' = k)) = some k := by
    cases k <;> decide
  simp only [note, hfun, hfind, Option.getD_some]

theorem current_of_not_idle (h : s.1.lReg ≠ .idle) : (note s.2 s.1 i).current = s.2.current := by
  have hnone : WbKind.all.find? (taken s.1 i) = none := by
    rw [List.find?_eq_none]
    intro k' _ htaken
    exact h ((taken_iff i k' s.1).mp htaken).1
  simp only [note, hnone, Option.getD_none]

/-- A slot that is not pulsed keeps its command or gives it up. -/
theorem pending_capture (slot : Slot) (pulse : Option WrCmd) (ready : Bool) :
    (slot.capture pulse ready).pending =
      match pulse with
      | some c => [c]
      | none => if ready then [] else slot.pending := by
  cases pulse with
  | some c => rfl
  | none => cases ready <;> simp [Slot.capture, Slot.pending]

/-- `L_WRITE` is entered from `L_IDLE` alone. -/
theorem lReg_step_ne_write {p : Port} (hidle : p.lReg ≠ .idle) (hwrite : p.lReg ≠ .write) :
    (step p i).lReg ≠ .write := by
  obtain ⟨p', hstep, hedge⟩ := exists_lEdge (p.afterPortA i) i
  rw [lReg_step, hstep]
  cases hedge with
  | stay => exact hwrite
  | cmdFifo hs => exact absurd hs hidle
  | start c =>
    rw [Port.lReg_startRead]
    split_ifs <;> simp
  | writeBack k hs => exact absurd hs hidle
  | single =>
    rw [Port.lReg_endAccess]
    split_ifs
    · simp
    · simpa using hwrite
  | multi =>
    rw [Port.lReg_endAccess]
    split_ifs
    · simp
    · simpa using hwrite
  | write hs => exact absurd hs hwrite
  | announce =>
    dsimp only
    split_ifs <;> simp
  | rest => simp

/-- A cycle outside `L_IDLE` and `L_WRITE` touches no command. -/
theorem flow_of_reading (hidle : s.1.lReg ≠ .idle) (hwrite : s.1.lReg ≠ .write) :
    (note s.2 s.1 i).written k = s.2.written k ∧
      inFlight (step s.1 i, note s.2 s.1 i) k = [] ∧ inFlight s k = [] ∧
        taken s.1 i k = false := by
  refine ⟨?_, ?_, ?_, ?_⟩
  · simp [note, endsWrite, hwrite]
  · simp [inFlight, lReg_step_ne_write i hidle hwrite]
  · simp [inFlight, hwrite]
  · simp [taken, hidle]

/-- **Commands move along.**  Apart from the pulse of the cycle, what was written,
is being written or waits in the slot stays the same list. -/
theorem flow :
    ((note s.2 s.1 i).written k).map Prod.fst ++ inFlight (step s.1 i, note s.2 s.1 i) k ++
        (if taken s.1 i k then [] else (s.1.slots k).pending) =
      (s.2.written k).map Prod.fst ++ inFlight s k ++ (s.1.slots k).pending := by
  by_cases hidle : s.1.lReg = .idle
  · have hwritten : (note s.2 s.1 i).written k = s.2.written k := by
      simp [note, endsWrite, hidle]
    have hold : inFlight s k = [] := by simp [inFlight, hidle]
    rw [hwritten, hold]
    cases hk : taken s.1 i k with
    | true =>
      -- the waiting command goes into the write
      have hvalid := valid_of_taken i k hk
      have hcur := current_of_taken s i k hk
      have hp := ((taken_iff i k s.1).mp hk).2
      have hlReg : (step s.1 i).lReg = .write := by simp [lReg_step, lStep, hidle, hp]
      have hcmd : (step s.1 i).lWrCmd = (s.1.slots k).cmd := by
        simp [lWrCmd_step, lStep, hidle, hp]
      simp [inFlight, hlReg, hcmd, hcur, Slot.pending, hvalid]
    | false =>
      have hnone : inFlight (step s.1 i, note s.2 s.1 i) k = [] := by
        cases hp : pick s.1.slots i with
        | none => simp [inFlight, lReg_step, lStep, hidle, hp]
        | some p =>
          cases p with
          | cmdFifo => simp [inFlight, lReg_step, lStep, hidle, hp]
          | read c => cases hall : c.readAll <;> simp [inFlight, lReg_step, lStep, hidle, hp, hall]
          | wb k' =>
            have hk' : taken s.1 i k' = true := (taken_iff i k' s.1).mpr ⟨hidle, hp⟩
            have hne : k' ≠ k := by
              rintro rfl
              exact absurd hk' (by simp [hk])
            simp [inFlight, current_of_taken s i k' hk', hne]
      simp [hnone]
  · by_cases hwrite : s.1.lReg = .write
    · have hcur := current_of_not_idle s i hidle
      have hk : taken s.1 i k = false := by simp [taken, hidle]
      by_cases hend : s.1.holdAxis = 1#2
      · have hlReg : (step s.1 i).lReg = .idle := by
          simp [lReg_step, lStep, hwrite, hend]
        by_cases hkind : s.2.current = k <;>
          simp [note, endsWrite, inFlight, hwrite, hend, hlReg, hk, hkind]
      · have hlReg : (step s.1 i).lReg = .write := by
          simp [lReg_step, lStep, hwrite, hend]
        have hcmd : (step s.1 i).lWrCmd = s.1.lWrCmd := by
          simp [lWrCmd_step, lStep, hwrite]
        have hwritten : (note s.2 s.1 i).written k = s.2.written k := by
          simp [note, endsWrite, hend]
        simp [hwritten, inFlight, hwrite, hlReg, hcmd, hcur, hk]
    · obtain ⟨hwritten, hnew, hold, hk⟩ := flow_of_reading s i k hidle hwrite
      rw [hwritten, hnew, hold, hk]
      simp

/-- The pulses of a queue-pair kind name region 2. -/
theorem region_of_mem_qpKinds {w : WbIn} {c : WrCmd} (hk : k ∈ qpKinds)
    (hc : w.cmd k = some c) : c.region = 2 := by
  cases k <;>
    first
    | (obtain ⟨d, -, rfl⟩ := Option.map_eq_some_iff.mp hc; rfl)
    | (exact absurd hk (by decide))

/-- What ends its write stands in the register file. -/
theorem landed_step {p : Port} (hend : endsWrite p = true) (hregion : p.lWrCmd.region = 2) :
    Landed p.lWrCmd (step p i).regs := by
  have hwrite : p.lReg = .write := by
    simp only [endsWrite, Bool.and_eq_true, beq_iff_eq] at hend
    exact hend.1
  have hregs : (step p i).regs = (p.afterPortA i).regs.write p.lWrCmd := by
    simp [step, lStep, hwrite, Port.accessWrite, hregion]
  rw [Landed, hregs, RegFile.write_qp hregion, if_pos ⟨rfl, rfl⟩, mergeBytes_and_mask]

end Step

/-! ## Whole runs -/

/-- What is kept as long as every pulse finds room. -/
def Inv (s : Port × Ledger) : Prop :=
  ∀ k ∈ qpKinds, Lossless k s ∧ ∀ c ∈ s.2.pulses k, c.region = 2

section Run

variable {regs : RegFile} {s : Port × Ledger} {i : Input}

/-- The pulses of a step, apart from the pulse of the cycle. -/
theorem pulses_eq_of_lossless {k : WbKind} (h : Lossless k s) :
    (note s.2 s.1 i).pulses k =
      ((note s.2 s.1 i).written k).map Prod.fst ++ inFlight (step s.1 i, note s.2 s.1 i) k ++
        (if taken s.1 i k then [] else (s.1.slots k).pending) ++ (i.wb.cmd k).toList := by
  rw [flow, ← h.pulses]
  rfl

theorem Inv.step (h : Inv s) (hfits : Fits s i) :
    Inv ((ledgered regs).step s i) := by
  rw [ledgered_step]
  intro k hk
  obtain ⟨hlossless, hregion⟩ := h k hk
  refine ⟨⟨?_, ?_⟩, ?_⟩
  · rw [pulses_eq_of_lossless hlossless, slots_step, pending_capture]
    cases hp : i.wb.cmd k with
    | none => simp
    | some c =>
      have hempty : (if taken s.1 i k then [] else (s.1.slots k).pending) = [] := by
        cases hv : (s.1.slots k).valid with
        | false => simp [Slot.pending, hv]
        | true => simp [hfits k hk (by simp [hp]) hv]
      simp [hempty]
  · intro e he
    have hwritten : (note s.2 s.1 i).written k =
        if endsWrite s.1 && s.2.current == k then
          s.2.written k ++ [(s.1.lWrCmd, (RegisterPort.step s.1 i).regs)]
        else s.2.written k := rfl
    change e ∈ (note s.2 s.1 i).written k at he
    rw [hwritten] at he
    split_ifs at he with hend
    · simp only [Bool.and_eq_true, beq_iff_eq] at hend
      rcases List.mem_append.mp he with he | he
      · exact hlossless.landed e he
      · obtain rfl := List.mem_singleton.mp he
        refine landed_step i hend.1 (hregion _ ?_)
        have hwrite : s.1.lReg = .write := by
          have := hend.1
          simp only [endsWrite, Bool.and_eq_true, beq_iff_eq] at this
          exact this.1
        rw [hlossless.pulses]
        simp [inFlight, hwrite, hend.2]
    · exact hlossless.landed e he
  · intro c hc
    change c ∈ s.2.pulses k ++ (i.wb.cmd k).toList at hc
    rcases List.mem_append.mp hc with hc | hc
    · exact hregion c hc
    · exact region_of_mem_qpKinds k hk (Option.mem_toList.mp hc)

/-- A pulse that finds no room is lost at once, with the command it overwrites. -/
theorem Inv.lost (h : Inv s) (hfits : ¬ Fits s i) :
    ¬ ∀ k ∈ qpKinds, Lossless k ((ledgered regs).step s i) := by
  simp only [Fits, not_forall] at hfits
  obtain ⟨k, hk, hp, hv, htaken⟩ := hfits
  intro hall
  obtain ⟨c, hc⟩ := Option.isSome_iff_exists.mp hp
  have hpulses := (hall k hk).pulses
  rw [ledgered_step, pulses_eq_of_lossless (h k hk).1, slots_step, pending_capture, hc,
    if_neg htaken] at hpulses
  have hlen := congrArg List.length hpulses
  simp [Slot.pending, hv] at hlen

/-- **When no write-back is lost.**  A run keeps every kind of queue-pair write-back
lossless iff no pulse of these kinds meets an occupied slot whose command is not
being taken in the same cycle. -/
theorem lossless_iff (regs : RegFile) (is : List Input) :
    (ledgered regs).Always (fun s => ∀ k ∈ qpKinds, Lossless k s) (ledgered regs).reset is ↔
      (ledgered regs).Guarded Fits (ledgered regs).reset is := by
  refine Machine.always_iff_guarded (fun s (hs : Inv s) k hk => (hs k hk).1)
    (fun s i hs _ hfits => hs.step hfits) (fun s i hs _ hfits => hs.lost hfits) ?_
    (Machine.guarded_true _ _)
  intro k _
  exact ⟨⟨rfl, fun e he => absurd he List.not_mem_nil⟩, fun c hc => absurd hc List.not_mem_nil⟩

end Run

/-- A completion of the queue pair `qp` with the head `head`, while the AXI-Lite side
writes or not. -/
def completion (qp : BitVec 8) (head : BitVec 32) (writing : Bool) : Input :=
  { Input.quiet with writing := writing, wb := { WbIn.none with cqheadi := some (qp ++ head) } }

/-- A completion of queue pair 1 and seven cycles later one of queue pair 2, both
during one long write of the AXI-Lite side, and then time to write back. -/
def twoCompletions : List Input :=
  [completion 1 5 true] ++ List.replicate 6 { Input.quiet with writing := true } ++
    [completion 2 9 true] ++ List.replicate 6 Input.quiet

/-- The completion of queue pair 1 never reaches the register file. -/
theorem twoCompletions_lost :
    ((ledgered .zero).run twoCompletions).2.pulses .cqheadi =
        [qpWb cqheadiIdx 1 0xf 5, qpWb cqheadiIdx 2 0xf 9] ∧
      (((ledgered .zero).run twoCompletions).2.written .cqheadi).map Prod.fst =
        [qpWb cqheadiIdx 2 0xf 9] ∧
      ¬ Lossless .cqheadi ((ledgered .zero).run twoCompletions) := by
  have hpulses : ((ledgered .zero).run twoCompletions).2.pulses .cqheadi =
      [qpWb cqheadiIdx 1 0xf 5, qpWb cqheadiIdx 2 0xf 9] := by
    decide +kernel
  have hwritten : (((ledgered .zero).run twoCompletions).2.written .cqheadi).map Prod.fst =
      [qpWb cqheadiIdx 2 0xf 9] := by
    decide +kernel
  have hrest : inFlight ((ledgered .zero).run twoCompletions) .cqheadi = [] ∧
      (((ledgered .zero).run twoCompletions).1.slots .cqheadi).pending = [] := by
    decide +kernel
  refine ⟨hpulses, hwritten, fun h => ?_⟩
  have hall := h.pulses
  rw [hpulses, hwritten, hrest.1, hrest.2] at hall
  exact absurd hall (by decide)

end RegisterPort
end RecoNIC
