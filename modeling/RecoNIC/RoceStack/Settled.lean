import RecoNIC.RoceStack.WriteBack

/-!
# What a register will hold

A write-back reaches its register in three stages: it waits in the slot of its kind, it is
the command that `L_WRITE` carries out, and it stands in the RAM.  `settled` is what the
register of a queue pair holds once both commands on their way have landed.

`settled_step` says that nothing but a pulse changes it, as long as the slot is not taken
from this queue pair by a pulse for another one.  `Rows` is the other half: a row that was
read is the row the RAM holds.  A read that finds the slot empty has therefore seen every
write-back before it (`Rows.settled`).
-/

namespace RecoNIC
namespace RegisterPort

open Synchronous

/-! ## The commands of a kind -/

/-- The region of the register that a kind writes. -/
def WbKind.region : WbKind → BitVec 2
  | .cqheadi | .sqpsni | .lstrqreqi | .statrqbufcai | .statrqbufcamsbi | .statrqpidbi => 2
  | _ => 0

/-- Its number. -/
def WbKind.idx : WbKind → RegIdx
  | .cqheadi => cqheadiIdx
  | .sqpsni => sqpsniIdx
  | .lstrqreqi => lstrqreqiIdx
  | .statrqbufcai => statrqbufcaiIdx
  | .statrqbufcamsbi => statrqbufcamsbiIdx
  | .statrqpidbi => statrqpidbiIdx
  | _ => 0

/-- The bytes of it that the kind writes. -/
def WbKind.wstrb : WbKind → BitVec 4
  | .sqpsni | .lstrqreqi => 0b0111
  | .outnakpktcnt => 0b0011
  | _ => 0xf

/-- A command of the kind `k`. -/
structure WbKind.Own (k : WbKind) (c : WrCmd) : Prop where
  region : c.region = k.region
  bramIdx : c.bramIdx = k.idx
  wstrb : c.wstrb = k.wstrb

theorem own_of_cmd {w : WbIn} {k : WbKind} {c : WrCmd} (h : w.cmd k = some c) : k.Own c := by
  cases k <;>
    · obtain ⟨d, -, rfl⟩ := Option.map_eq_some_iff.mp h
      exact ⟨rfl, rfl, rfl⟩

/-- Two kinds that write registers of queue pairs write different ones. -/
theorem idx_ne {k k' : WbKind} (hk : k ∈ qpKinds) (hne : k' ≠ k) (hregion : k'.region = 2) :
    k'.idx ≠ k.idx := by
  revert hk hne hregion
  cases k <;> cases k' <;> decide

/-! ## A command and one register -/

/-- The command writes the register `r` of queue pair `q`. -/
def Hits (c : WrCmd) (q : BitVec 8) (r : RegIdx) : Prop :=
  c.region = 2 ∧ q = c.address ∧ r = c.bramIdx

instance (c : WrCmd) (q : BitVec 8) (r : RegIdx) : Decidable (Hits c q r) :=
  inferInstanceAs (Decidable (_ ∧ _ ∧ _))

/-- The register `r` of queue pair `q` after a command. -/
def after (c : WrCmd) (q : BitVec 8) (r : RegIdx) (old : BitVec 32) : BitVec 32 :=
  if Hits c q r then mergeBytes old c.wstrb c.data else old

section After

variable {c c' : WrCmd} {q : BitVec 8} {r : RegIdx} {old : BitVec 32} {k k' : WbKind}

theorem target_eq_some_iff : RegFile.target c = some (.qp q r) ↔ Hits c q r := by
  rw [RegFile.target, Hits]
  by_cases h2 : c.region = 2
  · simp [h2, eq_comm]
  · rw [if_neg h2]
    split_ifs <;> exact iff_of_false (by simp) fun h => h2 h.1

theorem qp_write (f : RegFile) : (f.write c).qp q r = after c q r (f.qp q r) := by
  have hread := f.read_write c (.qp q r)
  simp only [target_eq_some_iff] at hread
  exact hread

theorem after_of_not_hits (h : ¬ Hits c q r) : after c q r old = old := if_neg h

theorem after_after : after c q r (after c q r old) = after c q r old := by
  unfold after
  split_ifs
  · exact mergeBytes_mergeBytes ..
  · rfl

theorem hits_iff_of_own (hk : k ∈ qpKinds) (h : k.Own c) : Hits c q k.idx ↔ q = c.address := by
  have hregion : c.region = 2 := by
    rw [h.region]
    revert hk
    cases k <;> decide
  simp [Hits, hregion, h.bramIdx]

/-- A later command of the same kind for the same queue pair makes an earlier one
forgotten. -/
theorem after_after_of_own (hk : k ∈ qpKinds) (h : k.Own c) (h' : k.Own c') :
    after c' q k.idx (after c q k.idx old) =
      if c'.address = q then after c' q k.idx old else after c q k.idx old := by
  by_cases hc' : c'.address = q
  · rw [if_pos hc']
    have hits' : Hits c' q k.idx := (hits_iff_of_own hk h').mpr hc'.symm
    simp only [after, if_pos hits', h'.wstrb]
    split_ifs
    · rw [h.wstrb, mergeBytes_mergeBytes]
    · rfl
  · rw [if_neg hc', after_of_not_hits fun hhits =>
      hc' ((hits_iff_of_own hk h').mp hhits).symm]

/-- A command of another kind leaves the register alone. -/
theorem after_of_other (hk : k ∈ qpKinds) (h : k'.Own c) (hne : k' ≠ k) :
    after c q k.idx old = old := by
  refine after_of_not_hits fun hhits => ?_
  exact idx_ne hk hne (h.region.symm.trans hhits.1) (h.bramIdx.symm.trans hhits.2.2.symm)

end After

/-! ## What is on its way -/

namespace Port

/-- The register once the write under way is over. -/
def landed (s : Port) (q : BitVec 8) (r : RegIdx) : BitVec 32 :=
  if s.lReg = .write then after s.lWrCmd q r (s.regs.qp q r) else s.regs.qp q r

/-- The register of the kind `k` once the waiting command has landed, too. -/
def settled (s : Port) (k : WbKind) (q : BitVec 8) : BitVec 32 :=
  if (s.slots k).valid then after (s.slots k).cmd q k.idx (s.landed q k.idx)
  else s.landed q k.idx

/-- The slot of the kind `k` holds a command for the queue pair `q`. -/
def Holds (s : Port) (k : WbKind) (q : BitVec 8) : Prop :=
  (s.slots k).valid = true ∧ (s.slots k).cmd.address = q

instance (s : Port) (k : WbKind) (q : BitVec 8) : Decidable (s.Holds k q) :=
  inferInstanceAs (Decidable (_ ∧ _))

/-- A write to the register of the kind `k` of `q` is under way. -/
def Writes (s : Port) (k : WbKind) (q : BitVec 8) : Prop :=
  s.lReg = .write ∧ Hits s.lWrCmd q k.idx

instance (s : Port) (k : WbKind) (q : BitVec 8) : Decidable (s.Writes k q) :=
  inferInstanceAs (Decidable (_ ∧ _))

end Port

/-- The slots hold commands of their kinds. -/
def Owned (s : Port) : Prop := ∀ k, (s.slots k).valid = true → k.Own (s.slots k).cmd

/-- The AXI-Lite side does not write the register in this cycle. -/
def Untouched (i : Input) (q : BitVec 8) (r : RegIdx) : Prop := ∀ c ∈ i.portA, ¬ Hits c q r

instance (i : Input) (q : BitVec 8) (r : RegIdx) : Decidable (Untouched i q r) :=
  inferInstanceAs (Decidable (∀ _ ∈ _, _))

/-- No pulse for another queue pair takes the slot from `q`. -/
def Kept (s : Port) (i : Input) (k : WbKind) (q : BitVec 8) : Prop :=
  s.Holds k q → taken s i k = true ∨ ∀ c ∈ i.wb.cmd k, c.address = q

instance (s : Port) (i : Input) (k : WbKind) (q : BitVec 8) : Decidable (Kept s i k q) :=
  inferInstanceAs (Decidable (_ → _ ∨ ∀ c ∈ _, _))

section Step

variable {s : Port} {i : Input} {k : WbKind} {q : BitVec 8} {r : RegIdx}

theorem Owned.step (h : Owned s) : Owned (step s i) := by
  intro k hv
  rw [slots_step] at hv ⊢
  cases hp : i.wb.cmd k with
  | some c => exact own_of_cmd hp
  | none =>
    simp only [hp, Slot.capture] at hv ⊢
    split_ifs at hv ⊢
    exact h k hv

/-- The settled value where the slot holds nothing for `q`. -/
theorem settled_of_not_holds (hk : k ∈ qpKinds) (howned : Owned s) (h : ¬ s.Holds k q) :
    s.settled k q = s.landed q k.idx := by
  rw [Port.settled]
  split_ifs with hv
  · refine after_of_not_hits fun hhits => h ⟨hv, ?_⟩
    exact ((hits_iff_of_own hk (howned k hv)).mp hhits).symm
  · rfl

/-- The landed value where nothing for `q` is being written. -/
theorem landed_of_not_writes (h : ¬ s.Writes k q) :
    s.landed q k.idx = s.regs.qp q k.idx := by
  rw [Port.landed]
  split_ifs with hw
  · exact after_of_not_hits fun hhits => h ⟨hw, hhits⟩
  · rfl

/-- The writes of the AXI-Lite side that do not touch the register. -/
theorem qp_foldl_write {cs : List WrCmd} (h : ∀ c ∈ cs, ¬ Hits c q r) (f : RegFile) :
    (cs.foldl RegFile.write f).qp q r = f.qp q r :=
  RegFile.read_foldl_write_of_ne (x := .qp q r)
    (fun c hc heq => h c hc (target_eq_some_iff.mp heq)) f

theorem qp_afterPortA (h : Untouched i q r) :
    (s.afterPortA i).regs.qp q r = s.regs.qp q r :=
  qp_foldl_write h s.regs

theorem regs_step : (step s i).regs = (lStep (s.afterPortA i) i).regs := rfl

/-- Only `L_WRITE` changes the RAMs from this side. -/
theorem qp_lStep (s : Port) (i : Input) (q : BitVec 8) (r : RegIdx) :
    (lStep s i).regs.qp q r =
      if s.lReg = .write then after s.lWrCmd q r (s.regs.qp q r) else s.regs.qp q r := by
  obtain ⟨s', hstep, hedge⟩ := exists_lEdge s i
  rw [hstep]
  cases hedge with
  | single hs =>
    rw [Port.regs_endAccess, if_neg (by simp [hs]), Port.accessSingle]
    dsimp only
    split_ifs <;> rfl
  | multi hs =>
    rw [Port.regs_endAccess, if_neg (by simp [hs]), Port.accessMulti]
    split_ifs <;> rfl
  | write hs =>
    rw [Port.regs_endAccess, if_pos hs, ← qp_write, Port.accessWrite]
    split_ifs with h0 h1 h2
    · rfl
    · rfl
    · rfl
    · rw [qp_write, after_of_not_hits fun hhits => h2 hhits.1]
  | stay hs => rcases hs with hs | hs <;> simp [hs]
  | start c hs => rcases hs with hs | hs <;> simp [hs, Port.startRead]
  | cmdFifo hs => simp [hs]
  | writeBack k hs => simp [hs]
  | announce hs => simp [hs]
  | rest hs => simp [hs]

theorem qp_step (h : Untouched i q r) :
    (step s i).regs.qp q r =
      if s.lReg = .write then after s.lWrCmd q r (s.regs.qp q r) else s.regs.qp q r := by
  rw [regs_step, qp_lStep, qp_afterPortA h]
  rfl

/-- A command that is taken is the next to land. -/
theorem landed_step_of_taken (h : Untouched i q r) (hk : taken s i k = true) :
    (step s i).landed q r = after (s.slots k).cmd q r (s.landed q r) := by
  obtain ⟨hidle, hp⟩ := (taken_iff i k s).mp hk
  have hlReg : (step s i).lReg = .write := by simp [lReg_step, lStep, hidle, hp]
  have hcmd : (step s i).lWrCmd = (s.slots k).cmd := by simp [lWrCmd_step, lStep, hidle, hp]
  simp [Port.landed, hlReg, hcmd, qp_step h, hidle]

/-- Otherwise what lands is what was landing. -/
theorem landed_step_of_not_taken (h : Untouched i q r) (hk : ∀ k, taken s i k = false) :
    (step s i).landed q r = s.landed q r := by
  by_cases hidle : s.lReg = .idle
  · have hlReg : (step s i).lReg ≠ .write := by
      cases hp : pick s.slots i with
      | none => simp [lReg_step, lStep, hidle, hp]
      | some p =>
        cases p with
        | cmdFifo => simp [lReg_step, lStep, hidle, hp]
        | read c => cases hall : c.readAll <;> simp [lReg_step, lStep, hidle, hp, hall]
        | wb k =>
          have := (taken_iff i k s).mpr ⟨hidle, hp⟩
          rw [hk] at this
          cases this
    simp [Port.landed, hlReg, qp_step h, hidle]
  · by_cases hwrite : s.lReg = .write
    · by_cases hend : s.holdAxis = 1#2
      · have hlReg : (step s i).lReg = .idle := by simp [lReg_step, lStep, hwrite, hend]
        simp [Port.landed, hlReg, qp_step h, hwrite]
      · have hlReg : (step s i).lReg = .write := by simp [lReg_step, lStep, hwrite, hend]
        have hcmd : (step s i).lWrCmd = s.lWrCmd := by simp [lWrCmd_step, lStep, hwrite]
        simp [Port.landed, hlReg, hcmd, qp_step h, hwrite, after_after]
    · simp [Port.landed, lReg_step_ne_write i hidle hwrite, qp_step h, hwrite]

/-- A cycle that does not take the command of the kind `k` leaves what lands in its
register. -/
theorem landed_step_of_kind (hk : k ∈ qpKinds) (howned : Owned s) (h : Untouched i q k.idx)
    (hnot : taken s i k = false) : (step s i).landed q k.idx = s.landed q k.idx := by
  by_cases hnone : ∀ k', taken s i k' = false
  · exact landed_step_of_not_taken h hnone
  · obtain ⟨k', hk'⟩ := not_forall.mp hnone
    rw [Bool.not_eq_false] at hk'
    rw [landed_step_of_taken h hk']
    refine after_of_other hk (howned k' (valid_of_taken i k' hk')) ?_
    rintro rfl
    rw [hnot] at hk'
    cases hk'

/-- **Only a pulse changes the settled value.**  As long as no pulse for another queue
pair takes the slot from `q`, the value is that of the last pulse. -/
theorem settled_step (hk : k ∈ qpKinds) (howned : Owned s) (h : Untouched i q k.idx)
    (hkept : Kept s i k q) :
    (step s i).settled k q =
      match i.wb.cmd k with
      | some c => after c q k.idx (s.settled k q)
      | none => s.settled k q := by
  cases hnot : taken s i k with
  | true =>
    -- the waiting command goes into the write, and the slot is free for the pulse
    have hv := valid_of_taken i k hnot
    have hland := landed_step_of_taken h hnot
    cases hp : i.wb.cmd k with
    | none => simp [Port.settled, hp, Slot.capture, hnot, hv, hland]
    | some c => simp [Port.settled, hp, Slot.capture, hv, hland]
  | false =>
    have hland := landed_step_of_kind hk howned h hnot
    cases hp : i.wb.cmd k with
    | none => simp [Port.settled, hp, Slot.capture, hnot, hland]
    | some c =>
      have hnew : (step s i).settled k q = after c q k.idx (s.landed q k.idx) := by
        simp [Port.settled, hp, Slot.capture, hland]
      rw [hnew, Port.settled]
      split_ifs with hv
      · simp only [after_after_of_own hk (howned k hv) (own_of_cmd hp)]
        split_ifs with hc
        · rfl
        · -- the command that is overwritten is one for another queue pair
          rw [after_of_not_hits fun hhits =>
              hc ((hits_iff_of_own hk (own_of_cmd hp)).mp hhits).symm,
            after_of_not_hits fun hhits => ?_]
          have haddr := ((hits_iff_of_own hk (howned k hv)).mp hhits).symm
          rcases hkept ⟨hv, haddr⟩ with htaken | hsame
          · rw [hnot] at htaken
            cases htaken
          · exact hc (hsame c hp)
      · rfl

/-- What waits in a slot has been sent in this cycle or was waiting. -/
theorem holds_of_step (h : (step s i).Holds k q) :
    (∃ c ∈ i.wb.cmd k, c.address = q) ∨ s.Holds k q ∧ taken s i k = false := by
  obtain ⟨hv, haddr⟩ := h
  rw [slots_step] at hv haddr
  cases hp : i.wb.cmd k with
  | some c =>
    rw [hp] at haddr
    exact Or.inl ⟨c, rfl, haddr⟩
  | none =>
    simp only [hp, Slot.capture] at hv haddr
    split_ifs at hv haddr with htaken
    exact Or.inr ⟨⟨hv, haddr⟩, by simpa using htaken⟩

/-- A write begins in `L_IDLE`, with the hold counter as it is, or goes on for a cycle. -/
theorem of_lReg_step_write (h : (step s i).lReg = .write) :
    (∃ k, taken s i k = true ∧ (step s i).lWrCmd = (s.slots k).cmd ∧ s.lReg = .idle ∧
      (step s i).holdAxis = s.holdAxis) ∨
    s.lReg = .write ∧ (step s i).lWrCmd = s.lWrCmd ∧ s.holdAxis ≠ 1 ∧
      (step s i).holdAxis = s.holdAxis + 1 := by
  by_cases hidle : s.lReg = .idle
  · cases hp : pick s.slots i with
    | none => simp [lReg_step, lStep, hidle, hp] at h
    | some p =>
      cases p with
      | cmdFifo => simp [lReg_step, lStep, hidle, hp] at h
      | read c => cases hall : c.readAll <;> simp [lReg_step, lStep, hidle, hp, hall] at h
      | wb k =>
        refine Or.inl ⟨k, (taken_iff i k s).mpr ⟨hidle, hp⟩, ?_, hidle, ?_⟩
        · simp [lWrCmd_step, lStep, hidle, hp]
        · simp [step_eq, lStep, hidle, hp]
  · by_cases hwrite : s.lReg = .write
    · have hend : s.holdAxis ≠ 1#2 := by
        intro hend
        simp [lReg_step, lStep, hwrite, hend] at h
      refine Or.inr ⟨hwrite, ?_, hend, ?_⟩
      · simp [lWrCmd_step, lStep, hwrite]
      · simp [step_eq, lStep, hwrite, hend]
    · exact absurd h (lReg_step_ne_write i hidle hwrite)

/-- What is being written came out of a slot. -/
def WritesOwn (s : Port) : Prop := s.lReg = .write → ∃ k : WbKind, k.Own s.lWrCmd

theorem WritesOwn.step (h : WritesOwn s) (howned : Owned s) : WritesOwn (step s i) := by
  intro hw
  rcases of_lReg_step_write hw with ⟨k, htaken, hcmd, -, -⟩ | ⟨hold, hcmd, -, -⟩
  · rw [hcmd]
    exact ⟨k, howned k (valid_of_taken i k htaken)⟩
  · rw [hcmd]
    exact h hold

/-- No write-back goes to the configuration of a queue pair. -/
theorem qpconfi_step (h : WritesOwn s) (huntouched : Untouched i q qpconfiIdx) :
    (step s i).regs.qp q qpconfiIdx = s.regs.qp q qpconfiIdx := by
  rw [qp_step huntouched]
  split_ifs with hw
  · obtain ⟨k, hown⟩ := h hw
    refine after_of_not_hits fun hhits => ?_
    have hregion := hown.region.symm.trans hhits.1
    have hidx := hown.bramIdx.symm.trans hhits.2.2.symm
    revert hregion hidx
    cases k <;> decide
  · rfl

/-- What is being written was waiting or was being written. -/
theorem writes_of_step (hk : k ∈ qpKinds) (howned : Owned s) (h : (step s i).Writes k q) :
    (s.Holds k q ∧ taken s i k = true) ∨ s.Writes k q := by
  obtain ⟨hwrite, hhits⟩ := h
  rcases of_lReg_step_write hwrite with ⟨k', htaken, hcmd, -, -⟩ | ⟨hold, hcmd, -, -⟩
  · rw [hcmd] at hhits
    have hv := valid_of_taken i k' htaken
    have hown := howned k' hv
    have hsame : k' = k := by
      by_contra hne
      exact idx_ne hk hne (hown.region.symm.trans hhits.1)
        (hown.bramIdx.symm.trans hhits.2.2.symm)
    subst hsame
    exact Or.inl ⟨⟨hv, hhits.2.1.symm⟩, htaken⟩
  · rw [hcmd] at hhits
    exact Or.inr ⟨hold, hhits⟩

/-- Nothing for `q` is waiting or being written. -/
def Clear (s : Port) (k : WbKind) (q : BitVec 8) : Prop := ¬ s.Holds k q ∧ ¬ s.Writes k q

/-- Without a pulse for `q` it stays so. -/
theorem Clear.step (h : Clear s k q) (hk : k ∈ qpKinds) (howned : Owned s)
    (hpulse : ∀ c ∈ i.wb.cmd k, c.address ≠ q) : Clear (step s i) k q := by
  constructor
  · intro hholds
    rcases holds_of_step hholds with ⟨c, hc, haddr⟩ | ⟨hold, -⟩
    · exact hpulse c hc haddr
    · exact h.1 hold
  · intro hwrites
    rcases writes_of_step hk howned hwrites with ⟨hold, -⟩ | hold
    · exact h.1 hold
    · exact h.2 hold

end Step

/-! ## Rows that are read -/

/-- The outputs of the RAMs follow the register `r` of queue pair `q` while its row is
read. -/
structure Rows (q : BitVec 8) (r : RegIdx) (s : Port) : Prop where
  holdAxis : s.lReg ≠ .readSingle → s.lReg ≠ .readMulti → s.lReg ≠ .write → s.holdAxis = 0
  single : s.lReg = .readSingle → s.lRdCmd.readAll = false
  latched : s.lReg = .readMulti → s.holdAxis = 1 → s.lRdCmd.region = 2 →
    s.lRdCmd.address = q → s.qpRdReg r = s.regs.qp q r
  delivered : s.lReg = .readReady → s.lRdCmd.readAll = true → s.lRdCmd.region = 2 →
    s.lRdCmd.address = q → s.qpRdReg r = s.regs.qp q r ∧ s.qpRdRegQ r = s.regs.qp q r

section Rows

variable {q : BitVec 8} {r : RegIdx} {s : Port} {i : Input}

theorem Rows.of_control (hhold : s.holdAxis = 0) (hsingle : s.lReg ≠ .readSingle)
    (hready : s.lReg ≠ .readReady) : Rows q r s where
  holdAxis _ _ _ := hhold
  single h := absurd h hsingle
  latched _ h := absurd (hhold.symm.trans h) (by decide)
  delivered h := absurd h hready

theorem Rows.startRead (h : s.holdAxis = 0) (c : RdCmd) : Rows q r (s.startRead c) := by
  refine ⟨fun _ _ _ => h, ?_, fun _ hno => absurd (h.symm.trans hno) (by decide), ?_⟩
  · intro hs
    cases hall : c.readAll <;> simp [hall] at hs ⊢
  · intro hs
    cases hall : c.readAll <;> simp [hall] at hs

theorem Rows.readMulti (h : Rows q r s) (hs : s.lReg = .readMulti) :
    Rows q r (s.accessMulti.endAccess .readReady) := by
  have hregs : (s.accessMulti.endAccess .readReady).regs = s.regs := by
    rw [Port.regs_endAccess, Port.accessMulti]
    split_ifs <;> rfl
  by_cases hend : s.holdAxis = 1#2
  · refine ⟨by simp [hend], by simp [hend], by simp [hend], ?_⟩
    intro _ _ hregion haddr
    simp only [Port.lRdCmd_endAccess, Port.control_accessMulti] at hregion haddr
    rw [hregs]
    simp only [Port.outputs_endAccess, s.accessMulti_qp hregion, haddr,
      h.latched hs hend hregion haddr, and_self]
  · have hlReg : (s.accessMulti.endAccess .readReady).lReg = .readMulti := by simp [hend, hs]
    refine ⟨fun _ hno => absurd hlReg hno, fun hno => ?_, ?_, fun hno => ?_⟩
    · rw [hlReg] at hno
      cases hno
    · intro _ _ hregion haddr
      simp only [Port.lRdCmd_endAccess, Port.control_accessMulti] at hregion haddr
      rw [hregs]
      simp only [Port.outputs_endAccess, s.accessMulti_qp hregion, haddr]
    · rw [hlReg] at hno
      cases hno

theorem Rows.lStep (h : Rows q r s) : Rows q r (lStep s i) := by
  obtain ⟨s', hstep, hedge⟩ := exists_lEdge s i
  rw [hstep]
  cases hedge with
  | stay => exact h
  | cmdFifo hs =>
    have hhold := h.holdAxis (by simp [hs]) (by simp [hs]) (by simp [hs])
    exact .of_control hhold (by simp) (by simp)
  | start c hs =>
    have hhold : s.holdAxis = 0 := by
      rcases hs with hs | hs <;> exact h.holdAxis (by simp [hs]) (by simp [hs]) (by simp [hs])
    exact .startRead hhold c
  | writeBack k hs =>
    have hhold := h.holdAxis (by simp [hs]) (by simp [hs]) (by simp [hs])
    exact .of_control hhold (by simp) (by simp)
  | single hs =>
    have hall := h.single hs
    refine ⟨?_, ?_, ?_, ?_⟩
    · by_cases hend : s.holdAxis = 1#2 <;> simp [hend, hs]
    · intro _
      simpa using hall
    · by_cases hend : s.holdAxis = 1#2 <;> simp [hend, hs]
    · intro _ hno
      simp [hall] at hno
  | multi hs => exact h.readMulti hs
  | write hs =>
    by_cases hend : s.holdAxis = 1#2
    · exact .of_control (by simp [hend]) (by simp [hend]) (by simp [hend])
    · refine ⟨?_, ?_, ?_, ?_⟩ <;> simp [hend, hs]
  | announce hs =>
    have hhold := h.holdAxis (by simp [hs]) (by simp [hs]) (by simp [hs])
    refine .of_control hhold ?_ ?_ <;> dsimp only <;> split_ifs <;> simp
  | rest hs =>
    have hhold := h.holdAxis (by simp [hs]) (by simp [hs]) (by simp [hs])
    exact .of_control hhold (by simp) (by simp)

theorem Rows.step (h : Rows q r s) (huntouched : Untouched i q r) :
    Rows q r (RegisterPort.step s i) := by
  have hA : Rows q r (s.afterPortA i) := by
    refine ⟨h.holdAxis, h.single, ?_, ?_⟩
    · rw [qp_afterPortA huntouched]
      exact h.latched
    · rw [qp_afterPortA huntouched]
      exact h.delivered
  have hL := hA.lStep (i := i)
  exact ⟨hL.holdAxis, hL.single, hL.latched, hL.delivered⟩

theorem rows_reset (regs : RegFile) : Rows q r (Port.reset regs) :=
  .of_control rfl nofun nofun

theorem owned_reset (regs : RegFile) : Owned (Port.reset regs) := nofun

/-- **A read after everything has landed.**  When a row of `q` is announced and the slot of
the kind holds nothing for `q`, the row and its copy hold the settled value. -/
theorem Rows.settled {k : WbKind} (h : Rows q k.idx s) (hk : k ∈ qpKinds) (howned : Owned s)
    (hready : s.lReg = .readReady) (hcmd : s.lRdCmd.readAll = true ∧ s.lRdCmd.region = 2)
    (haddr : s.lRdCmd.address = q) (hclear : ¬ s.Holds k q) :
    s.qpRdReg k.idx = s.settled k q ∧ s.qpRdRegQ k.idx = s.settled k q := by
  have hnot : ¬ s.Writes k q := fun hw => nomatch hready.symm.trans hw.1
  rw [settled_of_not_holds hk howned hclear, landed_of_not_writes hnot]
  exact h.delivered hready hcmd.1 hcmd.2 haddr

end Rows

end RegisterPort
end RecoNIC
