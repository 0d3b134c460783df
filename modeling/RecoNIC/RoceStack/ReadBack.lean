import RecoNIC.RoceStack.Decoder
import RecoNIC.RoceStack.HostRegisters

/-!
# What the host reads back

The registers that are the host's are a memory of 32-bit words with byte strobes: a read
returns what the writes to the same address have left there, in every run of the two clock
domains (`read_back_run`).

Two things are needed.  A write reaches the register at its own address and no other, as the
register map has no aliases; a write with an index that does not exist would.  And a read
takes two cycles in `R_GETDATA`, in which nothing may change the register: the host waits for
the answer, and no write-back goes there.
-/

namespace RecoNIC
namespace ReadBack

open Synchronous AxilPort Csr Decoder HostRegisters

/-- What the writes to an address leave there. -/
def wordAt (a : BitVec 18) (v : BitVec 32) (ws : List HostWrite) : BitVec 32 :=
  ws.foldl (fun v w => if w.1 = a then mergeBytes v w.2.2 w.2.1 else v) v

section Map

variable {a b : BitVec 18} {x c : RegFile.Cell} {regs : RegFile} {w : HostWrite}

/-- The addresses of the global registers. -/
theorem addressed_eq_glb_iff {e : BitVec 8} :
    addressed a = some (.glb e) ↔ ¬ InPd a ∧ ¬ InQp a ∧ a.setWidth 2 = (0 : BitVec 2) ∧
      (a >>> 2).setWidth 8 = e := by
  unfold addressed
  split_ifs with hpd hidx hqp hidx halign <;> simp_all [Option.map_eq_some_iff]

/-- A global register lies below the queue pairs. -/
theorem not_le_of_global (hpd : ¬ InPd a) (hqp : ¬ InQp a) : ¬ 0x202 ≤ a.extractLsb' 8 10 := by
  intro hge
  refine hqp ⟨?_, hge⟩
  cases hbit : a.getLsbD 17 with
  | true => rfl
  | false => exact absurd hbit hpd

/-- The range of the global registers. -/
theorem range_of_global (hpd : ¬ InPd a) (hqp : ¬ InQp a) :
    2 ^ 17 ≤ a.toNat ∧ a.toNat < 2 ^ 17 + 2 ^ 9 := by
  have hlow := not_le_of_global hpd hqp
  rw [inPd_iff] at hpd
  have hlow' : ¬ 0x202 ≤ (a.extractLsb' 8 10).toNat := hlow
  rw [BitVec.extractLsb'_toNat, Nat.shiftRight_eq_div_pow] at hlow'
  have hlt := a.isLt
  omega

/-- **No aliases**, the global registers included. -/
theorem eq_of_addressed (ha : addressed a = some c) (hb : addressed b = some c) : a = b := by
  cases c with
  | pd e r => exact addressed_injective ha hb (Or.inl (addressed_eq_pd_iff.mp ha).1)
  | qp q r => exact addressed_injective ha hb (Or.inr (addressed_eq_qp_iff.mp ha).2.1)
  | glb e =>
    obtain ⟨hpd, hqp, halign, he⟩ := addressed_eq_glb_iff.mp ha
    obtain ⟨hpd', hqp', halign', he'⟩ := addressed_eq_glb_iff.mp hb
    have hrange := range_of_global hpd hqp
    have hrange' := range_of_global hpd' hqp'
    have hidx := congrArg BitVec.toNat (he.trans he'.symm)
    have hlow := congrArg BitVec.toNat halign
    have hlow' := congrArg BitVec.toNat halign'
    simp only [BitVec.toNat_setWidth, BitVec.toNat_ushiftRight, Nat.shiftRight_eq_div_pow]
      at hidx hlow hlow'
    exact BitVec.eq_of_toNat_eq (by omega)

/-- The read decoder agrees with the map, the global registers included. -/
theorem readValue_eq (ha : addressed a = some c) (regs : RegFile) :
    readValue regs a = regs.read c := by
  cases c with
  | pd e r => exact readValue_of_addressed ha (Or.inl (addressed_eq_pd_iff.mp ha).1) regs
  | qp q r => exact readValue_of_addressed ha (Or.inr (addressed_eq_qp_iff.mp ha).2.1) regs
  | glb e =>
    obtain ⟨hpd, hqp, -, rfl⟩ := addressed_eq_glb_iff.mp ha
    exact (if_neg hpd).trans (if_neg (not_le_of_global hpd hqp))

/-- The registers that follow another one are written back. -/
theorem not_hostOnly_of_mem_mirror (h : x ∈ mirror c) : ¬ HostOnly x := by
  intro hx
  cases c with
  | pd e r => cases h
  | glb e => cases h
  | qp q r =>
    obtain ⟨r', hr', rfl⟩ := List.mem_map.mp h
    have hq : ((q ++ 0#64).extractLsb' 64 8 : BitVec 8) = q :=
      BitVec.extractLsb'_append_eq_left
    unfold mirrorIdx at hr'
    split_ifs at hr' with hlsb hmsb
    · rw [List.mem_singleton] at hr'
      refine hx { RegisterPort.WbIn.none with statrq := some (q ++ 0#64, 0) }
        .statrqbufcai _ rfl ?_
      simp [RegFile.target, RegisterPort.qpWb, hq, hr']
    · rw [List.mem_singleton] at hr'
      refine hx { RegisterPort.WbIn.none with statrq := some (q ++ 0#64, 0) }
        .statrqbufcamsbi _ rfl ?_
      simp [RegFile.target, RegisterPort.qpWb, hq, hr']
    · cases hr'

/-- A write that the decoder knows is answered with `OKAY`. -/
theorem resp_of_writable (h : Writable a) (data : BitVec 32) (strb : BitVec 4) :
    (decode a data strb).resp = okay := by
  unfold Writable at h
  split_ifs at h with hpd hqp
  · obtain ⟨r, hr⟩ := Option.isSome_iff_exists.mp h
    have hdec : decode a data strb = decodePd a data strb := if_pos hpd
    rw [hdec, decodePd, hr]
  · obtain ⟨e, he⟩ := Option.isSome_iff_exists.mp h
    have hdec : decode a data strb = decodeQp a data strb := (if_neg hpd).trans (if_pos hqp.2)
    rw [hdec, decodeQp, if_neg (not_numQp_le a), he]
  · obtain ⟨queued, hq⟩ := Option.isSome_iff_exists.mp h
    have hdec : decode a data strb = decodeGlb a data strb :=
      (if_neg hpd).trans (if_neg (not_le_of_global hpd hqp))
    rw [hdec, decodeGlb, hq]

/-- The interrupt-status registers are not among those that can be written. -/
theorem not_writable_of_isIntSts (h : IsIntSts a) : ¬ Writable a := by
  obtain ⟨hpd, hqp, hlow, -⟩ := h
  rw [Writable, if_neg hpd, if_neg hqp]
  intro hsome
  obtain ⟨queued, hq⟩ := Option.isSome_iff_exists.mp hsome
  have htable : (glbWriteTable.all fun e => !decide (0x184 ≤ e.1)) = true := by decide +kernel
  have hentry := List.all_eq_true.mp htable _ (Csr.mem_of_lookup hq)
  exact absurd hlow (by simpa using hentry)

/-- **One write**, as the register at an address sees it. -/
theorem read_applyWrite_at (ha : addressed a = some x) (hx : HostOnly x) (hwritable : Writable a)
    (hw : ¬ (Beyond w.1 ∧ Writable w.1)) :
    (applyWrite regs w).read x =
      if w.1 = a then mergeBytes (regs.read x) w.2.2 w.2.1 else regs.read x := by
  obtain ⟨⟨-, c, hc, hread⟩ | ⟨hint, -, -, -, c, hc, hread⟩ | ⟨hresp, hsame⟩, -⟩ :=
    (writeExact_applyWrite_iff regs w).mpr hw
  · rw [hread x]
    by_cases heq : w.1 = a
    · have hcx : c = x := Option.some.inj (hc.symm.trans (heq ▸ ha))
      rw [if_pos heq, if_pos (hcx ▸ List.mem_cons_self)]
    · rw [if_neg heq, if_neg]
      rintro (_ | ⟨_, hmem⟩)
      · exact heq (eq_of_addressed hc ha)
      · exact not_hostOnly_of_mem_mirror hmem hx
  · have hne : w.1 ≠ a := fun heq => not_writable_of_isIntSts (heq ▸ hint) hwritable
    rw [hread x, if_neg hne, if_neg]
    rintro rfl
    exact hne (eq_of_addressed hc ha)
  · have hne : w.1 ≠ a := by
      intro heq
      have hokay := resp_of_writable (heq ▸ hwritable) w.2.1 w.2.2
      exact absurd (hokay.symm.trans hresp) (by decide)
    rw [hsame, if_neg hne]

/-- The writes of a run, as the register sees them. -/
theorem read_foldl_applyWrite (ha : addressed a = some x) (hx : HostOnly x)
    (hwritable : Writable a) {ws : List HostWrite}
    (hws : ∀ w ∈ ws, ¬ (Beyond w.1 ∧ Writable w.1)) :
    (ws.foldl applyWrite regs).read x = wordAt a (regs.read x) ws := by
  induction ws generalizing regs with
  | nil => rfl
  | cons w ws ih =>
    rw [List.foldl_cons, ih fun v hv => hws v (List.mem_cons_of_mem _ hv),
      read_applyWrite_at ha hx hwritable (hws w List.mem_cons_self)]
    rfl

end Map

/-! ## A read under way -/

/-- A read of the register under way has for its answer what the host has written. -/
structure Returning (regs : RegFile) (a : BitVec 18) (x : RegFile.Cell)
    (s : Csr.State × List HostWrite) : Prop where
  owned : Owned regs x s
  reading : Reading a ((s.2.foldl applyWrite regs).read x) s.1.axil

section Step

variable {regs : RegFile} {a : BitVec 18} {x : RegFile.Cell} {s : Csr.State × List HostWrite}

/-- Outside `WRITE` the register has its value. -/
theorem Returning.readValue (h : Returning regs a x s) (ha : addressed a = some x)
    (hst : s.1.axil.rwState ≠ .write) :
    readValue s.1.port.regs a = (s.2.foldl applyWrite regs).read x := by
  have hsettled : settled s.1 = _ := if_neg hst
  rw [readValue_eq ha, ← h.owned.cell, hsettled]

/-- An edge of the AXI-Lite side.  A write is accepted only where no read is under way. -/
theorem Returning.axil (h : Returning regs a x s) (ha : addressed a = some x) (i : AxilIn) :
    Returning regs a x (Csr.step s.1 (.axil i), noteWrite s.2 s.1 (.axil i)) := by
  refine ⟨h.owned.axil i, ?_⟩
  change Reading a (((s.2 ++ (acceptedWrite s.1.axil i).toList).foldl applyWrite regs).read x)
    (s.1.axil.step s.1.port.regs i)
  cases hw : acceptedWrite s.1.axil i with
  | none =>
    rw [Option.toList_none, List.append_nil]
    by_cases hst : s.1.axil.rwState = .write
    · exact .step_write hst (h.reading.idle (by simp [hst]))
    · exact h.reading.step (h.readValue ha hst)
  | some w =>
    have hready : s.1.axil.rwState = .wReady := by
      by_contra hne
      rw [acceptedWrite, if_neg hne] at hw
      cases hw
    have hhold := h.reading.idle (by simp [hready])
    rw [acceptedWrite, if_pos hready] at hw
    obtain ⟨v, hv, -⟩ := Option.map_eq_some_iff.mp hw
    rw [Axil.step, hready]
    simp only [hv]
    exact .of_quiet (by simp) (by simp) hhold

theorem Returning.axis (h : Returning regs a x s) (hx : HostOnly x) (wires : AxilIn)
    (i : RegisterPort.Input) :
    Returning regs a x (Csr.step s.1 (.axis wires i), noteWrite s.2 s.1 (.axis wires i)) :=
  ⟨h.owned.axis hx wires i, h.reading⟩

end Step

/-- **What the host reads back.**  In any run of the two sides, with any order of their edges
and any write-backs: a register of the host, which is one whose address the write decoder knows
and that no write-back goes to, answers a read with what the writes to its address have left
there, each through its strobe, and no other write matters.  The indices that are written have
to exist. -/
theorem read_back_run {a : BitVec 18} {x : RegFile.Cell} (ha : addressed a = some x)
    (hx : HostOnly x) (hwritable : Writable a) (regs : RegFile) (es : List Csr.Edge)
    (hexist : ∀ w ∈ ((hosted regs).run es).2, ¬ (Beyond w.1 ∧ Writable w.1))
    (hst : ((hosted regs).run es).1.axil.rwState = .rValid)
    (haddr : ((hosted regs).run es).1.axil.rAddr = a) :
    ((hosted regs).run es).1.axil.rData =
      wordAt a (regs.read x) ((hosted regs).run es).2 := by
  have hreset : Returning regs a x (hosted regs).reset :=
    ⟨owned_hosted_reset regs x, reading_reset _ _⟩
  have hrun : (hosted regs).Always (Returning regs a x) (hosted regs).reset es := by
    refine Machine.always_of_step (fun s e h => ?_) hreset es
    cases e with
    | axil i => exact h.axil ha i
    | axis wires i => exact h.axis hx wires i
  have hlast : Returning regs a x ((hosted regs).run es) := hrun.last
  rw [hlast.reading.valid hst haddr, read_foldl_applyWrite ha hx hwritable hexist]

/-- `SQBAi` of the first queue pair is written, the stack writes its `CQHEADi` back in between,
and the host reads. -/
def writeAndRead : List Csr.Edge :=
  [.axil { quiet with aw := some 0x20210 }, .axil { quiet with w := some (5, 0xf) },
    .axis quiet { RegisterPort.Input.quiet with
      wb := { RegisterPort.WbIn.none with cqheadi := some 9 } },
    .axil quiet, .axil quiet, .axil { quiet with bready := true },
    .axil { quiet with ar := some 0x20210 }, .axil quiet, .axis quiet .quiet, .axil quiet]

theorem read_back_run_writeAndRead :
    ((hosted .zero).run writeAndRead).1.axil.rData =
      wordAt 0x20210 (RegFile.zero.read (.qp 0 sqbaiIdx)) ((hosted .zero).run writeAndRead).2 := by
  have hwrites : ((hosted .zero).run writeAndRead).2 = [(0x20210, 5, 0xf)] := rfl
  have hwritable : Writable 0x20210 := by
    rw [Writable, if_neg (by decide), if_pos (by decide)]
    decide
  refine read_back_run (by decide) (hostOnly_qp (by decide) 0) hwritable .zero writeAndRead ?_
    rfl rfl
  rw [hwrites]
  intro w hw
  rw [List.mem_singleton.mp hw]
  exact fun h => absurd h.1 (show ¬ Beyond 0x20210 by decide)

end ReadBack
end RecoNIC
