import RecoNIC.RoceStack.Csr

/-!
# What an address of the registers means

The two decoders of `roce_stack_csr.sv`, compared with the register map.  An address of 18
bits has one meaning in the map:

* below `0x10000` it is a register of a protection-domain entry;
* below `0x20000` it is nothing;
* below `0x20200` it is a global register;
* from there on it is a register of queue pair `addr[17:8] - 0x202`, if that is below
  `NUM_QP`.

`addressed` is this map.  The decoders lose bits on the way: `PD_ADDR_AXIL` is
`addr[15:8]`, and `QP_ADDR_AXIL` is cut to eight bits before it is compared with `NUM_QP`, so
that the comparison never fails.  Inside the map this does no harm; outside of it the access
lands in a register with another address, if there is one (`writeExact_applyWrite_iff`,
`readValue_of_addressed`).
-/

namespace RecoNIC
namespace Decoder

open Synchronous AxilPort

/-! ## The register map -/

/-- `NUM_PD`. -/
def numPd : Nat := 256

/-- The address is in the region of the protection domains. -/
def InPd (addr : BitVec 18) : Prop := addr.getLsbD 17 = false

/-- The address is in the region of the queue pairs. -/
def InQp (addr : BitVec 18) : Prop :=
  addr.getLsbD 17 = true ∧ 0x202 ≤ addr.extractLsb' 8 10

instance (addr : BitVec 18) : Decidable (InPd addr) := inferInstanceAs (Decidable (_ = _))

instance (addr : BitVec 18) : Decidable (InQp addr) := inferInstanceAs (Decidable (_ ∧ _))

/-- The index of a protection-domain entry, with all its bits. -/
def pdIndex (addr : BitVec 18) : Nat := (addr.extractLsb' 8 9).toNat

/-- The index of a queue pair, with all its bits. -/
def qpIndex (addr : BitVec 18) : Nat := (addr.extractLsb' 8 10 - 0x202).toNat

/-- The index is one that does not exist. -/
def Beyond (addr : BitVec 18) : Prop :=
  InPd addr ∧ numPd ≤ pdIndex addr ∨ InQp addr ∧ numQp ≤ qpIndex addr

instance (addr : BitVec 18) : Decidable (Beyond addr) := inferInstanceAs (Decidable (_ ∨ _))

/-- The register that an address names. -/
def addressed (addr : BitVec 18) : Option RegFile.Cell :=
  if InPd addr then
    if pdIndex addr < numPd then
      (pdTable.lookup (addr.setWidth 8)).map (.pd (BitVec.ofNat 8 (pdIndex addr)))
    else none
  else if InQp addr then
    if qpIndex addr < numQp then
      (qpReadTable.lookup (addr.setWidth 8)).map (.qp (BitVec.ofNat 8 (qpIndex addr)))
    else none
  else if addr.setWidth 2 = (0 : BitVec 2) then some (.glb ((addr >>> 2).setWidth 8))
  else none

/-- The register that a write of another one updates too: `STATRQBUFCA` follows `RQBA`. -/
def mirrorIdx (r : RegIdx) : List RegIdx :=
  if r = rqbaiIdx then [statrqbufcaiIdx]
  else if r = rqbamsbiIdx then [statrqbufcamsbiIdx]
  else []

/-- The same for the register of a queue pair. -/
def mirror : RegFile.Cell → List RegFile.Cell
  | .qp q r => (mirrorIdx r).map (.qp q)
  | _ => []

/-- The address of an interrupt-status register. -/
def IsIntSts (addr : BitVec 18) : Prop :=
  ¬ InPd addr ∧ ¬ InQp addr ∧ 0x184 ≤ addr.setWidth 9 ∧ addr.setWidth 9 ≤ (0x1CC : BitVec 9)

/-! ## What is asked of an access -/

/-- A write, from the registers before it, the registers after it and the response: it
updates the register it names, with its mirror, and is answered with `OKAY`; or it clears an
interrupt-status register; or it is refused and changes nothing.  A queue pair that does not
exist is refused. -/
def WriteExact (regs : RegFile) (w : HostWrite) (regs' : RegFile) (resp : BitVec 2) : Prop :=
  ((resp = okay ∧ ∃ c, addressed w.1 = some c ∧ ∀ x, regs'.read x =
      if x ∈ c :: mirror c then mergeBytes (regs.read x) w.2.2 w.2.1 else regs.read x) ∨
    (IsIntSts w.1 ∧ w.2.1 = 1 ∧ w.2.2.getLsbD 0 = true ∧ resp = okay ∧
      ∃ c, addressed w.1 = some c ∧ ∀ x, regs'.read x = if x = c then 0 else regs.read x) ∨
    (resp = slverr ∧ regs' = regs)) ∧
  (InQp w.1 → numQp ≤ qpIndex w.1 → resp = slverr)

/-- A read of a queue pair that does not exist is refused. -/
def ReadExact (addr : BitVec 18) (resp : BitVec 2) : Prop :=
  InQp addr → numQp ≤ qpIndex addr → resp = slverr

/-- The write decoder knows the low bits of the address. -/
def Writable (addr : BitVec 18) : Prop :=
  if InPd addr then (pdTable.lookup (addr.setWidth 8)).isSome
  else if InQp addr then (qpWriteTable.lookup (addr.setWidth 8)).isSome
  else (glbWriteTable.lookup (addr.setWidth 9)).isSome

/-! ## The tables -/

/-- The write table is the register map, with the mirrors. -/
theorem qpWriteTable_spec {a : BitVec 8} {rs : List RegIdx}
    {event : Option RegisterPort.QpEvent} (h : qpWriteTable.lookup a = some (rs, event)) :
    ∃ r, qpReadTable.lookup a = some r ∧ rs = r :: mirrorIdx r := by
  have htable : (qpWriteTable.all fun e =>
      (qpReadTable.lookup e.1).any fun r => e.2.1 == r :: mirrorIdx r) = true := by decide +kernel
  have hentry := List.all_eq_true.mp htable _ (Csr.mem_of_lookup h)
  cases hread : qpReadTable.lookup a with
  | none => simp [hread] at hentry
  | some r =>
    rw [hread] at hentry
    exact ⟨r, rfl, eq_of_beq hentry⟩

/-- No register is twice in the map. -/
theorem qpReadTable_injective {a b : BitVec 8} {r : RegIdx} (ha : qpReadTable.lookup a = some r)
    (hb : qpReadTable.lookup b = some r) : a = b := by
  have htable : (qpReadTable.all fun e => qpReadTable.all fun e' =>
      e.2 != e'.2 || e.1 == e'.1) = true := by decide +kernel
  have hpair := List.all_eq_true.mp (List.all_eq_true.mp htable _ (Csr.mem_of_lookup ha)) _
    (Csr.mem_of_lookup hb)
  simpa using hpair

theorem pdTable_injective {a b : BitVec 8} {r : RegIdx} (ha : pdTable.lookup a = some r)
    (hb : pdTable.lookup b = some r) : a = b := by
  have htable : (pdTable.all fun e => pdTable.all fun e' => e.2 != e'.2 || e.1 == e'.1) = true := by
    decide +kernel
  have hpair := List.all_eq_true.mp (List.all_eq_true.mp htable _ (Csr.mem_of_lookup ha)) _
    (Csr.mem_of_lookup hb)
  simpa using hpair

/-- The global registers are words. -/
theorem glbWriteTable_aligned {a : BitVec 9} {queued : Bool}
    (h : glbWriteTable.lookup a = some queued) : a.setWidth 2 = (0 : BitVec 2) := by
  have htable : (glbWriteTable.all fun e => e.1.setWidth 2 == (0 : BitVec 2)) = true := by
    decide +kernel
  exact eq_of_beq (List.all_eq_true.mp htable _ (Csr.mem_of_lookup h))

/-! ## Indices -/

section Indices

variable {a b addr : BitVec 18}

/-- The index of an entry, and the low bits of it that are decoded. -/
theorem pdAddr_eq (addr : BitVec 18) : pdAddr addr = BitVec.ofNat 8 (pdIndex addr) := by
  refine BitVec.eq_of_toNat_eq ?_
  simp only [pdAddr, pdIndex, BitVec.extractLsb'_toNat, BitVec.toNat_ofNat]
  omega

theorem qpAddr_eq (addr : BitVec 18) : qpAddr addr = BitVec.ofNat 8 (qpIndex addr) := by
  refine BitVec.eq_of_toNat_eq ?_
  rw [qpAddr, qpIndex, BitVec.toNat_setWidth, BitVec.toNat_ofNat]

/-- The comparison of the source: eight bits are never as much as `NUM_QP`. -/
theorem not_numQp_le (addr : BitVec 18) : ¬ numQp ≤ (qpAddr addr).toNat :=
  Nat.not_le.mpr (qpAddr addr).isLt

theorem inPd_iff : InPd addr ↔ addr.toNat < 2 ^ 17 := by
  have hmsb := BitVec.msb_eq_false_iff_two_mul_lt (x := addr)
  rw [BitVec.msb_eq_getLsbD_last] at hmsb
  refine hmsb.trans ?_
  omega

/-- Two addresses of one entry that agree in their low bytes are equal. -/
theorem eq_of_pdIndex (ha : InPd a) (hb : InPd b) (hidx : pdIndex a = pdIndex b)
    (hlow : a.setWidth 8 = b.setWidth 8) : a = b := by
  have hlow' : a.toNat % 256 = b.toNat % 256 := by
    simpa only [BitVec.toNat_setWidth] using congrArg BitVec.toNat hlow
  rw [pdIndex, pdIndex, BitVec.extractLsb'_toNat, BitVec.extractLsb'_toNat,
    Nat.shiftRight_eq_div_pow, Nat.shiftRight_eq_div_pow] at hidx
  rw [inPd_iff] at ha hb
  exact BitVec.eq_of_toNat_eq (by omega)

theorem eq_of_qpIndex (hidx : qpIndex a = qpIndex b) (hlow : a.setWidth 8 = b.setWidth 8) :
    a = b := by
  have hlow' : a.toNat % 256 = b.toNat % 256 := by
    simpa only [BitVec.toNat_setWidth] using congrArg BitVec.toNat hlow
  have hidx' : a.extractLsb' 8 10 - 0x202 = b.extractLsb' 8 10 - 0x202 :=
    BitVec.eq_of_toNat_eq hidx
  have hhigh : a.extractLsb' 8 10 = b.extractLsb' 8 10 := by bv_omega
  have hhigh' := congrArg BitVec.toNat hhigh
  simp only [BitVec.extractLsb'_toNat, Nat.shiftRight_eq_div_pow] at hhigh'
  have ha := a.isLt
  have hb := b.isLt
  exact BitVec.eq_of_toNat_eq (by omega)

end Indices

/-! ## One access -/

section Access

variable {addr a b : BitVec 18} {c : RegFile.Cell} {regs : RegFile} {w : HostWrite}

/-- A write that is refused. -/
theorem writeExact_of_refused (h : decode w.1 w.2.1 w.2.2 = .refused) :
    WriteExact regs w (applyWrite regs w) (decode w.1 w.2.1 w.2.2).resp := by
  rw [applyWrite, h]
  exact ⟨Or.inr (Or.inr ⟨rfl, rfl⟩), fun _ _ => rfl⟩

/-- A write that updates the cells `cs`. -/
theorem read_applyWrite (cs : List RegFile.Cell)
    (hmap : (decode w.1 w.2.1 w.2.2).writes.map RegFile.target = cs.map some)
    (hword : ∀ c ∈ (decode w.1 w.2.1 w.2.2).writes, c.wstrb = w.2.2 ∧ c.data = w.2.1)
    (x : RegFile.Cell) : (applyWrite regs w).read x =
      if x ∈ cs then mergeBytes (regs.read x) w.2.2 w.2.1 else regs.read x := by
  rw [applyWrite, RegFile.read_foldl_write hword, hmap]
  simp only [List.mem_map, Option.some.injEq, exists_eq_right]

/-- An access that is accepted and names no register. -/
theorem not_writeExact_of_okay {regs' : RegFile} (h : addressed w.1 = none) :
    ¬ WriteExact regs w regs' okay := by
  rintro ⟨⟨-, c, hc, -⟩ | ⟨-, -, -, -, c, hc, -⟩ | ⟨hresp, -⟩, -⟩
  · rw [h] at hc
    cases hc
  · rw [h] at hc
    cases hc
  · exact absurd hresp (by decide)

/-- The interrupt-status registers are out of reach: the test wants the region bit clear. -/
theorem decodeGlb_of_lookup_none {data : BitVec 32} {strb : BitVec 4} (hpd : ¬ InPd addr)
    (h : glbWriteTable.lookup (addr.setWidth 9) = none) :
    decodeGlb addr data strb = .refused := by
  rw [decodeGlb, h]
  refine if_neg fun hrange => ?_
  rw [inPd_iff] at hpd
  have hle : addr.toNat ≤ 0x1CC := hrange.2
  omega

theorem not_inQp_of_inPd (h : InPd addr) : ¬ InQp addr := fun hqp =>
  absurd (h.symm.trans hqp.1) (by simp)

/-- A write to the region of the protection domains. -/
theorem writeExact_of_inPd {data : BitVec 32} {strb : BitVec 4} (hpd : InPd addr) :
    WriteExact regs (addr, data, strb) (applyWrite regs (addr, data, strb))
        (decode addr data strb).resp ↔ ¬ (Beyond addr ∧ Writable addr) := by
  have hqp := not_inQp_of_inPd hpd
  have hdec : decode addr data strb = decodePd addr data strb := if_pos hpd
  cases hr : pdTable.lookup (addr.setWidth 8) with
  | none =>
    have hrefused : decode addr data strb = .refused := by rw [hdec, decodePd, hr]
    refine iff_of_true (writeExact_of_refused hrefused) fun hno => ?_
    rw [Writable, if_pos hpd, hr] at hno
    exact absurd hno.2 (by simp)
  | some r =>
    rw [decodePd, hr] at hdec
    by_cases hidx : pdIndex addr < numPd
    · have haddr : addressed addr = some (.pd (pdAddr addr) r) := by
        rw [addressed, if_pos hpd, if_pos hidx, hr, pdAddr_eq]
        rfl
      refine iff_of_true ⟨Or.inl ⟨by rw [hdec], _, haddr, fun x => ?_⟩, fun hqp' => ?_⟩ ?_
      · exact read_applyWrite [.pd (pdAddr addr) r] (by rw [hdec]; rfl)
          (by rw [hdec]; simp) x
      · exact absurd hqp' hqp
      · rintro ⟨⟨-, hge⟩ | ⟨hqp', -⟩, -⟩
        · exact absurd hge (Nat.not_le.mpr hidx)
        · exact hqp hqp'
    · have haddr : addressed addr = none := by rw [addressed, if_pos hpd, if_neg hidx]
      rw [hdec]
      refine iff_of_false (not_writeExact_of_okay haddr)
        (not_not.mpr ⟨Or.inl ⟨hpd, Nat.not_lt.mp hidx⟩, ?_⟩)
      rw [Writable, if_pos hpd, hr]
      rfl

/-- A write to the region of the queue pairs. -/
theorem writeExact_of_inQp {data : BitVec 32} {strb : BitVec 4} (hpd : ¬ InPd addr)
    (hqp : InQp addr) :
    WriteExact regs (addr, data, strb) (applyWrite regs (addr, data, strb))
        (decode addr data strb).resp ↔ ¬ (Beyond addr ∧ Writable addr) := by
  have hdec : decode addr data strb = decodeQp addr data strb :=
    (if_neg hpd).trans (if_pos hqp.2)
  rw [decodeQp, if_neg (not_numQp_le addr)] at hdec
  cases hr : qpWriteTable.lookup (addr.setWidth 8) with
  | none =>
    have hrefused : decode addr data strb = .refused := by rw [hdec, hr]
    refine iff_of_true (writeExact_of_refused hrefused) fun hno => ?_
    rw [Writable, if_neg hpd, if_pos hqp, hr] at hno
    exact absurd hno.2 (by simp)
  | some e =>
    obtain ⟨rs, event⟩ := e
    obtain ⟨r, hread, rfl⟩ := qpWriteTable_spec hr
    rw [hr] at hdec
    by_cases hidx : qpIndex addr < numQp
    · have haddr : addressed addr = some (.qp (qpAddr addr) r) := by
        rw [addressed, if_neg hpd, if_pos hqp, if_pos hidx, hread, qpAddr_eq]
        rfl
      refine iff_of_true ⟨Or.inl ⟨by rw [hdec], _, haddr, fun x => ?_⟩, fun _ hge => ?_⟩ ?_
      · refine read_applyWrite (.qp (qpAddr addr) r :: mirror (.qp (qpAddr addr) r)) ?_
          (by rw [hdec]; simp) x
        rw [hdec]
        simp [mirror, RegFile.target]
      · exact absurd hge (Nat.not_le.mpr hidx)
      · rintro ⟨⟨hpd', -⟩ | ⟨-, hge⟩, -⟩
        · exact hpd hpd'
        · exact absurd hge (Nat.not_le.mpr hidx)
    · have haddr : addressed addr = none := by
        rw [addressed, if_neg hpd, if_pos hqp, if_neg hidx]
      rw [hdec]
      refine iff_of_false (not_writeExact_of_okay haddr)
        (not_not.mpr ⟨Or.inr ⟨hqp, Nat.not_lt.mp hidx⟩, ?_⟩)
      rw [Writable, if_neg hpd, if_pos hqp, hr]
      rfl

/-- A write to the global registers. -/
theorem writeExact_of_global {data : BitVec 32} {strb : BitVec 4} (hpd : ¬ InPd addr)
    (hqp : ¬ InQp addr) :
    WriteExact regs (addr, data, strb) (applyWrite regs (addr, data, strb))
        (decode addr data strb).resp := by
  have hlow : ¬ 0x202 ≤ addr.extractLsb' 8 10 := by
    intro hge
    refine hqp ⟨?_, hge⟩
    cases hbit : addr.getLsbD 17 with
    | true => rfl
    | false => exact absurd hbit hpd
  have hdec : decode addr data strb = decodeGlb addr data strb :=
    (if_neg hpd).trans (if_neg hlow)
  cases hr : glbWriteTable.lookup (addr.setWidth 9) with
  | none => exact writeExact_of_refused (hdec.trans (decodeGlb_of_lookup_none hpd hr))
  | some queued =>
    rw [decodeGlb, hr] at hdec
    have halign := glbWriteTable_aligned hr
    rw [BitVec.setWidth_setWidth_of_le addr (by omega)] at halign
    have haddr : addressed addr = some (.glb (glbAddr addr)) := by
      rw [addressed, if_neg hpd, if_neg hqp, if_pos halign]
      rfl
    refine ⟨Or.inl ⟨by rw [hdec], _, haddr, fun x => ?_⟩, fun hqp' => absurd hqp' hqp⟩
    exact read_applyWrite [.glb (glbAddr addr)] (by rw [hdec]; rfl)
      (by rw [hdec]; simp) x

/-- **A write, exactly.**  It does what it ought to unless it is one with an index that does
not exist and with low bits that the decoder knows. -/
theorem writeExact_applyWrite_iff (regs : RegFile) (w : HostWrite) :
    WriteExact regs w (applyWrite regs w) (decode w.1 w.2.1 w.2.2).resp ↔
      ¬ (Beyond w.1 ∧ Writable w.1) := by
  by_cases hpd : InPd w.1
  · exact writeExact_of_inPd hpd
  · by_cases hqp : InQp w.1
    · exact writeExact_of_inQp hpd hqp
    · refine iff_of_true (writeExact_of_global hpd hqp) ?_
      rintro ⟨⟨hpd', -⟩ | ⟨hqp', -⟩, -⟩
      · exact hpd hpd'
      · exact hqp hqp'

/-- The addresses of the registers of a protection-domain entry. -/
theorem addressed_eq_pd_iff {e : BitVec 8} {r : RegIdx} :
    addressed a = some (.pd e r) ↔ InPd a ∧ pdIndex a < numPd ∧
      pdTable.lookup (a.setWidth 8) = some r ∧ BitVec.ofNat 8 (pdIndex a) = e := by
  unfold addressed
  split_ifs with hpd hidx hqp hidx halign <;>
    simp_all [Option.map_eq_some_iff, and_comm]

/-- The addresses of the registers of a queue pair. -/
theorem addressed_eq_qp_iff {q : BitVec 8} {r : RegIdx} :
    addressed a = some (.qp q r) ↔ ¬ InPd a ∧ InQp a ∧ qpIndex a < numQp ∧
      qpReadTable.lookup (a.setWidth 8) = some r ∧ BitVec.ofNat 8 (qpIndex a) = q := by
  unfold addressed
  split_ifs with hpd hidx hqp hidx halign <;>
    simp_all [Option.map_eq_some_iff, and_comm]

theorem not_glb_of_region {e : BitVec 8} (h : InPd a ∨ InQp a) :
    addressed a ≠ some (.glb e) := by
  unfold addressed
  split_ifs with hpd hidx hqp hidx halign <;> simp_all

/-- Indices that fit are equal when their bytes are. -/
theorem index_eq {m n : Nat} (hm : m < 256) (hn : n < 256)
    (h : BitVec.ofNat 8 m = BitVec.ofNat 8 n) : m = n := by
  have hnat := congrArg BitVec.toNat h
  rwa [BitVec.toNat_ofNat, BitVec.toNat_ofNat, Nat.mod_eq_of_lt hm, Nat.mod_eq_of_lt hn] at hnat

/-- **No aliases.**  Two addresses that name the same register of a protection domain or of a
queue pair are equal. -/
theorem addressed_injective (ha : addressed a = some c) (hb : addressed b = some c)
    (hreg : InPd a ∨ InQp a) : a = b := by
  cases c with
  | pd e r =>
    obtain ⟨hpd, hidx, hr, he⟩ := addressed_eq_pd_iff.mp ha
    obtain ⟨hpd', hidx', hr', he'⟩ := addressed_eq_pd_iff.mp hb
    exact eq_of_pdIndex hpd hpd' (index_eq hidx hidx' (he.trans he'.symm))
      (pdTable_injective hr hr')
  | qp q r =>
    obtain ⟨-, -, hidx, hr, hq⟩ := addressed_eq_qp_iff.mp ha
    obtain ⟨-, -, hidx', hr', hq'⟩ := addressed_eq_qp_iff.mp hb
    exact eq_of_qpIndex (index_eq hidx hidx' (hq.trans hq'.symm)) (qpReadTable_injective hr hr')
  | glb e => exact absurd ha (not_glb_of_region hreg)

/-- The read decoder agrees with the map. -/
theorem readValue_of_addressed (ha : addressed a = some c) (hreg : InPd a ∨ InQp a)
    (regs : RegFile) : readValue regs a = regs.read c := by
  cases c with
  | pd e r =>
    obtain ⟨hpd, -, hr, he⟩ := addressed_eq_pd_iff.mp ha
    refine (if_pos hpd).trans ?_
    rw [hr, pdAddr_eq, he]
    rfl
  | qp q r =>
    obtain ⟨hpd, hqp, -, hr, hq⟩ := addressed_eq_qp_iff.mp ha
    refine (if_neg hpd).trans ((if_pos hqp.2).trans ((if_neg (not_numQp_le a)).trans ?_))
    rw [hr, qpAddr_eq, hq]
    rfl
  | glb e => exact absurd ha (not_glb_of_region hreg)

end Access

/-! ## The machine -/

/-- What the response channels carry: the response of the latched write, which is the last one
that was accepted, and that of the latched read. -/
structure Responds (s : (Axil × RegFile) × List HostWrite) : Prop where
  latched : s.1.1.rwState = .write ∨ s.1.1.rwState = .writeCmd ∨ s.1.1.rwState = .bResp →
    s.2.getLast? = some (s.1.1.wAddr, s.1.1.wData, s.1.1.wStrb)
  write : s.1.1.rwState = .writeCmd ∨ s.1.1.rwState = .bResp → s.1.1.wResp = s.1.1.decoded.resp
  read : s.1.1.rwState = .rValid → s.1.1.rResp = okay

theorem rResp_readAccess (s : Axil) (regs : RegFile) : (s.readAccess regs).rResp = okay := by
  unfold Axil.readAccess
  split_ifs with hpd hqp hnum
  · cases pdTable.lookup (s.rAddr.setWidth 8) <;> rfl
  · exact absurd hnum (not_numQp_le _)
  · cases qpReadTable.lookup (s.rAddr.setWidth 8) <;> rfl
  · rfl

theorem wResp_foldl_answer {s : Axil} (regs : RegFile) (cs : List WrCmd) :
    (cs.foldl (fun s' c => s'.answer regs c) s).wResp = s.wResp := by
  induction cs generalizing s with
  | nil => rfl
  | cons c cs ih =>
    rw [List.foldl_cons, ih]
    unfold Axil.answer
    split_ifs <;> rfl

theorem wResp_writeAccess (s : Axil) (regs : RegFile) :
    (s.writeAccess regs).wResp = s.decoded.resp := wResp_foldl_answer _ _

/-- The channels that are not up carry nothing. -/
theorem responds_of_state {s : Axil} {regs : RegFile} {ws : List HostWrite}
    (h : s.rwState = .aIdle ∨ s.rwState = .wReady ∨ s.rwState = .rGetdata) :
    Responds ((s, regs), ws) := by
  refine ⟨fun hst => ?_, fun hst => ?_, fun hst => ?_⟩
  · rcases h with h | h | h <;> simp [h] at hst
  · rcases h with h | h | h <;> simp [h] at hst
  · rcases h with h | h | h <;> simp [h] at hst

/-- The accesses of `WRITE` keep the write, and the last one has the answer. -/
theorem responds_step_write {s : Axil} {regs : RegFile} {ws : List HostWrite} (i : AxilIn)
    (h : Responds ((s, regs), ws)) (hst : s.rwState = .write) :
    Responds ((s.step regs i, s.nextRegs regs), ws) := by
  obtain ⟨ha, hd, hb, hr⟩ := writeAccess_wAddr s regs
  have hlast := h.latched (Or.inl hst)
  have hresp : (s.writeAccess regs).wResp = (s.writeAccess regs).decoded.resp := by
    rw [wResp_writeAccess, Axil.decoded, Axil.decoded, ha, hd, hb]
  rw [Axil.step, hst]
  dsimp only
  split_ifs
  · refine ⟨fun _ => ?_, fun _ => hresp, fun h => by cases h⟩
    rw [hlast, ← ha, ← hd, ← hb]
  · refine ⟨fun _ => ?_, fun _ => hresp, fun h => by cases h⟩
    rw [hlast, ← ha, ← hd, ← hb]
  · refine ⟨fun _ => ?_, ?_, fun hval => ?_⟩
    · rw [hlast, ← ha, ← hd, ← hb]
    · rintro (h | h) <;> simp only [hr, hst, reduceCtorEq] at h
    · simp only [hr, hst, reduceCtorEq] at hval

/-- **One cycle.** -/
theorem responds_step {s : Axil} {regs : RegFile} {ws : List HostWrite} (i : AxilIn)
    (h : Responds ((s, regs), ws)) :
    Responds ((s.step regs i, s.nextRegs regs), ws ++ (acceptedWrite s i).toList) := by
  have hnone (hne : s.rwState ≠ .wReady) : ws ++ (acceptedWrite s i).toList = ws := by
    rw [acceptedWrite, if_neg hne, Option.toList_none, List.append_nil]
  cases hst : s.rwState with
  | aIdle =>
    refine responds_of_state ?_
    rw [Axil.step, hst]
    cases i.ar with
    | some a => exact Or.inr (Or.inr rfl)
    | none =>
      cases i.aw with
      | some a => exact Or.inr (Or.inl rfl)
      | none => exact Or.inl hst
  | rGetdata =>
    have hread : (s.readAccess regs).rwState = .rGetdata := (rwState_readAccess s regs).trans hst
    rw [Axil.step, hst]
    dsimp only
    split_ifs
    · refine ⟨?_, ?_, fun _ => rResp_readAccess s regs⟩
      · rintro (h | h | h) <;> cases h
      · rintro (h | h) <;> cases h
    · exact responds_of_state (Or.inr (Or.inr hread))
  | rValid =>
    rw [hnone (by simp [hst]), Axil.step, hst, nextRegs_of_ne_write (by simp [hst])]
    dsimp only
    split_ifs
    · exact responds_of_state (Or.inl rfl)
    · exact h
  | wReady =>
    rw [Axil.step, hst, acceptedWrite, if_pos hst]
    cases i.w with
    | none => exact responds_of_state (Or.inr (Or.inl hst))
    | some w =>
      refine ⟨fun _ => List.getLast?_concat, ?_, fun h => by cases h⟩
      rintro (h | h) <;> cases h
  | write =>
    rw [hnone (by simp [hst])]
    exact responds_step_write i h hst
  | writeCmd =>
    rw [hnone (by simp [hst]), Axil.step, hst, nextRegs_of_ne_write (by simp [hst])]
    dsimp only
    split_ifs
    · exact ⟨fun _ => h.latched (Or.inr (Or.inl hst)), fun _ => h.write (Or.inl hst),
        fun h => by cases h⟩
    · exact h
  | bResp =>
    rw [hnone (by simp [hst]), Axil.step, hst, nextRegs_of_ne_write (by simp [hst])]
    dsimp only
    split_ifs
    · exact responds_of_state (Or.inl rfl)
    · exact h

theorem responds_runFrom {s : Axil} (hs : s.rwState = .aIdle) (regs : RegFile)
    (is : List AxilIn) : Responds ((watched regs).runFrom ((s, regs), []) is) :=
  (Machine.always_of_step (P := Responds) (fun _ i h => responds_step i h)
    (responds_of_state (Or.inl hs)) is).last

/-- **Register decode.**  In any run that begins in `A_IDLE`, over any contents of the
registers and with any delays: a write whose response is up, the only one of the run, is exact
iff it is not one of those that the decoder takes for another address; a read whose response
is up is exact iff it is not one of a queue pair that does not exist; and inside the map no
two addresses of the protection domains and queue pairs stand for one register. -/
theorem decode_exact_iff (s : Axil) (hs : s.rwState = .aIdle) (regs : RegFile)
    (is : List AxilIn) :
    (∀ w, ((watched regs).runFrom ((s, regs), []) is).2 = [w] →
      ((watched regs).runFrom ((s, regs), []) is).1.1.rwState = .bResp →
      (WriteExact regs w ((watched regs).runFrom ((s, regs), []) is).1.2
          ((watched regs).runFrom ((s, regs), []) is).1.1.wResp ↔
        ¬ (Beyond w.1 ∧ Writable w.1))) ∧
    (((watched regs).runFrom ((s, regs), []) is).1.1.rwState = .rValid →
      (ReadExact ((watched regs).runFrom ((s, regs), []) is).1.1.rAddr
          ((watched regs).runFrom ((s, regs), []) is).1.1.rResp ↔
        ¬ (InQp ((watched regs).runFrom ((s, regs), []) is).1.1.rAddr ∧
          numQp ≤ qpIndex ((watched regs).runFrom ((s, regs), []) is).1.1.rAddr))) ∧
    (∀ a b c, InPd a ∨ InQp a → addressed a = some c → addressed b = some c →
      a = b ∧ readValue regs a = regs.read c) := by
  have hresp := responds_runFrom hs regs is
  refine ⟨fun w hw hst => ?_, fun hst => ?_, fun a b c hreg ha hb => ?_⟩
  · have hregs := regs_runFrom s regs (by simp [hs]) is (by simp [hst])
    have hlast := hresp.latched (Or.inr (Or.inr hst))
    rw [hw] at hregs hlast
    obtain rfl := Option.some.inj hlast
    rw [hresp.write (Or.inr hst), hregs]
    exact writeExact_applyWrite_iff regs _
  · rw [ReadExact, hresp.read hst, not_and]
    exact ⟨fun h hqp hge => absurd (h hqp hge) (by decide), fun h hqp hge => absurd hge (h hqp)⟩
  · exact ⟨addressed_injective ha hb hreg, readValue_of_addressed ha hreg regs⟩

/-! ### Index 256 -/

/-- No wire is up. -/
def quiet : AxilIn where
  ar := none
  aw := none
  w := none
  rready := false
  bready := false
  cmdFifoInAck := false

/-- A write of a whole word, up to its response. -/
def oneWrite (addr : BitVec 18) (data : BitVec 32) : List AxilIn :=
  [{ quiet with aw := some addr }, { quiet with w := some (data, 0xf) }, quiet, quiet]

/-- A read, up to its response. -/
def oneRead (addr : BitVec 18) : List AxilIn :=
  [{ quiet with ar := some addr }, quiet, quiet]

/-- `SQBAi` of the first queue pair. -/
theorem decode_exact_iff_first :
    WriteExact .zero (0x20210, 5, 0xf)
      ((watched .zero).runFrom ((Axil.reset, .zero), []) (oneWrite 0x20210 5)).1.2
      ((watched .zero).runFrom ((Axil.reset, .zero), []) (oneWrite 0x20210 5)).1.1.wResp :=
  ((decode_exact_iff .reset rfl .zero (oneWrite 0x20210 5)).1 (0x20210, 5, 0xf) rfl rfl).mpr
    fun h => absurd h.1 (show ¬ Beyond 0x20210 by decide)

/-- The same register of queue pair 256: the write is answered with `OKAY` and lands in the
first queue pair, and so is the read. -/
theorem queue_pair_256_aliases :
    qpIndex 0x30210 = 256 ∧
    ((watched .zero).runFrom ((Axil.reset, .zero), []) (oneWrite 0x30210 5)).1.1.rwState = .bResp ∧
    ((watched .zero).runFrom ((Axil.reset, .zero), []) (oneWrite 0x30210 5)).1.2.qp 0 sqbaiIdx = 5 ∧
    ¬ WriteExact .zero (0x30210, 5, 0xf)
      ((watched .zero).runFrom ((Axil.reset, .zero), []) (oneWrite 0x30210 5)).1.2
      ((watched .zero).runFrom ((Axil.reset, .zero), []) (oneWrite 0x30210 5)).1.1.wResp ∧
    ((watched .zero).runFrom ((Axil.reset, .zero), []) (oneRead 0x30210)).1.1.rwState = .rValid ∧
    ¬ ReadExact 0x30210
      ((watched .zero).runFrom ((Axil.reset, .zero), []) (oneRead 0x30210)).1.1.rResp := by
  refine ⟨by decide, rfl, by decide, fun h => ?_, rfl, fun h => ?_⟩
  · exact absurd (h.2 (by decide) (by decide)) (by decide)
  · exact absurd (h (by decide) (by decide)) (by decide)

end Decoder
end RecoNIC
