import RecoNIC.Arithmetic.SplitAdd
import RecoNIC.Driver.Bridge
import RecoNIC.Driver.Destroy
import RecoNIC.RoceStack.Decoder
import RecoNIC.RoceStack.MemoryProtection

/-!
# Registered memory

`rdma_register_memory_region` writes the description of a buffer into the seven registers of
a protection-domain entry: its virtual address, its address on the bus, its key, its length
and the access.  The lookup machine puts the description together again, and a request
handler measures every packet of a message against it.

`registered_message_served` goes all the way: a message with the key and the domain of the
buffer that stays in the buffer is served, packet by packet, at the address of the buffer.
For a buffer in host memory that is the address in the window of the bridge, and
`host_address_masked` shows that this need not be `dma_addr`.
-/

namespace RecoNIC
namespace MemoryRegion

open Synchronous AxilPort RdmaApi
open Destroy (hostWrite)
open MemoryProtection (Message Session session Passes KeyOk LenOk)

/-! ## The driver -/

/-- `struct rdma_pd_t`. -/
structure RdmaPd where
  pdNum : BitVec 32
  virtualAddrLsb : BitVec 32
  virtualAddrMsb : BitVec 32
  dmaAddrLsb : BitVec 32
  dmaAddrMsb : BitVec 32
  rKey : BitVec 32
  bufferSizeLsb : BitVec 32
  bufferSizeMsb : BitVec 16
  pdAccessType : BitVec 16
  mrBuffer : Option RdmaBuff

/-- The registers of the protection-domain table, for the entry 0. -/
def rnRdmaPdtVirtaddrlsb : BitVec 32 := Destroy.rnRdmaBaseAddress + 0x00000004
def rnRdmaPdtVirtaddrmsb : BitVec 32 := Destroy.rnRdmaBaseAddress + 0x00000008
def rnRdmaPdtBufbaseaddrlsb : BitVec 32 := Destroy.rnRdmaBaseAddress + 0x0000000C
def rnRdmaPdtBufbaseaddrmsb : BitVec 32 := Destroy.rnRdmaBaseAddress + 0x00000010
def rnRdmaPdtBufrkey : BitVec 32 := Destroy.rnRdmaBaseAddress + 0x00000014
def rnRdmaPdtWrrdbuflen : BitVec 32 := Destroy.rnRdmaBaseAddress + 0x00000018
def rnRdmaPdtAccessdesc : BitVec 32 := Destroy.rnRdmaBaseAddress + 0x0000001C

/-- `get_rdma_pd_config_addr`. -/
def getRdmaPdConfigAddr (offset pdNum : BitVec 32) : BitVec 32 := offset + 0x100 * pdNum

/-- The members that `rdma_register_memory_region` fills in. -/
def describe (winSize : WinSize) (pd : RdmaPd) (rKey : BitVec 32) (buf : RdmaBuff) : RdmaPd :=
  let bufferSize : BitVec 64 := buf.bufSize.setWidth 64
  { pd with
    mrBuffer := some buf
    dmaAddrLsb :=
      if isDeviceAddress buf.dmaAddr then (buf.dmaAddr &&& 0x00000000ffffffff).setWidth 32
      else (buf.dmaAddr &&& 0x00000000ffffffff &&& winSize.winSizeLsb.setWidth 64).setWidth 32
    dmaAddrMsb :=
      if isDeviceAddress buf.dmaAddr then
        ((buf.dmaAddr >>> 32) &&& 0x00000000ffffffff).setWidth 32
      else
        ((buf.dmaAddr >>> 32) &&& 0x00000000ffffffff &&& winSize.winSizeMsb.setWidth 64).setWidth 32
    virtualAddrLsb := (buf.buffer &&& 0x00000000ffffffff).setWidth 32
    virtualAddrMsb := ((buf.buffer >>> 32) &&& 0x00000000ffffffff).setWidth 32
    bufferSizeLsb := (bufferSize &&& 0x00000000ffffffff).setWidth 32
    bufferSizeMsb := ((bufferSize >>> 32) &&& 0x00000000ffffffff).setWidth 16
    rKey := rKey }

/-- `access_config`. -/
def accessConfig (pd : RdmaPd) : BitVec 32 :=
  (pd.bufferSizeMsb.setWidth 32 <<< 16) ||| pd.pdAccessType.setWidth 32

/-- `rdma_register_memory_region`: the entry it leaves, and the registers it writes. -/
def rdmaRegisterMemoryRegion (winSize : WinSize) (pd : RdmaPd) (rKey : BitVec 32)
    (buf : RdmaBuff) : RdmaPd × List (BitVec 32 × BitVec 32) :=
  let pd := describe winSize pd rKey buf
  let bufferSize : BitVec 64 := buf.bufSize.setWidth 64
  (pd,
    [(getRdmaPdConfigAddr rnRdmaPdtVirtaddrlsb pd.pdNum, pd.virtualAddrLsb),
      (getRdmaPdConfigAddr rnRdmaPdtVirtaddrmsb pd.pdNum, pd.virtualAddrMsb),
      (getRdmaPdConfigAddr rnRdmaPdtBufbaseaddrlsb pd.pdNum, pd.dmaAddrLsb),
      (getRdmaPdConfigAddr rnRdmaPdtBufbaseaddrmsb pd.pdNum, pd.dmaAddrMsb),
      (getRdmaPdConfigAddr rnRdmaPdtBufrkey pd.pdNum, rKey),
      (getRdmaPdConfigAddr rnRdmaPdtWrrdbuflen pd.pdNum, bufferSize.setWidth 32),
      (getRdmaPdConfigAddr rnRdmaPdtAccessdesc pd.pdNum, accessConfig pd)])

/-- The registers after the call. -/
def registered (regs : RegFile) (winSize : WinSize) (pd : RdmaPd) (rKey : BitVec 32)
    (buf : RdmaBuff) : RegFile :=
  ((rdmaRegisterMemoryRegion winSize pd rKey buf).2.map hostWrite).foldl applyWrite regs

/-! ## What is asked -/

/-- A message that may use the buffer: it names the entry, it has the key and the protection
domain, and it stays in the buffer. -/
structure Authorised {READ : Bool} (regs : RegFile) (pd : RdmaPd) (rKey : BitVec 32)
    (buf : RdmaBuff) (m : Message READ) : Prop where
  access : pd.pdAccessType = 2
  entry : m.tag.extractLsb' 8 8 = pd.pdNum.setWidth 8
  rkey : m.tag.setWidth 8 = rKey.setWidth 8
  pdnum : (regs.qp (m.qpn.setWidth 8) pdnumiIdx).setWidth 24 =
    (regs.pd (pd.pdNum.setWidth 8) pdpdnumIdx).setWidth 24
  vaddr : m.vaddr ≠ 0
  lower : buf.buffer.toNat ≤ m.vaddr.toNat
  upper : m.vaddr.toNat + m.bytes m.size ≤ buf.buffer.toNat + buf.bufSize.toNat

section Served

variable {READ : Bool} (dma : BitVec 64) (buf : RdmaBuff) (m : Message READ)

/-- The command of packet `k` for a buffer at the address `dma`. -/
def regionCommand (k : ℕ) : BitVec 104 :=
  RequestHandler.cmdWord (dma + (m.vaddr - buf.buffer) + BitVec.ofNat 64 (m.bytes k))
    (m.packet k).len

/-- A command that is offered is the one of the packet that was taken last, which has not been
rejected. -/
def Serving (s : Session) : Prop :=
  s.handler.cmdValid = true → ∃ k < m.size, s.accepted = k + 1 ∧ s.handler.errSt = false ∧
    s.handler.cmdData = regionCommand dma buf m k

/-- The message is served at the address `dma`: in every run no packet is rejected and each
command is the right one, and every packet gets its command. -/
def Serves (regs : RegFile) (h : RequestHandler.Handler) (v : Vtp.Regs) : Prop :=
  (∀ is, (session regs m h v).Always (Serving dma buf m) (session regs m h v).reset is) ∧
    ∀ k < m.size, ∃ is, (k, regionCommand dma buf m k) ∈ ((session regs m h v).run is).own

end Served

/-! ## The registers of the entry -/

section Entry

variable {regs : RegFile} {pdNum : BitVec 32} (data : BitVec 32)

/-- The address of a register of an entry, as the hardware takes it apart. -/
theorem csrAddr_pd (off : BitVec 32) (hoff : off.toNat < 256) (hpd : pdNum.toNat < 512) :
    (Destroy.csrAddr (getRdmaPdConfigAddr (Destroy.rnRdmaBaseAddress + off) pdNum)).toNat =
      0x100 * pdNum.toNat + off.toNat := by
  simp only [Destroy.csrAddr, getRdmaPdConfigAddr, Destroy.rnRdmaBaseAddress, BitVec.toNat_setWidth,
    BitVec.toNat_add, BitVec.toNat_mul, BitVec.toNat_ofNat, BitVec.ofNat_eq_ofNat]
  omega

/-- A write to it. -/
theorem applyWrite_pd {r : RegIdx} (off : BitVec 32) (hoff : off.toNat < 256)
    (hpd : pdNum.toNat < 512) (hr : pdTable.lookup (off.setWidth 8) = some r) :
    applyWrite regs
        (hostWrite (getRdmaPdConfigAddr (Destroy.rnRdmaBaseAddress + off) pdNum, data)) =
      regs.write ⟨1, r, pdNum.setWidth 8, 0xf, data⟩ := by
  have haddr := csrAddr_pd off hoff hpd
  rw [hostWrite, applyWrite]
  generalize Destroy.csrAddr _ = addr at haddr ⊢
  have hin : Decoder.InPd addr := Decoder.inPd_iff.mpr (by omega)
  have hlow : addr.setWidth 8 = off.setWidth 8 := by
    refine BitVec.eq_of_toNat_eq ?_
    simp only [BitVec.toNat_setWidth]
    omega
  have hentry : pdAddr addr = pdNum.setWidth 8 := by
    refine BitVec.eq_of_toNat_eq ?_
    simp only [pdAddr, BitVec.extractLsb'_toNat, BitVec.toNat_setWidth, Nat.shiftRight_eq_div_pow]
    omega
  have hdec : decode addr data 0xf = decodePd addr data 0xf := if_pos hin
  rw [hdec, decodePd, hlow, hr, hentry]
  rfl

/-- Several writes, by offset, register and word. -/
theorem foldl_applyWrite_pd (hpd : pdNum.toNat < 512) (ws : List (BitVec 32 × RegIdx × BitVec 32))
    (hws : ∀ w ∈ ws, w.1.toNat < 256 ∧ pdTable.lookup (w.1.setWidth 8) = some w.2.1)
    (regs : RegFile) :
    (ws.map fun w => hostWrite
        (getRdmaPdConfigAddr (Destroy.rnRdmaBaseAddress + w.1) pdNum, w.2.2)).foldl
          applyWrite regs =
      ws.foldl (fun f w => f.write ⟨1, w.2.1, pdNum.setWidth 8, 0xf, w.2.2⟩) regs := by
  induction ws generalizing regs with
  | nil => rfl
  | cons w ws ih =>
    obtain ⟨hoff, hr⟩ := hws w List.mem_cons_self
    rw [List.map_cons, List.foldl_cons, List.foldl_cons, applyWrite_pd w.2.2 w.1 hoff hpd hr]
    exact ih (fun w' hw' => hws w' (List.mem_cons_of_mem _ hw')) _

/-- What they leave in the entry. -/
theorem pd_foldl_write (e : BitVec 8) (ws : List (BitVec 32 × RegIdx × BitVec 32))
    (regs : RegFile) (r : RegIdx) :
    (ws.foldl (fun f w => f.write ⟨1, w.2.1, e, 0xf, w.2.2⟩) regs).pd e r =
      ws.foldl (fun d w => if r = w.2.1 then w.2.2 else d) (regs.pd e r) := by
  induction ws generalizing regs with
  | nil => rfl
  | cons w ws ih =>
    have htarget : RegFile.target ⟨1, w.2.1, e, 0xf, w.2.2⟩ = some (.pd e r) ↔ r = w.2.1 := by
      simp [RegFile.target, eq_comm]
    have hread : (regs.write ⟨1, w.2.1, e, 0xf, w.2.2⟩).pd e r =
        if r = w.2.1 then w.2.2 else regs.pd e r := by
      have hcell := regs.read_write ⟨1, w.2.1, e, 0xf, w.2.2⟩ (.pd e r)
      rw [mergeBytes_all] at hcell
      simp only [htarget] at hcell
      exact hcell
    rw [List.foldl_cons, ih, List.foldl_cons, hread]

/-- The queue pairs are left alone. -/
theorem qp_foldl_write (e : BitVec 8) (ws : List (BitVec 32 × RegIdx × BitVec 32))
    (regs : RegFile) :
    (ws.foldl (fun f w => f.write ⟨1, w.2.1, e, 0xf, w.2.2⟩) regs).qp = regs.qp := by
  induction ws generalizing regs with
  | nil => rfl
  | cons w ws ih => rw [List.foldl_cons, ih]; rfl

end Entry

section Registered

variable (regs : RegFile) (winSize : WinSize) {pd : RdmaPd} (rKey : BitVec 32) (buf : RdmaBuff)

/-- The words of the entry, by offset and register. -/
def entryWords (winSize : WinSize) (pd : RdmaPd) (rKey : BitVec 32) (buf : RdmaBuff) :
    List (BitVec 32 × RegIdx × BitVec 32) :=
  let pd := describe winSize pd rKey buf
  [(0x04, virtaddrlsbIdx, pd.virtualAddrLsb), (0x08, virtaddrmsbIdx, pd.virtualAddrMsb),
    (0x0C, bufbaseaddrlsbIdx, pd.dmaAddrLsb), (0x10, bufbaseaddrmsbIdx, pd.dmaAddrMsb),
    (0x14, bufrkeyIdx, rKey), (0x18, wrrdbuflenIdx, (buf.bufSize.setWidth 64).setWidth 32),
    (0x1C, accessdescIdx, accessConfig pd)]

theorem registered_eq (hpd : pd.pdNum.toNat < 512) :
    registered regs winSize pd rKey buf =
      (entryWords winSize pd rKey buf).foldl
        (fun f w => f.write ⟨1, w.2.1, pd.pdNum.setWidth 8, 0xf, w.2.2⟩) regs := by
  refine Eq.trans ?_ (foldl_applyWrite_pd hpd (entryWords winSize pd rKey buf) ?_ regs)
  · rfl
  · simp only [entryWords, List.forall_mem_cons]
    exact ⟨by decide, by decide, by decide, by decide, by decide, by decide, by decide,
      fun w hw => absurd hw List.not_mem_nil⟩

theorem qp_registered (hpd : pd.pdNum.toNat < 512) :
    (registered regs winSize pd rKey buf).qp = regs.qp := by
  rw [registered_eq regs winSize rKey buf hpd, qp_foldl_write]

/-- A register of the entry after the call. -/
theorem pd_registered (hpd : pd.pdNum.toNat < 512) (r : RegIdx) :
    (registered regs winSize pd rKey buf).pd (pd.pdNum.setWidth 8) r =
      (entryWords winSize pd rKey buf).foldl (fun d w => if r = w.2.1 then w.2.2 else d)
        (regs.pd (pd.pdNum.setWidth 8) r) := by
  rw [registered_eq regs winSize rKey buf hpd, pd_foldl_write]

/-- The low half of a word, as C takes it. -/
theorem and_low (v : BitVec 64) : (v &&& 0x00000000ffffffff).setWidth 32 = v.setWidth 32 := by
  rw [BitVec.setWidth_and,
    show (0x00000000ffffffff : BitVec 64).setWidth 32 = BitVec.allOnes 32 from by decide,
    BitVec.and_allOnes]

/-- The high half. -/
theorem and_high (v : BitVec 64) :
    ((v >>> 32) &&& 0x00000000ffffffff).setWidth 32 = v.extractLsb' 32 32 := by
  rw [and_low]
  rfl

/-- The virtual address of the buffer. -/
theorem virtaddr_eq (hpd : pd.pdNum.toNat < 512) :
    (registered regs winSize pd rKey buf).pd (pd.pdNum.setWidth 8) virtaddrmsbIdx ++
      (registered regs winSize pd rKey buf).pd (pd.pdNum.setWidth 8) virtaddrlsbIdx =
        buf.buffer := by
  rw [pd_registered _ _ _ _ hpd, pd_registered _ _ _ _ hpd]
  have hlow := and_low buf.buffer
  have hhigh := and_high buf.buffer
  exact (congrArg₂ (· ++ ·) hhigh hlow).trans (SplitAdd.append_halves _)

/-- A half with the window mask. -/
theorem and_window (v : BitVec 64) (w : BitVec 32) :
    (v &&& 0x00000000ffffffff &&& w.setWidth 64).setWidth 32 = v.setWidth 32 &&& w := by
  rw [BitVec.setWidth_and, and_low, BitVec.setWidth_setWidth_of_le _ (by decide),
    BitVec.setWidth_eq]

/-- The halves of its address on the bus. -/
theorem dmaAddr_describe : (describe winSize pd rKey buf).dmaAddrMsb ++
    (describe winSize pd rKey buf).dmaAddrLsb = maskedAddr winSize buf.dmaAddr := by
  rw [maskedAddr]
  by_cases hdev : isDeviceAddress buf.dmaAddr = true
  · have hlsb : (describe winSize pd rKey buf).dmaAddrLsb = _ := if_pos hdev
    have hmsb : (describe winSize pd rKey buf).dmaAddrMsb = _ := if_pos hdev
    rw [hlsb, hmsb, and_high, and_low, if_pos hdev]
  · have hlsb : (describe winSize pd rKey buf).dmaAddrLsb = _ := if_neg hdev
    have hmsb : (describe winSize pd rKey buf).dmaAddrMsb = _ := if_neg hdev
    rw [hlsb, hmsb, and_window, and_window, if_neg hdev]
    rfl

/-- The address on the bus. -/
theorem bufbaseaddr_eq (hpd : pd.pdNum.toNat < 512) :
    (registered regs winSize pd rKey buf).pd (pd.pdNum.setWidth 8) bufbaseaddrmsbIdx ++
      (registered regs winSize pd rKey buf).pd (pd.pdNum.setWidth 8) bufbaseaddrlsbIdx =
        maskedAddr winSize buf.dmaAddr := by
  rw [pd_registered _ _ _ _ hpd, pd_registered _ _ _ _ hpd]
  exact @dmaAddr_describe winSize pd rKey buf

/-- The length of the buffer, over the two registers it is split over. -/
theorem buflen_eq (hpd : pd.pdNum.toNat < 512) (haccess : pd.pdAccessType = 2) :
    (registered regs winSize pd rKey buf).pd (pd.pdNum.setWidth 8) accessdescIdx = 2 ∧
      (registered regs winSize pd rKey buf).pd (pd.pdNum.setWidth 8) wrrdbuflenIdx =
        buf.bufSize := by
  rw [pd_registered _ _ _ _ hpd, pd_registered _ _ _ _ hpd]
  constructor
  · have hhigh : (buf.bufSize.setWidth 64) >>> 32 = 0 := by
      refine BitVec.eq_of_toNat_eq ?_
      have hsize := buf.bufSize.isLt
      simp only [BitVec.toNat_ushiftRight, BitVec.toNat_setWidth, Nat.shiftRight_eq_div_pow]
      simp
      omega
    have hmsb : (describe winSize pd rKey buf).bufferSizeMsb = 0 := by
      rw [describe, hhigh]
      rfl
    show accessConfig (describe winSize pd rKey buf) = 2
    rw [accessConfig, hmsb, show (describe winSize pd rKey buf).pdAccessType = 2 from haccess]
    decide
  · show (buf.bufSize.setWidth 64).setWidth 32 = buf.bufSize
    simp

end Registered

/-! ## The message -/

section Message

variable {READ : Bool} {regs : RegFile} {winSize : WinSize} {pd : RdmaPd} {rKey : BitVec 32}
variable {buf : RdmaBuff} {m : Message READ}

/-- The handler works with the address of the buffer. -/
theorem packetPaddr_eq (hpd : pd.pdNum.toNat < 512) (hm : Authorised regs pd rKey buf m) (k : ℕ) :
    MemoryProtection.packetPaddr (registered regs winSize pd rKey buf) m k =
      maskedAddr winSize buf.dmaAddr + (m.vaddr - buf.buffer) + BitVec.ofNat 64 (m.bytes k) := by
  rw [MemoryProtection.packetPaddr, MemoryProtection.bufbaseaddr, MemoryProtection.virtaddr,
    MemoryProtection.pdRow, hm.entry, virtaddr_eq regs winSize rKey buf hpd,
    bufbaseaddr_eq regs winSize rKey buf hpd]

/-- The length of the region is the length of the buffer. -/
theorem toNat_buflen (hpd : pd.pdNum.toNat < 512) (hm : Authorised regs pd rKey buf m) :
    (MemoryProtection.buflen (registered regs winSize pd rKey buf) m).toNat =
      buf.bufSize.toNat := by
  obtain ⟨hdesc, hlen⟩ := buflen_eq regs winSize rKey buf hpd hm.access
  rw [MemoryProtection.buflen, MemoryProtection.pdRow, hm.entry, hdesc, hlen, SplitAdd.toNat_append]
  simp

/-- Every packet passes its check. -/
theorem passes (hpd : pd.pdNum.toNat < 512) (hm : Authorised regs pd rKey buf m) :
    Passes (registered regs winSize pd rKey buf) m m.size := by
  refine ⟨⟨hm.vaddr, ?_, ?_⟩, fun k _ hk => Or.inl ⟨?_, ?_⟩⟩
  · rw [MemoryProtection.bufrkey, MemoryProtection.pdRow, hm.entry, hm.rkey,
      pd_registered _ _ _ _ hpd]
    rfl
  · rw [MemoryProtection.pdPdnum, MemoryProtection.qpPdnum, MemoryProtection.pdRow, hm.entry,
      qp_registered _ _ _ _ hpd, hm.pdnum, pd_registered _ _ _ _ hpd]
    rfl
  · -- no packet leaves the buffer, and the offset in the buffer does not wrap
    have hbytes := m.bytes_mono hk
    have hlower := hm.lower
    have hupper := hm.upper
    have hsize := buf.bufSize.isLt
    have hrun : ((MemoryProtection.runLen (registered regs winSize pd rKey buf) m k).toNat : ℤ) =
        MemoryProtection.offset48 (registered regs winSize pd rKey buf) m k :=
      MemoryProtection.toNat_runLen k
    have hvirt : MemoryProtection.virtaddr (registered regs winSize pd rKey buf) m =
        buf.buffer := by
      rw [MemoryProtection.virtaddr, MemoryProtection.pdRow, hm.entry,
        virtaddr_eq regs winSize rKey buf hpd]
    rw [MemoryProtection.offset48, hvirt] at hrun
    rw [BitVec.le_def, toNat_buflen hpd hm]
    omega
  · obtain ⟨hdesc, -⟩ := buflen_eq regs winSize rKey buf hpd hm.access
    rw [MemoryProtection.accessdesc, MemoryProtection.pdRow, hm.entry, hdesc]
    decide

theorem ownCommand_eq (hpd : pd.pdNum.toNat < 512) (hm : Authorised regs pd rKey buf m) (k : ℕ) :
    MemoryProtection.ownCommand (registered regs winSize pd rKey buf) m k =
      regionCommand (maskedAddr winSize buf.dmaAddr) buf m k := by
  rw [MemoryProtection.ownCommand, packetPaddr_eq hpd hm, regionCommand]

/-- A packet in `RQ_SENDCMD` offers its own command. -/
theorem serving_of_phases (hpd : pd.pdNum.toNat < 512) (hm : Authorised regs pd rKey buf m)
    {s : Session} (hs : MemoryProtection.Phases (registered regs winSize pd rKey buf) m s) :
    Serving (maskedAddr winSize buf.dmaAddr) buf m s := by
  intro hvalid
  have hsend : s.handler.reqState = .sendCmd := by
    simpa [RequestHandler.Handler.cmdValid] using hvalid
  rcases hs with h | h | ⟨k, h⟩ | ⟨k, h⟩ | ⟨k, h⟩ | h
  case inr.inr.inr.inl =>
    have hpass : Passes (registered regs winSize pd rKey buf) m (k + 1) :=
      ⟨(passes hpd hm).1, fun j h0 hj => (passes hpd hm).2 j h0 (by have := h.lt_size; omega)⟩
    refine ⟨k, h.lt_size, h.accepted, h.errSt.mpr hpass, ?_⟩
    rw [h.cmdData hpass, ownCommand_eq hpd hm]
  all_goals
    have hno := h.reqState
    rw [hsend] at hno
    cases hno

/-- **Authorised traffic is served at the right address.**  After a buffer has been registered
with read and write access, every uninterrupted message that may use it is served at the
address of the buffer: the address as it is in device memory, and cut to the window of the
bridge in host memory. -/
theorem registered_message_served (regs : RegFile) (winSize : WinSize) (pd : RdmaPd)
    (rKey : BitVec 32) (buf : RdmaBuff) (m : Message READ) (h : RequestHandler.Handler)
    (v : Vtp.Regs) (hpd : pd.pdNum.toNat < 512) (hm : Authorised regs pd rKey buf m)
    (hb : MemoryProtection.Between h v) :
    Serves (maskedAddr winSize buf.dmaAddr) buf m (registered regs winSize pd rKey buf) h v := by
  constructor
  · intro is
    refine Machine.Always.mono (fun s hs => serving_of_phases hpd hm hs) ?_
    exact Machine.always_of_step (P := MemoryProtection.Phases _ m) (fun s c hs => hs.step c)
      (Or.inl hb.atStart) is
  · intro k hk
    refine (MemoryProtection.own_iff hb k _).mpr ⟨hk, ?_, (ownCommand_eq hpd hm k).symm⟩
    exact ⟨(passes hpd hm).1, fun j h0 hj => (passes hpd hm).2 j h0 (by omega)⟩

end Message

/-! ### A write into a buffer in host memory -/

/-- The entry of the protection domain `pdNum`, with read and write access. -/
def readWrite (pdNum : BitVec 32) : RdmaPd :=
  { pdNum, virtualAddrLsb := 0, virtualAddrMsb := 0, dmaAddrLsb := 0, dmaAddrMsb := 0, rKey := 0
    bufferSizeLsb := 0, bufferSizeMsb := 0, pdAccessType := 2, mrBuffer := none }

/-- A buffer of 4096 bytes. -/
def page (dma : BitVec 64) : RdmaBuff := ⟨0x1000, dma, 0x1000⟩

/-- A write of 64 bytes into the middle of the buffer, under the key 7. -/
def writeTo (pdNum : BitVec 24) : Message false where
  packets := [{ (default : Req) with
    opcode := rcRdmaWriteOnly, vaddr := 0x1800, tag := pdNum ++ (7 : BitVec 8), len := 64,
    last := true }]
  packets_ne := by simp
  remote := by
    intro r hr
    rw [List.mem_singleton.mp hr]
    rfl
  last_iff := by simp
  vaddr_ne := by simp

theorem between_reset : MemoryProtection.Between RequestHandler.Handler.reset Vtp.Regs.reset :=
  ⟨rfl, rfl, rfl, rfl, rfl⟩

theorem authorised_writeTo (dma : BitVec 64) (pdNum : BitVec 24)
    (hentry : (writeTo pdNum).tag.extractLsb' 8 8 = (pdNum.setWidth 32).setWidth 8) :
    Authorised RegFile.zero (readWrite (pdNum.setWidth 32)) 7 (page dma) (writeTo pdNum) where
  access := rfl
  entry := hentry
  rkey := BitVec.setWidth_append_eq_right
  pdnum := rfl
  vaddr := by show (0x1800 : BitVec 64) ≠ 0; decide
  lower := by show 0x1000 ≤ 0x1800; decide
  upper := by show 0x1800 + 64 ≤ 0x1000 + 0x1000; decide

theorem registered_message_served_page :
    Serves (maskedAddr configWinSize 0x8000) (page 0x8000) (writeTo 1)
      (registered RegFile.zero configWinSize (readWrite 1) 7 (page 0x8000))
      RequestHandler.Handler.reset Vtp.Regs.reset :=
  registered_message_served RegFile.zero configWinSize (readWrite 1) 7 (page 0x8000) (writeTo 1)
    RequestHandler.Handler.reset Vtp.Regs.reset (by decide)
    (authorised_writeTo 0x8000 1 (by decide)) between_reset

/-- **The address on the bus is not the address of the commands.**  The buffer lies at `2 ^ 40`
in host memory, and the command of the write is for `0x800`.  And an entry with the number
512 is not in the table: the write is rejected. -/
theorem host_address_masked :
    (Authorised RegFile.zero (readWrite 1) 7 (page 0x10000000000) (writeTo 1) ∧
      ¬ Serves 0x10000000000 (page 0x10000000000) (writeTo 1)
        (registered RegFile.zero configWinSize (readWrite 1) 7 (page 0x10000000000))
        RequestHandler.Handler.reset Vtp.Regs.reset) ∧
    Authorised RegFile.zero (readWrite 512) 7 (page 0x8000) (writeTo 512) ∧
      ¬ Serves 0x8000 (page 0x8000) (writeTo 512)
        (registered RegFile.zero configWinSize (readWrite 512) 7 (page 0x8000))
        RequestHandler.Handler.reset Vtp.Regs.reset := by
  have hhost := authorised_writeTo 0x10000000000 1 (by decide)
  refine ⟨⟨hhost, fun hserves => ?_⟩, authorised_writeTo 0x8000 512 (by decide), fun hserves => ?_⟩
  · obtain ⟨-, -, hcmd⟩ := (MemoryProtection.own_iff between_reset 0 _).mp (hserves.2 0 (by decide))
    rw [ownCommand_eq (by decide : (readWrite 1).pdNum.toNat < 512) hhost] at hcmd
    exact absurd hcmd (by decide)
  · obtain ⟨-, hpass, -⟩ :=
      (MemoryProtection.own_iff between_reset 0 _).mp (hserves.2 0 (by decide))
    have hkey : (writeTo 512).tag.setWidth 8 = MemoryProtection.bufrkey
        (registered RegFile.zero configWinSize (readWrite 512) 7 (page 0x8000)) (writeTo 512) :=
      hpass.1.rkey
    exact absurd hkey (by decide +kernel)

end MemoryRegion
end RecoNIC
