import Mathlib.Logic.Function.Basic
import Mathlib.Tactic.IntervalCases
import RecoNIC.Arithmetic.SplitAdd
import RecoNIC.Driver.RdmaApi

/-!
# The windows of the AXI bridge

The device reaches host memory through the slave bridge of the QDMA, which has eight windows
of 128 GB each.  `config_rn_dev_axib_bdf` writes their registers once, from the physical
address of the pre-allocated buffer, and the elements of the queues carry addresses that are
cut to the 40 bits of the windows.

The bridge itself is not part of the source.  `translate` is what is assumed of it: bits
39 to 37 of an address select the window, and the bits from 37 on are replaced by those of
the address in the registers of the window.
-/

namespace RecoNIC
namespace RdmaApi

/-! ## The configuration -/

/-- `AXI_BAR_SIZE`. -/
def axiBarSize : BitVec 64 := 0x000000ffffffffff

/-- `ADDR_MASK`. -/
def addrMask : BitVec 32 := 0xffffffff

/-- `get_win_size`. -/
def getWinSize : BitVec 64 := axiBarSize

/-- `RN_QDMA_CSR_BASE_ADDRESS`. -/
def rnQdmaCsrBaseAddress : Nat := 0x00014000

/-- The registers of a window. -/
inductive BdfRegister where
  | addrTranslateAddrLsb | addrTranslateAddrMsb | pasidReserved | functionNum | mapControl
  | reserved
  deriving DecidableEq

/-- `AXIB_BDF_ADDR_TRANSLATE_ADDR_LSB` and the others, the registers of window 0. -/
def BdfRegister.addr : BdfRegister → Nat
  | .addrTranslateAddrLsb => rnQdmaCsrBaseAddress + 0x00002420
  | .addrTranslateAddrMsb => rnQdmaCsrBaseAddress + 0x00002424
  | .pasidReserved => rnQdmaCsrBaseAddress + 0x00002428
  | .functionNum => rnQdmaCsrBaseAddress + 0x0000242C
  | .mapControl => rnQdmaCsrBaseAddress + 0x00002430
  | .reserved => rnQdmaCsrBaseAddress + 0x00002434

/-- The register of window `i`. -/
def BdfRegister.of (r : BdfRegister) (i : Nat) : Nat := r.addr + i * 0x20

/-- A call of `write32_data`: the offset and the value. -/
abbrev RegWrite := Nat × BitVec 32

/-- The window size that is kept with the device: the two halves of `get_win_size()`. -/
def configWinSize : WinSize where
  winSizeLsb := (getWinSize &&& 0x00000000ffffffff).setWidth 32
  winSizeMsb := ((getWinSize &&& 0xffffffff00000000) >>> 32).setWidth 32

/-- A device with one queue pair. -/
def oneQp : RdmaDev := ⟨1, configWinSize⟩

/-- `bdf_win_config`: the window is enabled, and its size in pages of 4 KB. -/
def bdfWinConfig : BitVec 32 :=
  0xC0000000 ||| ((((axiBarSize >>> 3) + 1) >>> 12) &&& 0x00000000ffffffff).setWidth 32

/-- What the loop writes for window `i`. -/
def windowWrites (bdfAddrHigh bdfAddrLow : BitVec 32) (i : Nat) : List RegWrite :=
  [(BdfRegister.addrTranslateAddrLsb.of i, bdfAddrLow),
    (BdfRegister.addrTranslateAddrMsb.of i, bdfAddrHigh + BitVec.ofNat 32 (i * 0x20)),
    (BdfRegister.pasidReserved.of i, 0),
    (BdfRegister.functionNum.of i, 0),
    (BdfRegister.mapControl.of i, bdfWinConfig),
    (BdfRegister.reserved.of i, 0)]

/-- `config_rn_dev_axib_bdf`: the writes to the device. -/
def configRnDevAxibBdf (highAddr lowAddr : BitVec 32) : List RegWrite :=
  let bdfAddrMaskHigh := addrMask - configWinSize.winSizeMsb
  let bdfAddrMaskLow := addrMask - configWinSize.winSizeLsb
  (List.range 8).flatMap
    (windowWrites (highAddr &&& bdfAddrMaskHigh) (lowAddr &&& bdfAddrMaskLow))

/-- The writes of `create_rn_dev`, for a pool at this physical address. -/
def configWindows (dmaAddr : BitVec 64) : List RegWrite :=
  configRnDevAxibBdf (((dmaAddr &&& 0xffffffff00000000) >>> 32).setWidth 32)
    ((dmaAddr &&& 0x00000000ffffffff).setWidth 32)

/-! ## The bridge -/

/-- The registers after these writes. -/
def written (regs : Nat → BitVec 32) (writes : List RegWrite) : Nat → BitVec 32 :=
  writes.foldl (fun regs w => Function.update regs w.1 w.2) regs

/-- The window that bits 39 to 37 select. -/
def window (addr : BitVec 64) : Nat := (addr.extractLsb' 37 3).toNat

/-- The address that the bridge puts in place of `addr`. -/
def translate (regs : Nat → BitVec 32) (addr : BitVec 64) : BitVec 64 :=
  let translateAddr := regs (BdfRegister.addrTranslateAddrMsb.of (window addr)) ++
    regs (BdfRegister.addrTranslateAddrLsb.of (window addr))
  translateAddr.extractLsb' 37 27 ++ addr.setWidth 37

/-! ## What the registers hold -/

theorem written_of_not_mem {writes : List RegWrite} {a : Nat} (h : a ∉ writes.map Prod.fst)
    (regs : Nat → BitVec 32) : written regs writes a = regs a := by
  induction writes generalizing regs with
  | nil => rfl
  | cons w writes ih =>
    rw [List.map_cons, List.mem_cons, not_or] at h
    show written (Function.update regs w.1 w.2) writes a = regs a
    rw [ih h.2, Function.update_of_ne h.1]

/-- A register that is written once holds what was written. -/
theorem written_of_mem {writes : List RegWrite} (hnodup : (writes.map Prod.fst).Nodup)
    {w : RegWrite} (hw : w ∈ writes) (regs : Nat → BitVec 32) :
    written regs writes w.1 = w.2 := by
  induction writes generalizing regs with
  | nil => cases hw
  | cons v writes ih =>
    rw [List.map_cons, List.nodup_cons] at hnodup
    show written (Function.update regs v.1 v.2) writes w.1 = w.2
    rcases List.mem_cons.mp hw with rfl | hmem
    · rw [written_of_not_mem hnodup.1, Function.update_self]
    · exact ih hnodup.2 hmem _

/-- No register is written twice. -/
theorem nodup_configRnDevAxibBdf (highAddr lowAddr : BitVec 32) :
    ((configRnDevAxibBdf highAddr lowAddr).map Prod.fst).Nodup := by
  have haddr : (configRnDevAxibBdf highAddr lowAddr).map Prod.fst =
      (configRnDevAxibBdf 0 0).map Prod.fst := rfl
  rw [haddr]
  decide

section Registers

variable (regs : Nat → BitVec 32) (highAddr lowAddr : BitVec 32) {i : Nat}

/-- Each window has the registers that the loop writes for it. -/
theorem written_window (hi : i < 8) {w : RegWrite}
    (hw : w ∈ windowWrites (highAddr &&& 0xffffff00) 0 i) :
    written regs (configRnDevAxibBdf highAddr lowAddr) w.1 = w.2 := by
  refine written_of_mem (nodup_configRnDevAxibBdf highAddr lowAddr) ?_ regs
  refine List.mem_flatMap.mpr ⟨i, List.mem_range.mpr hi, ?_⟩
  have hlow : lowAddr &&& (addrMask - configWinSize.winSizeLsb) = 0 := by
    show lowAddr &&& 0 = 0
    exact BitVec.and_zero
  rw [hlow]
  exact hw

theorem written_msb (hi : i < 8) :
    written regs (configRnDevAxibBdf highAddr lowAddr) (BdfRegister.addrTranslateAddrMsb.of i) =
      (highAddr &&& 0xffffff00) + BitVec.ofNat 32 (i * 0x20) :=
  written_window regs highAddr lowAddr hi (List.mem_cons_of_mem _ List.mem_cons_self)

theorem written_lsb (hi : i < 8) :
    written regs (configRnDevAxibBdf highAddr lowAddr) (BdfRegister.addrTranslateAddrLsb.of i) =
      0 :=
  written_window regs highAddr lowAddr hi List.mem_cons_self

end Registers

/-- The configured size of a window is that of the bits that it does not replace. -/
theorem bdfWinConfig_size : (bdfWinConfig &&& 0x3fffffff).toNat * 4096 = 2 ^ 37 := by
  decide

/-! ## The way of an address -/

section Address

variable (p : BitVec 64)

/-- The mask keeps the low 40 bits. -/
theorem toNat_and_getWinSize : (p &&& getWinSize).toNat = p.toNat % 2 ^ 40 := by
  rw [BitVec.toNat_and]
  exact Nat.and_two_pow_sub_one_eq_mod p.toNat 40

theorem window_lt : window p < 8 := (p.extractLsb' 37 3).isLt

theorem window_eq : window p = p.toNat / 2 ^ 37 % 8 := by
  rw [window, BitVec.extractLsb'_toNat, Nat.shiftRight_eq_div_pow]

/-- What is kept of the upper half of the base address. -/
theorem toNat_and_highMask (high : BitVec 32) :
    (high &&& 0xffffff00).toNat = high.toNat / 256 * 256 := by
  have hshift : high &&& (0xffffff00 : BitVec 32) = (high >>> 8) <<< 8 := by
    refine BitVec.eq_of_getLsbD_eq fun i hi => ?_
    simp only [BitVec.getLsbD_and, BitVec.getLsbD_shiftLeft, BitVec.getLsbD_ushiftRight]
    interval_cases i <;> simp
  have hlt := high.isLt
  rw [hshift, BitVec.toNat_shiftLeft, BitVec.toNat_ushiftRight, Nat.shiftLeft_eq,
    Nat.shiftRight_eq_div_pow]
  omega

/-- The upper half of an address, as `create_rn_dev` takes it out. -/
theorem toNat_highAddr :
    (((p &&& 0xffffffff00000000) >>> 32).setWidth 32 : BitVec 32).toNat = p.toNat / 2 ^ 32 := by
  have hand : ((p &&& 0xffffffff00000000) >>> 32).toNat = p.toNat / 2 ^ 32 % 2 ^ 32 := by
    rw [BitVec.ushiftRight_and_distrib, BitVec.toNat_and, BitVec.toNat_ushiftRight,
      Nat.shiftRight_eq_div_pow]
    exact Nat.and_two_pow_sub_one_eq_mod _ 32
  have hlt := p.isLt
  rw [BitVec.toNat_setWidth, hand]
  omega

/-- The elements of the queues carry the address under the mask, unless it looks like one of
the device. -/
theorem maskedAddr_of_host (h : isDeviceAddress p = false) :
    maskedAddr configWinSize p = p &&& getWinSize := by
  have hmsb : configWinSize.winSizeMsb = 0xff := by decide
  have hlsb : configWinSize.winSizeLsb = 0xffffffff := by decide
  have hwin : (0xff : BitVec 32) ++ (0xffffffff : BitVec 32) = getWinSize := by decide
  rw [maskedAddr, h, if_neg Bool.false_ne_true, hmsb, hlsb, ← BitVec.and_append,
    SplitAdd.append_halves, hwin]

end Address

/-- **The windows take an address back to itself.**  Whatever the physical address of the pool
is, an address that agrees with it from bit 40 on comes out of the bridge as it was before
the mask.  That is the address in an element of a queue. -/
theorem translate_masked (regs : Nat → BitVec 32) (base p : BitVec 64)
    (h : p >>> 40 = base >>> 40) :
    translate (written regs (configWindows base)) (p &&& getWinSize) = p ∧
      (isDeviceAddress p = false → maskedAddr configWinSize p = p &&& getWinSize) := by
  refine ⟨?_, maskedAddr_of_host p⟩
  have hbits : p.toNat / 2 ^ 40 = base.toNat / 2 ^ 40 := by
    have hnat := congrArg BitVec.toNat h
    rwa [BitVec.toNat_ushiftRight, BitVec.toNat_ushiftRight, Nat.shiftRight_eq_div_pow,
      Nat.shiftRight_eq_div_pow] at hnat
  have hmasked := toNat_and_getWinSize p
  have hwindow := window_eq (p &&& getWinSize)
  have hlt := window_lt (p &&& getWinSize)
  have hp := p.isLt
  have hzero : (0 : BitVec 32).toNat = 0 := rfl
  rw [hmasked] at hwindow
  refine BitVec.eq_of_toNat_eq ?_
  rw [translate, configWindows, written_msb _ _ _ hlt, written_lsb _ _ _ hlt,
    SplitAdd.toNat_append, BitVec.extractLsb'_toNat, SplitAdd.toNat_append, BitVec.toNat_add,
    toNat_and_highMask, toNat_highAddr, BitVec.toNat_ofNat, BitVec.toNat_setWidth, hmasked, hzero,
    Nat.shiftRight_eq_div_pow]
  -- the upper part is the one of `base`, then the number of the window
  have hupper : (base.toNat / 2 ^ 32 / 256 * 256 +
      window (p &&& getWinSize) * 32 % 2 ^ 32) % 2 ^ 32 = p.toNat / 2 ^ 37 * 32 := by
    omega
  rw [hupper]
  omega

/-- A pool that begins in the middle of a window, and an address in the last one. -/
theorem translate_masked_last :
    (0x000001f812345678 : BitVec 64) >>> 40 = (0x000001a7c0200000 : BitVec 64) >>> 40 ∧
      translate (written (fun _ => 0) (configWindows 0x000001a7c0200000))
        (0x000001f812345678 &&& getWinSize) = 0x000001f812345678 :=
  ⟨by decide, (translate_masked (fun _ => 0) 0x000001a7c0200000 0x000001f812345678
    (by decide)).1⟩

end RdmaApi
end RecoNIC
