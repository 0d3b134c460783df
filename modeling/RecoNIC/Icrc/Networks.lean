import RecoNIC.Icrc.Frames

/-!
# The wide networks against the narrow one

`icrc.sv` keeps four sets of equations: for 512 bits, for 320 bits, for the first 32 bits in
stage 0, and for 32 bits in the stages from one to fifteen.  The last set is written out in
the source a second time, over `stage_crc32_masked_data[stage-1]` and `stage*32`.  It has a
table of its own here.

The wide networks are the narrow one, taken once for each lane from the lowest up, and the
narrow one is the shift register taken once for each bit.
-/

namespace RecoNIC
namespace Icrc

/-- `stage_crc32_crc[stage]` for the stages from one on.  Bit `k` of a mask stands for bit
`k + stage*32` of the masked data. -/
def crc32LaterRows : List XorRow := [
  ⟨0, 0x826880ef, 0x826880ef⟩,
  ⟨0, 0xc35cc098, 0xc35cc098⟩,
  ⟨0, 0xe3c6e0a3, 0xe3c6e0a3⟩,
  ⟨0, 0x71e37051, 0x71e37051⟩,
  ⟨0, 0xba9938c7, 0xba9938c7⟩,
  ⟨0, 0xdf241c8c, 0xdf241c8c⟩,
  ⟨0, 0x6f920e46, 0x6f920e46⟩,
  ⟨0, 0xb5a187cc, 0xb5a187cc⟩,
  ⟨0, 0xd8b84309, 0xd8b84309⟩,
  ⟨0, 0x6c5c2184, 0x6c5c2184⟩,
  ⟨0, 0xb446902d, 0xb446902d⟩,
  ⟨0, 0xd84bc8f9, 0xd84bc8f9⟩,
  ⟨0, 0xee4d6493, 0xee4d6493⟩,
  ⟨0, 0x7726b249, 0x7726b249⟩,
  ⟨0, 0x3b935924, 0x3b935924⟩,
  ⟨0, 0x1dc9ac92, 0x1dc9ac92⟩,
  ⟨0, 0x8c8c56a6, 0x8c8c56a6⟩,
  ⟨0, 0x46462b53, 0x46462b53⟩,
  ⟨0, 0x232315a9, 0x232315a9⟩,
  ⟨0, 0x11918ad4, 0x11918ad4⟩,
  ⟨0, 0x08c8c56a, 0x08c8c56a⟩,
  ⟨0, 0x046462b5, 0x046462b5⟩,
  ⟨0, 0x805ab1b5, 0x805ab1b5⟩,
  ⟨0, 0xc245d835, 0xc245d835⟩,
  ⟨0, 0x6122ec1a, 0x6122ec1a⟩,
  ⟨0, 0x3091760d, 0x3091760d⟩,
  ⟨0, 0x9a203be9, 0x9a203be9⟩,
  ⟨0, 0x4d101df4, 0x4d101df4⟩,
  ⟨0, 0x26880efa, 0x26880efa⟩,
  ⟨0, 0x1344077d, 0x1344077d⟩,
  ⟨0, 0x09a203be, 0x09a203be⟩,
  ⟨0, 0x04d101df, 0x04d101df⟩]

/-- The CRC that stage `stage` computes from the masked data and the CRC of the stage before
it. -/
def laterCrc (stage : Nat) (maskedData : BitVec 512) (c : BitVec 32) : BitVec 32 :=
  Crc.ofMasks 32 (32 + 32) (crc32LaterRows.reverse.map (XorRow.mask 32)) fun k =>
    if k < 32 then maskedData.getLsbD (k + stage * 32) else c.getLsbD (k - 32)

/-- The narrow network over the lanes below `n`, from the lowest up. -/
def foldLanes (n : Nat) (d : BitVec 512) (c : BitVec 32) : BitVec 32 :=
  (List.range n).foldl (fun c k => nextCrc crc32Rows (lane k d) c) c

/-- The later stages have the equations of stage 0. -/
theorem crc32LaterRows_eq :
    crc32LaterRows.reverse.map (XorRow.mask 32) = crc32Rows.reverse.map (XorRow.mask 32) := by
  decide +kernel

/-- A later stage does to its lane what stage 0 does to the first one. -/
theorem laterCrc_eq (stage : Nat) (d : BitVec 512) (c : BitVec 32) :
    laterCrc stage d c = nextCrc crc32Rows (lane stage d) c := by
  rw [laterCrc, nextCrc, crc32LaterRows_eq]
  refine congrArg (Crc.ofMasks 32 (32 + 32) _) (funext fun k => ?_)
  rw [Crc.vars]
  by_cases hk : k < 32
  · rw [if_pos hk, if_pos hk, lane, BitVec.getLsbD_setWidth, BitVec.getLsbD_ushiftRight,
      decide_eq_true hk, Bool.true_and, Nat.mul_comm, Nat.add_comm]
  · rw [if_neg hk, if_neg hk]

/-- Lane after lane, the narrow network has taken the bits of the lanes below. -/
theorem foldLanes_eq (d : BitVec 512) (c : BitVec 32) {n : Nat} (hn : n ≤ 16) :
    foldLanes n d c = Crc.run polynomial c ((dataBits d).take (32 * n)) := by
  induction n with
  | zero => rw [Nat.mul_zero, List.take_zero, Crc.run_nil]; rfl
  | succ n ih =>
    have hstep : foldLanes (n + 1) d c = nextCrc crc32Rows (lane n d) (foldLanes n d c) := by
      rw [foldLanes, List.range_succ, List.foldl_append]
      rfl
    rw [hstep, ih (by omega), run_lane c d (by omega)]

/-- **The four networks are one CRC.**  The 512-bit network is the narrow one over the sixteen
lanes and the 320-bit network is the narrow one over the ten low lanes.  The stages from one
on have the network of stage 0, each with its own lane.  The narrow network is the shift
register of the polynomial over the 32 bits, the lowest first. -/
theorem networks_agree (c : BitVec 32) :
    (∀ d : BitVec 512, nextCrc crc512Rows d c = foldLanes 16 d c) ∧
      (∀ d : BitVec 512, nextCrc crc320Rows (d.setWidth 320) c = foldLanes 10 d c) ∧
      (∀ stage (d : BitVec 512), laterCrc stage d c = nextCrc crc32Rows (lane stage d) c) ∧
      ∀ d : BitVec 32, nextCrc crc32Rows d c =
        ((List.range 32).map fun k => d.getLsbD k).foldl (Crc.stepBit polynomial) c := by
  refine ⟨?_, ?_, ?_, ?_⟩
  · intro d
    rw [run_full, foldLanes_eq d c (by decide)]
  · intro d
    rw [run_header, foldLanes_eq d c (by decide)]
  · intro stage d
    exact laterCrc_eq stage d c
  · intro d
    rw [nextCrc_crc32Rows, Crc.run, dataBits]

end Icrc
end RecoNIC
