import RecoNIC.Arithmetic.Bump
import RecoNIC.Driver.RdmaApi
import RecoNIC.Synchronous.Machine
import Mathlib.Data.Set.Defs
import Mathlib.Tactic.IntervalCases

/-!
# The buffers of a program

`allocate_rdma_buffer` serves two pools, one in host memory and one in device memory, each
with an offset that it advances.  A session is a sequence of calls, in any mix; it ends when a
call gives up.

As long as no offset leaves the 64-bit range, each offset is the cursor of a bump allocator
and the buffers are its regions (`Represents`), from which it follows that the buffers of a
pool are disjoint and respect the pages (`wellPlaced_session`).
-/

namespace RecoNIC
namespace Allocator

open Synchronous RdmaApi

/-! ## Sessions -/

/-- A call of `allocate_rdma_buffer`. -/
structure Call where
  bufSize : BitVec 64
  bufLocation : BufLocation

/-- A buffer that a call has returned, with the arguments of the call. -/
structure Allocation where
  call : Call
  buf : RdmaBuff

/-- The device, the buffers returned so far, and whether a call has exited. -/
structure Session where
  rnDev : RnDev
  allocations : List Allocation
  exited : Bool

/-- One call. -/
def Session.step (paddr : BitVec 64 → BitVec 64) (s : Session) (c : Call) : Session :=
  if s.exited then s
  else
    match allocateRdmaBuffer paddr s.rnDev c.bufSize c.bufLocation with
    | some (buf, rnDev) => ⟨rnDev, s.allocations ++ [⟨c, buf⟩], false⟩
    | none => { s with exited := true }

/-- Calls, one after the other. -/
def session (paddr : BitVec 64 → BitVec 64) (rnDev : RnDev) : Machine Session Call :=
  ⟨⟨rnDev, [], false⟩, Session.step paddr⟩

/-- The two pools. -/
inductive Pool where
  | host | device
  deriving DecidableEq

/-- The `buf_location` of a pool. -/
def Pool.location : Pool → BufLocation
  | .host => .hostMem
  | .device => .devMem

/-- The offset of a pool. -/
def poolOffset (rnDev : RnDev) : Pool → BitVec 64
  | .host => rnDev.bufferOffset
  | .device => rnDev.devBufferOffset

/-- The address of offset zero. -/
def poolBase (rnDev : RnDev) : Pool → BitVec 64
  | .host => rnDev.baseBuf
  | .device => deviceMemOffset

/-- The buffers that come from a pool. -/
def Session.of (s : Session) (p : Pool) : List Allocation :=
  s.allocations.filter fun a => a.call.bufLocation = p.location

/-- The addresses of the bytes of a buffer. -/
def Allocation.bytes (a : Allocation) : Set (BitVec 64) :=
  {x | (x - a.buf.buffer).toNat < a.call.bufSize.toNat}

/-- The offset of a buffer in its pool. -/
def Allocation.offset (base : BitVec 64) (a : Allocation) : Nat := (a.buf.buffer - base).toNat

/-- The call takes the offset of its pool to a place in the 64-bit range. -/
def Fits (s : Session) (c : Call) : Prop :=
  ∀ p : Pool, s.exited = false → c.bufLocation = p.location →
    Bump.place 4096 (poolOffset s.rnDev p).toNat c.bufSize.toNat + c.bufSize.toNat < 2 ^ 64

/-! ## The offset of a call -/

section Offset

variable (offset bufSize : BitVec 64)

theorem toNat_addressMask :
    (offset &&& hardwarePageSizeAddressMask).toNat = offset.toNat % 4096 := by
  rw [BitVec.toNat_and]
  exact Nat.and_two_pow_sub_one_eq_mod offset.toNat 12

theorem alignmentMask_eq :
    offset &&& hardwarePageSizeAlignmentMask = (offset >>> 12) <<< 12 := by
  refine BitVec.eq_of_getLsbD_eq fun i hi => ?_
  simp only [hardwarePageSizeAlignmentMask, BitVec.getLsbD_and, BitVec.getLsbD_shiftLeft,
    BitVec.getLsbD_ushiftRight]
  interval_cases i <;> simp

theorem toNat_alignmentMask :
    (offset &&& hardwarePageSizeAlignmentMask).toNat = offset.toNat / 4096 * 4096 := by
  have hlt := offset.isLt
  rw [alignmentMask_eq, BitVec.toNat_shiftLeft, BitVec.toNat_ushiftRight, Nat.shiftLeft_eq,
    Nat.shiftRight_eq_div_pow]
  omega

/-- The next page, unless it is behind the end of the range. -/
theorem toNat_nextPage (h : (offset.toNat / 4096 + 1) * 4096 < 2 ^ 64) :
    ((offset + hardwarePageSize) &&& hardwarePageSizeAlignmentMask).toNat =
      (offset.toNat / 4096 + 1) * 4096 := by
  have hpage : hardwarePageSize.toNat = 4096 := rfl
  rw [toNat_alignmentMask, BitVec.toNat_add, hpage]
  omega

/-- **The offset of a call.**  It is where a bump allocator places the buffer. -/
theorem toNat_alignedOffset_of_place_lt
    (h : Bump.place 4096 offset.toNat bufSize.toNat < 2 ^ 64) :
    (alignedOffset offset bufSize).toNat = Bump.place 4096 offset.toNat bufSize.toNat := by
  have hpage : hardwarePageSize.toNat = 4096 := rfl
  have hmask := toNat_addressMask offset
  have hsmall : bufSize ≤ hardwarePageSize ↔ bufSize.toNat ≤ 4096 := by
    rw [BitVec.le_def, hpage]
  unfold alignedOffset
  unfold Bump.place at h ⊢
  by_cases hle : bufSize.toNat ≤ 4096
  · rw [if_pos hle] at h ⊢
    rw [if_pos (hsmall.mpr hle)]
    have hcross : hardwarePageSize < (offset &&& hardwarePageSizeAddressMask) + bufSize ↔
        4096 < offset.toNat % 4096 + bufSize.toNat := by
      rw [BitVec.lt_def, BitVec.toNat_add, hmask, hpage]
      omega
    by_cases hover : 4096 < offset.toNat % 4096 + bufSize.toNat
    · rw [if_pos hover] at h ⊢
      rw [if_pos (hcross.mpr hover), toNat_nextPage _ h]
    · rw [if_neg hover, if_neg (mt hcross.mp hover)]
  · rw [if_neg hle] at h ⊢
    rw [if_neg (mt hsmall.mp hle)]
    have hin : offset &&& hardwarePageSizeAddressMask ≠ 0 ↔ offset.toNat % 4096 ≠ 0 := by
      rw [← hmask, ne_eq, ne_eq, ← BitVec.toNat_inj]
      rfl
    by_cases hoff : offset.toNat % 4096 ≠ 0
    · rw [if_pos hoff] at h ⊢
      rw [if_pos (hin.mpr hoff), toNat_nextPage _ h]
    · rw [if_neg hoff, if_neg (mt hin.mp hoff)]

theorem toNat_alignedOffset
    (h : Bump.place 4096 offset.toNat bufSize.toNat + bufSize.toNat < 2 ^ 64) :
    (alignedOffset offset bufSize).toNat = Bump.place 4096 offset.toNat bufSize.toNat :=
  toNat_alignedOffset_of_place_lt offset bufSize (Nat.lt_of_le_of_lt (Nat.le_add_right _ _) h)

end Offset

/-! ## The pools -/

/-- An offset in device memory does not reach the bits of its base. -/
theorem or_deviceMemOffset {offset : BitVec 64} (h : offset.toNat < 2 ^ 52) :
    offset ||| deviceMemOffset = deviceMemOffset + offset := by
  have hbase : deviceMemOffset.toNat = 2 ^ 52 * 0xa35 := rfl
  have hor := Nat.two_pow_add_eq_or_of_lt h 0xa35
  refine BitVec.eq_of_toNat_eq ?_
  rw [BitVec.toNat_or, BitVec.toNat_add, hbase, Nat.or_comm, ← hor]
  omega

/-- What a call returns, for a call that names a pool. -/
theorem allocate_eq {paddr : BitVec 64 → BitVec 64} {rnDev rnDev' : RnDev} {p : Pool}
    {bufSize : BitVec 64} {buf : RdmaBuff}
    (h : allocateRdmaBuffer paddr rnDev bufSize p.location = some (buf, rnDev'))
    (hfits : Bump.place 4096 (poolOffset rnDev p).toNat bufSize.toNat + bufSize.toNat <
      2 ^ 64) :
    buf.buffer - poolBase rnDev p = alignedOffset (poolOffset rnDev p) bufSize ∧
      poolOffset rnDev' p = alignedOffset (poolOffset rnDev p) bufSize + bufSize ∧
      rnDev'.baseBuf = rnDev.baseBuf ∧
      ∀ q, q ≠ p → poolOffset rnDev' q = poolOffset rnDev q := by
  cases p with
  | host =>
    simp only [Pool.location, allocateRdmaBuffer, Option.some.injEq, Prod.mk.injEq] at h
    obtain ⟨rfl, rfl⟩ := h
    refine ⟨?_, rfl, rfl, fun q hq => ?_⟩
    · show rnDev.baseBuf + _ - rnDev.baseBuf = _
      rw [BitVec.add_comm, BitVec.add_sub_cancel]
      rfl
    · cases q with
      | host => exact absurd rfl hq
      | device => rfl
  | device =>
    simp only [Pool.location, allocateRdmaBuffer] at h
    split_ifs at h with hroom
    simp only [Option.some.injEq, Prod.mk.injEq] at h
    obtain ⟨rfl, rfl⟩ := h
    refine ⟨?_, rfl, rfl, fun q hq => ?_⟩
    · have hplace := toNat_alignedOffset _ _ hfits
      have hend : (alignedOffset rnDev.devBufferOffset bufSize).toNat < 2 ^ 52 := by
        have hsize : deviceMemSize.toNat = 4294967296 := rfl
        simp only [poolOffset] at hfits hplace
        rw [BitVec.le_def, BitVec.toNat_add, hsize] at hroom
        omega
      show (alignedOffset rnDev.devBufferOffset bufSize ||| deviceMemOffset) - deviceMemOffset = _
      rw [or_deviceMemOffset hend, BitVec.add_comm, BitVec.add_sub_cancel]
      rfl
    · cases q with
      | host => rfl
      | device => exact absurd rfl hq

/-! ## The bump allocators behind a session -/

/-- The bytes of a buffer, counted from the base of its pool. -/
def Allocation.region (base : BitVec 64) (a : Allocation) : Bump.Region :=
  ⟨a.offset base, a.call.bufSize.toNat⟩

/-- The offsets are the cursors of two bump allocators, and the buffers are their regions. -/
structure Represents (rnDev : RnDev) (s : Session) (pools : Pool → Bump.Pool 4096) : Prop where
  base : ∀ p, poolBase s.rnDev p = poolBase rnDev p
  cursor : ∀ p, (poolOffset s.rnDev p).toNat = (pools p).cursor
  regions : ∀ p, (s.of p).map (Allocation.region (poolBase rnDev p)) = (pools p).regions

section Run

variable {paddr : BitVec 64 → BitVec 64} {rnDev : RnDev} {s : Session}
  {pools : Pool → Bump.Pool 4096}

theorem location_injective {p q : Pool} (h : p.location = q.location) : p = q := by
  cases p <;> cases q <;> first | rfl | cases h

/-- A call that returns puts one region into one pool. -/
theorem Represents.allocated (h : Represents rnDev s pools) {c : Call} {p : Pool}
    {buf : RdmaBuff} {rnDev' : RnDev}
    (hcall : allocateRdmaBuffer paddr s.rnDev c.bufSize p.location = some (buf, rnDev'))
    (hp : c.bufLocation = p.location)
    (hroom : Bump.place 4096 (poolOffset s.rnDev p).toNat c.bufSize.toNat + c.bufSize.toNat <
      2 ^ 64) :
    Represents rnDev ⟨rnDev', s.allocations ++ [⟨c, buf⟩], false⟩
      (Function.update pools p ((pools p).put (by decide) c.bufSize.toNat)) := by
  obtain ⟨hbuf, hoff, hbase, hother⟩ := allocate_eq hcall hroom
  have hplace := toNat_alignedOffset _ _ hroom
  rw [h.cursor p] at hplace hroom
  refine ⟨fun q => ?_, fun q => ?_, fun q => ?_⟩
  · rw [← h.base q]
    cases q with
    | host => exact hbase
    | device => rfl
  · by_cases hq : q = p
    · subst hq
      rw [Function.update_self]
      show (poolOffset rnDev' q).toNat = Bump.place 4096 (pools q).cursor _ + _
      rw [hoff, BitVec.toNat_add, hplace, Nat.mod_eq_of_lt hroom]
    · rw [Function.update_of_ne hq, hother q hq, h.cursor]
  · rw [Session.of, List.filter_append, List.map_append]
    by_cases hq : q = p
    · subst hq
      rw [Function.update_self]
      show (s.of q).map _ ++ _ = (pools q).regions ++ [⟨Bump.place 4096 _ _, _⟩]
      rw [h.regions q, List.filter_singleton, hp, ← hplace, ← hbuf, h.base q]
      simp [Allocation.region, Allocation.offset]
    · have hne : ¬ c.bufLocation = q.location := fun hloc =>
        hq (location_injective (hloc.symm.trans hp))
      rw [Function.update_of_ne hq, ← h.regions q]
      simp [Session.of, hne]

/-- One call puts one region into one pool, or exits. -/
theorem Represents.step (h : Represents rnDev s pools) {c : Call} (hfits : Fits s c) :
    ∃ pools', Represents rnDev (Session.step paddr s c) pools' ∧
      ∀ p, (pools p).cursor ≤ (pools' p).cursor := by
  cases hexit : s.exited with
  | true =>
    have hstep : Session.step paddr s c = s := by simp [Session.step, hexit]
    rw [hstep]
    exact ⟨pools, h, fun p => Nat.le_refl _⟩
  | false =>
    cases hcall : allocateRdmaBuffer paddr s.rnDev c.bufSize c.bufLocation with
    | none =>
      have hstep : Session.step paddr s c = { s with exited := true } := by
        simp [Session.step, hexit, hcall]
      rw [hstep]
      exact ⟨pools, ⟨h.base, h.cursor, h.regions⟩, fun p => Nat.le_refl _⟩
    | some r =>
      obtain ⟨buf, rnDev'⟩ := r
      have hstep : Session.step paddr s c = ⟨rnDev', s.allocations ++ [⟨c, buf⟩], false⟩ := by
        simp [Session.step, hexit, hcall]
      obtain ⟨p, hp⟩ : ∃ p : Pool, c.bufLocation = p.location := by
        cases hloc : c.bufLocation with
        | hostMem => exact ⟨.host, rfl⟩
        | devMem => exact ⟨.device, rfl⟩
        | other =>
          rw [hloc] at hcall
          cases hcall
      rw [hstep]
      refine ⟨_, h.allocated (hp ▸ hcall) hp (hfits p hexit hp), fun q => ?_⟩
      by_cases hq : q = p
      · subst hq
        rw [Function.update_self]
        exact (pools q).cursor_le_put _ _
      · rw [Function.update_of_ne hq]

/-- The bump allocators follow a session. -/
theorem Represents.run {calls : List Call} (h : Represents rnDev s pools)
    (hfits : (session paddr rnDev).Guarded Fits s calls) :
    ∃ pools', Represents rnDev ((session paddr rnDev).runFrom s calls) pools' ∧
      ∀ p, (pools p).cursor ≤ (pools' p).cursor := by
  induction calls generalizing s pools with
  | nil => exact ⟨pools, h, fun p => Nat.le_refl _⟩
  | cons c calls ih =>
    obtain ⟨pools₁, h₁, hle₁⟩ := h.step hfits.1
    obtain ⟨pools₂, h₂, hle₂⟩ := ih h₁ hfits.2
    exact ⟨pools₂, h₂, fun p => Nat.le_trans (hle₁ p) (hle₂ p)⟩

theorem represents_reset (paddr : BitVec 64 → BitVec 64) (rnDev : RnDev) :
    Represents rnDev (session paddr rnDev).reset
      fun p => Bump.Pool.new 4096 (poolOffset rnDev p).toNat :=
  ⟨fun _ => rfl, fun _ => rfl, fun _ => rfl⟩

end Run

/-! ## Disjoint buffers -/

/-- Buffers of which one ends before the other begins have no byte in common. -/
theorem disjoint_bytes {base : BitVec 64} {a b : Allocation}
    (hbefore : (a.region base).Before (b.region base))
    (hend : b.offset base + b.call.bufSize.toNat < 2 ^ 64) {x : BitVec 64} (ha : x ∈ a.bytes) :
    x ∉ b.bytes := by
  intro hb
  have hstart : a.offset base + a.call.bufSize.toNat ≤ b.offset base := hbefore
  have hshift (c : Allocation) : x - c.buf.buffer = (x - base) - (c.buf.buffer - base) := by
    grind
  change (x - a.buf.buffer).toNat < _ at ha
  change (x - b.buf.buffer).toNat < _ at hb
  rw [hshift, BitVec.toNat_sub] at ha hb
  unfold Allocation.offset at hstart hend
  have hlt := (x - base).isLt
  omega

/-- The buffers of each pool are disjoint, one of at most a page stays inside a page of its
pool, and a larger one begins with a page. -/
structure WellPlaced (rnDev : RnDev) (s : Session) : Prop where
  disjoint : ∀ p, (s.of p).Pairwise fun a b => ∀ x ∈ a.bytes, x ∉ b.bytes
  small : ∀ p, ∀ a ∈ s.of p, a.call.bufSize ≤ hardwarePageSize →
    a.offset (poolBase rnDev p) % 4096 + a.call.bufSize.toNat ≤ 4096
  large : ∀ p, ∀ a ∈ s.of p, hardwarePageSize < a.call.bufSize →
    a.offset (poolBase rnDev p) % 4096 = 0

/-- What a bump allocator guarantees holds of the buffers it stands for. -/
theorem Represents.wellPlaced {rnDev : RnDev} {s : Session} {pools : Pool → Bump.Pool 4096}
    (h : Represents rnDev s pools) : WellPlaced rnDev s := by
  have hmem {p : Pool} {a : Allocation} (ha : a ∈ s.of p) :
      a.region (poolBase rnDev p) ∈ (pools p).regions := by
    rw [← h.regions p]
    exact List.mem_map_of_mem ha
  have hpage : hardwarePageSize.toNat = 4096 := rfl
  refine ⟨fun p => ?_, fun p a ha hsize => ?_, fun p a ha hsize => ?_⟩
  · have hordered := (pools p).ordered
    rw [← h.regions p, List.pairwise_map] at hordered
    refine hordered.imp_of_mem fun {a b} _ hb hbefore x hx => disjoint_bytes hbefore ?_ hx
    have hbelow : b.offset (poolBase rnDev p) + b.call.bufSize.toNat ≤ (pools p).cursor :=
      (pools p).below _ (hmem hb)
    have hrange := (poolOffset s.rnDev p).isLt
    rw [h.cursor p] at hrange
    omega
  · rw [BitVec.le_def, hpage] at hsize
    exact ((pools p).paged _ (hmem ha)).1 hsize
  · rw [BitVec.lt_def, hpage] at hsize
    exact ((pools p).paged _ (hmem ha)).2 hsize

/-- **The allocator.**  In each session whose offsets stay in the 64-bit range, the buffers
are well placed, and more calls do not take an offset back. -/
theorem wellPlaced_session (paddr : BitVec 64 → BitVec 64) (rnDev : RnDev)
    (calls more : List Call)
    (hfits : (session paddr rnDev).Guarded Fits (session paddr rnDev).reset (calls ++ more)) :
    WellPlaced rnDev ((session paddr rnDev).run calls) ∧
      ∀ p, poolOffset ((session paddr rnDev).run calls).rnDev p ≤
        poolOffset ((session paddr rnDev).run (calls ++ more)).rnDev p := by
  obtain ⟨hcalls, hmore⟩ := Machine.guarded_append.mp hfits
  obtain ⟨pools, h, -⟩ := (represents_reset paddr rnDev).run hcalls
  obtain ⟨pools', h', hle⟩ := h.run hmore
  refine ⟨h.wellPlaced, fun p => ?_⟩
  rw [Machine.run, Machine.run, Machine.runFrom_append, BitVec.le_def, h.cursor p, h'.cursor p]
  exact hle p

instance (s : Session) (c : Call) : Decidable (Fits s c) :=
  decidable_of_iff
    ((s.exited = false → c.bufLocation = Pool.host.location →
        Bump.place 4096 (poolOffset s.rnDev .host).toNat c.bufSize.toNat + c.bufSize.toNat <
          2 ^ 64) ∧
      (s.exited = false → c.bufLocation = Pool.device.location →
        Bump.place 4096 (poolOffset s.rnDev .device).toNat c.bufSize.toNat + c.bufSize.toNat <
          2 ^ 64))
    ⟨fun h p => by cases p with
      | host => exact h.1
      | device => exact h.2,
    fun h => ⟨h .host, h .device⟩⟩

/-- The queues of a queue pair in device memory, between buffers in host memory. -/
theorem wellPlaced_session_mixed :
    WellPlaced ⟨0x7f0000000000, 0, 0⟩
        ((session id ⟨0x7f0000000000, 0, 0⟩).run
          [⟨4000, .hostMem⟩, ⟨40960, .devMem⟩, ⟨200, .hostMem⟩, ⟨2560, .devMem⟩]) ∧
      ∀ p, poolOffset ((session id ⟨0x7f0000000000, 0, 0⟩).run
          [⟨4000, .hostMem⟩, ⟨40960, .devMem⟩, ⟨200, .hostMem⟩, ⟨2560, .devMem⟩]).rnDev p ≤
        poolOffset ((session id ⟨0x7f0000000000, 0, 0⟩).run
          ([⟨4000, .hostMem⟩, ⟨40960, .devMem⟩, ⟨200, .hostMem⟩, ⟨2560, .devMem⟩] ++
            [⟨327680, .devMem⟩, ⟨8192, .hostMem⟩])).rnDev p :=
  wellPlaced_session id ⟨0x7f0000000000, 0, 0⟩ _ _ (by decide +kernel)

end Allocator
end RecoNIC
