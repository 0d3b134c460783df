import RecoNIC.Arithmetic.Paged
import RecoNIC.Driver.Allocator

/-!
# The huge pages behind the host buffers

`create_rn_dev` maps a pool of huge pages, and `allocate_rdma_buffer` hands it out with an
offset that only grows.  Nothing compares the offset with the size of the pool: a host call
always returns, and its buffer lies in the pool iff the call fits into what is left
(`served_iff_fitsPool`).

A buffer has one DMA address, the physical address of its first byte.  It serves the whole
buffer iff each huge page that the buffer goes on to lies right behind the one before it in
physical memory (`oneDma_iff_contiguous`).
-/

namespace RecoNIC
namespace Allocator

open Synchronous RdmaApi

/-! ## The pool -/

/-- `HUGE_PAGE_SHIFT`. -/
def hugePageShift : Nat := 21

/-- The length that `create_rn_dev` maps for the pool: a product of 32-bit numbers. -/
def poolBytes (numHugepagesRequest : BitVec 32) : Nat :=
  (numHugepagesRequest * BitVec.ofNat 32 (1 <<< hugePageShift)).toNat

/-- The pool has all the bytes of its huge pages as long as they are fewer than 4 GB. -/
theorem poolBytes_eq {n : BitVec 32} (h : n.toNat < 2048) :
    poolBytes n = n.toNat * 2 ^ 21 := by
  have hpage : (BitVec.ofNat 32 (1 <<< hugePageShift)).toNat = 2 ^ 21 := rfl
  rw [poolBytes, BitVec.toNat_mul, hpage]
  omega

theorem poolBytes_lt (n : BitVec 32) : poolBytes n < 2 ^ 32 := BitVec.isLt _

/-- What `create_rn_dev` leaves in the device, for a pool mapped at `base`. -/
def createRnDev (base : BitVec 64) : RnDev where
  baseBuf := base
  bufferOffset := 0
  devBufferOffset := 0

/-! ## Host calls -/

section HostCall

variable {paddr : BitVec 64 → BitVec 64} {s : Session} {c : Call}

/-- The buffer of a host call. -/
def hostBuffer (paddr : BitVec 64 → BitVec 64) (s : Session) (c : Call) : RdmaBuff where
  buffer := s.rnDev.baseBuf + alignedOffset s.rnDev.bufferOffset c.bufSize
  dmaAddr := paddr (s.rnDev.baseBuf + alignedOffset s.rnDev.bufferOffset c.bufSize)
  bufSize := c.bufSize.setWidth 32

/-- The call is one for host memory, and no call before it has ended the program. -/
def Session.Host (s : Session) (c : Call) : Prop := s.exited = false ∧ c.bufLocation = .hostMem

/-- A host call always returns a buffer. -/
theorem Session.step_host (h : s.Host c) :
    Session.step paddr s c =
      ⟨{ s.rnDev with
          bufferOffset := alignedOffset s.rnDev.bufferOffset c.bufSize + c.bufSize },
        s.allocations ++ [⟨c, hostBuffer paddr s c⟩], false⟩ := by
  rw [Session.step, h.1, h.2, if_neg Bool.false_ne_true]
  rfl

/-- Any other call leaves the pool alone. -/
theorem Session.step_not_host (paddr : BitVec 64 → BitVec 64) (h : ¬ s.Host c) :
    (Session.step paddr s c).rnDev.baseBuf = s.rnDev.baseBuf ∧
      (Session.step paddr s c).rnDev.bufferOffset = s.rnDev.bufferOffset := by
  rw [Session.step]
  cases hexit : s.exited with
  | true => exact ⟨rfl, rfl⟩
  | false =>
    rw [if_neg Bool.false_ne_true]
    cases hloc : c.bufLocation with
    | hostMem => exact absurd ⟨hexit, hloc⟩ h
    | devMem =>
      simp only [allocateRdmaBuffer]
      split_ifs <;> exact ⟨rfl, rfl⟩
    | other => exact ⟨rfl, rfl⟩

/-- The offset of the pool is a number of bytes of the pool. -/
structure InPool (base : BitVec 64) (n : BitVec 32) (s : Session) : Prop where
  base : s.rnDev.baseBuf = base
  offset_le : s.rnDev.bufferOffset.toNat ≤ poolBytes n

/-- The call fits into what is left of the pool. -/
def FitsPool (n : BitVec 32) (s : Session) (c : Call) : Prop :=
  s.Host c →
    Bump.place 4096 s.rnDev.bufferOffset.toNat c.bufSize.toNat + c.bufSize.toNat ≤ poolBytes n

variable {base : BitVec 64} {n : BitVec 32}

theorem inPool_createRnDev : InPool base n (session paddr (createRnDev base)).reset :=
  ⟨rfl, Nat.zero_le _⟩

theorem place_lt (h : InPool base n s) :
    Bump.place 4096 s.rnDev.bufferOffset.toNat c.bufSize.toNat < 2 ^ 64 := by
  have hle := h.offset_le
  have hpool := poolBytes_lt n
  unfold Bump.place
  split_ifs <;> omega

/-- Where the buffer of a host call begins in the pool. -/
theorem toNat_offset (h : InPool base n s) :
    (alignedOffset s.rnDev.bufferOffset c.bufSize).toNat =
      Bump.place 4096 s.rnDev.bufferOffset.toNat c.bufSize.toNat :=
  toNat_alignedOffset_of_place_lt _ _ (place_lt h)

/-- A call that fits leaves the offset in the pool. -/
theorem InPool.step (h : InPool base n s) (hfits : FitsPool n s c) :
    InPool base n (Session.step paddr s c) := by
  by_cases hhost : s.Host c
  · have hend := hfits hhost
    have hpool := poolBytes_lt n
    rw [Session.step_host hhost]
    refine ⟨h.base, ?_⟩
    rw [BitVec.toNat_add, toNat_offset h, Nat.mod_eq_of_lt (by omega)]
    exact hend
  · obtain ⟨hbase, hoff⟩ := Session.step_not_host paddr hhost
    exact ⟨hbase.trans h.base, hoff ▸ h.offset_le⟩

/-! ## Inside the pool -/

/-- Each byte of the buffer is one of the pool. -/
def Allocation.Inside (base : BitVec 64) (n : BitVec 32) (a : Allocation) : Prop :=
  ∀ x ∈ a.bytes, (x - base).toNat < poolBytes n

/-- A host call returns a buffer inside the pool, or fails and leaves the offset as it is. -/
def Served (paddr : BitVec 64 → BitVec 64) (base : BitVec 64) (n : BitVec 32) (s : Session)
    (c : Call) : Prop :=
  s.Host c →
    (∃ a, (Session.step paddr s c).allocations = s.allocations ++ [a] ∧ a.Inside base n) ∨
      ((Session.step paddr s c).allocations = s.allocations ∧
        (Session.step paddr s c).exited = true ∧
        (Session.step paddr s c).rnDev.bufferOffset = s.rnDev.bufferOffset)

/-- The bytes of a host buffer are counted from where it begins. -/
theorem sub_base (paddr : BitVec 64 → BitVec 64) (c : Call) (h : InPool base n s) (x : BitVec 64) :
    x - base = (x - (hostBuffer paddr s c).buffer) +
      alignedOffset s.rnDev.bufferOffset c.bufSize := by
  show x - base = x - (s.rnDev.baseBuf + _) + _
  rw [h.base]
  grind

/-- **One host call.**  Its buffer is inside the pool iff the call fits. -/
theorem inside_iff (paddr : BitVec 64 → BitVec 64) (h : InPool base n s) :
    Allocation.Inside base n ⟨c, hostBuffer paddr s c⟩ ↔
      Bump.place 4096 s.rnDev.bufferOffset.toNat c.bufSize.toNat + c.bufSize.toNat ≤
        poolBytes n := by
  have hoff := toNat_offset (c := c) h
  have hpool := poolBytes_lt n
  have hplace := place_lt (c := c) h
  constructor
  · intro hinside
    by_contra hover
    have hpos : 0 < c.bufSize.toNat := by
      have hle := h.offset_le
      unfold Bump.place at hover
      split_ifs at hover <;> omega
    -- the first byte of the buffer that is behind the pool
    obtain ⟨d, hd⟩ : ∃ d, d = poolBytes n -
        Bump.place 4096 s.rnDev.bufferOffset.toNat c.bufSize.toNat := ⟨_, rfl⟩
    have hdist : ((hostBuffer paddr s c).buffer + BitVec.ofNat 64 d -
        (hostBuffer paddr s c).buffer) = BitVec.ofNat 64 d := by
      rw [BitVec.add_comm, BitVec.add_sub_cancel]
    have hdnat : (BitVec.ofNat 64 d).toNat = d := by
      rw [BitVec.toNat_ofNat, Nat.mod_eq_of_lt (by omega)]
    have hlast := hinside ((hostBuffer paddr s c).buffer + BitVec.ofNat 64 d) (by
      show (_ - (hostBuffer paddr s c).buffer).toNat < c.bufSize.toNat
      rw [hdist, hdnat]
      omega)
    rw [sub_base paddr c h, hdist, BitVec.toNat_add, hdnat, hoff,
      Nat.mod_eq_of_lt (by omega)] at hlast
    omega
  · intro hfits x hx
    change (x - (hostBuffer paddr s c).buffer).toNat < c.bufSize.toNat at hx
    rw [sub_base paddr c h, BitVec.toNat_add, hoff, Nat.mod_eq_of_lt (by omega)]
    omega

/-- A host call is served as it should be iff it fits. -/
theorem served_iff (h : InPool base n s) : Served paddr base n s c ↔ FitsPool n s c := by
  refine forall_congr' fun hhost => ?_
  rw [Session.step_host hhost, ← inside_iff paddr h]
  constructor
  · rintro (⟨a, happ, hinside⟩ | ⟨hsame, -⟩)
    · rwa [← List.singleton_inj.mp (List.append_cancel_left happ)] at hinside
    · exact absurd hsame (by simp)
  · exact fun hinside => Or.inl ⟨_, rfl, hinside⟩

end HostCall

/-- **Host buffers and the pool.**  In a session on a new device, each host call returns a
buffer inside the pool, or fails and leaves the offset as it is, **iff** each host call fits
into what is left of the pool. -/
theorem served_iff_fitsPool (paddr : BitVec 64 → BitVec 64) (base : BitVec 64) (n : BitVec 32)
    (calls : List Call) :
    (session paddr (createRnDev base)).Guarded (Served paddr base n)
        (session paddr (createRnDev base)).reset calls ↔
      (session paddr (createRnDev base)).Guarded (FitsPool n)
        (session paddr (createRnDev base)).reset calls :=
  Machine.guarded_iff_guarded (fun _ _ h _ => served_iff h)
    (fun _ _ h _ hfits => h.step hfits) inPool_createRnDev (Machine.guarded_true _ _)

/-- A buffer of 4 MB from a pool of one huge page. -/
theorem not_served_beyond :
    ¬ (session id (createRnDev 0x7f0000000000)).Guarded (Served id 0x7f0000000000 1)
      (session id (createRnDev 0x7f0000000000)).reset [⟨0x400000, .hostMem⟩] := by
  intro hserved
  have hfits := (served_iff inPool_createRnDev).mp hserved.1 ⟨rfl, rfl⟩
  exact absurd hfits (by decide)

/-! ## Physical addresses -/

/-- `get_page_frame_number_of_address`, with what the operating system says of each page of
4 KB. -/
def getPageFrameNumberOfAddress (pagemap : BitVec 64 → BitVec 64) (addr : BitVec 64) :
    BitVec 64 :=
  pagemap (addr / 4096) &&& 0x7FFFFFFFFFFFFF

/-- `get_buffer_paddr`. -/
def getBufferPaddr (pagemap : BitVec 64 → BitVec 64) (buffer : BitVec 64) : BitVec 64 :=
  (getPageFrameNumberOfAddress pagemap buffer <<< 12) + buffer % 4096

/-- How the operating system maps a pool: its first virtual address, and the physical address
of each huge page.  The pages are aligned and their order is left open. -/
structure PoolMapping (n : BitVec 32) where
  base : BitVec 64
  page : ℕ → ℕ
  base_aligned : base.toNat % 2 ^ 21 = 0
  base_le : base.toNat + poolBytes n ≤ 2 ^ 64
  page_aligned : ∀ k, page k % 2 ^ 21 = 0
  page_le : ∀ k, page k + 2 ^ 21 ≤ 2 ^ 64

namespace PoolMapping

variable {n : BitVec 32} (m : PoolMapping n)

/-- The physical address of the byte at a virtual address. -/
def phys (x : BitVec 64) : ℕ := Paged.addr (2 ^ 21) m.page (x - m.base).toNat

/-- The page frame numbers that the operating system shows. -/
def pagemap (vpn : BitVec 64) : BitVec 64 := BitVec.ofNat 64 (m.phys (vpn * 4096) / 4096)

theorem toNat_eq {x : BitVec 64} (hx : (x - m.base).toNat < poolBytes n) :
    x.toNat = m.base.toNat + (x - m.base).toNat := by
  have hbase := m.base_le
  have hlt := x.isLt
  rw [BitVec.toNat_sub] at hx ⊢
  omega

/-- The page of 4 KB around a byte, in the huge page around it. -/
theorem phys_page {x : BitVec 64} (hx : (x - m.base).toNat < poolBytes n) :
    m.phys (x / 4096 * 4096) / 4096 * 4096 + x.toNat % 4096 = m.phys x := by
  have hbase := m.base_aligned
  have hxnat := m.toNat_eq hx
  have hpage : (x / 4096 * 4096).toNat = x.toNat / 4096 * 4096 := by
    have hsize : (4096 : BitVec 64).toNat = 4096 := rfl
    have hlt := x.isLt
    rw [BitVec.toNat_mul, BitVec.toNat_udiv, hsize, Nat.mod_eq_of_lt (by omega)]
  have hstart : (x / 4096 * 4096 - m.base).toNat = (x - m.base).toNat / 4096 * 4096 := by
    have hle : m.base ≤ x / 4096 * 4096 := by
      rw [BitVec.le_def, hpage]
      omega
    rw [BitVec.toNat_sub_of_le hle, hpage]
    omega
  have hquot : (x - m.base).toNat / 4096 * 4096 / 2 ^ 21 = (x - m.base).toNat / 2 ^ 21 := by
    omega
  have haligned := m.page_aligned ((x - m.base).toNat / 2 ^ 21)
  rw [phys, phys, Paged.addr, Paged.addr, hstart, hquot]
  omega

theorem phys_lt (x : BitVec 64) : m.phys x < 2 ^ 64 := by
  have hle := m.page_le ((x - m.base).toNat / 2 ^ 21)
  have hmod := Nat.mod_lt (x - m.base).toNat (y := 2 ^ 21) (by decide)
  rw [phys, Paged.addr]
  omega

/-- **The lookup of an address in the pool gives its physical address.** -/
theorem toNat_getBufferPaddr {x : BitVec 64} (hx : (x - m.base).toNat < poolBytes n) :
    (getBufferPaddr m.pagemap x).toNat = m.phys x := by
  have hlt := m.phys_lt (x / 4096 * 4096)
  have hphys := m.phys_lt x
  have hpage := m.phys_page hx
  have hsize : (4096 : BitVec 64).toNat = 4096 := rfl
  have hframe : (getPageFrameNumberOfAddress m.pagemap x).toNat =
      m.phys (x / 4096 * 4096) / 4096 := by
    rw [getPageFrameNumberOfAddress, pagemap, BitVec.toNat_and, BitVec.toNat_ofNat,
      Nat.mod_eq_of_lt (by omega)]
    refine (Nat.and_two_pow_sub_one_eq_mod _ 55).trans (Nat.mod_eq_of_lt ?_)
    omega
  rw [getBufferPaddr, BitVec.toNat_add, BitVec.toNat_shiftLeft, hframe, BitVec.toNat_umod, hsize,
    Nat.shiftLeft_eq]
  omega

end PoolMapping

/-! ## One DMA address -/

section OneDma

variable {n : BitVec 32} (m : PoolMapping n)

/-- Byte `i` of the buffer that a host call returns is at its DMA address plus `i`. -/
def OneDma (s : Session) (c : Call) : Prop :=
  s.Host c → ∀ a,
    (Session.step (getBufferPaddr m.pagemap) s c).allocations = s.allocations ++ [a] →
    ∀ i < c.bufSize.toNat,
      m.phys (a.buf.buffer + BitVec.ofNat 64 i) = a.buf.dmaAddr.toNat + i

/-- Each huge page that the buffer of a host call goes on to lies right behind the one before
it. -/
def Contiguous (s : Session) (c : Call) : Prop :=
  s.Host c → ∀ k,
    Bump.place 4096 s.rnDev.bufferOffset.toNat c.bufSize.toNat < (k + 1) * 2 ^ 21 →
    (k + 1) * 2 ^ 21 <
      Bump.place 4096 s.rnDev.bufferOffset.toNat c.bufSize.toNat + c.bufSize.toNat →
    m.page (k + 1) = m.page k + 2 ^ 21

variable {m} {s : Session} {c : Call}

/-- One host call that fits into the pool. -/
theorem oneDma_iff (h : InPool m.base n s) (hfits : FitsPool n s c) :
    OneDma m s c ↔ Contiguous m s c := by
  refine forall_congr' fun hhost => ?_
  have hreturned (a : Allocation) :
      (Session.step (getBufferPaddr m.pagemap) s c).allocations = s.allocations ++ [a] ↔
        a = ⟨c, hostBuffer (getBufferPaddr m.pagemap) s c⟩ := by
    rw [Session.step_host hhost, List.append_cancel_left_eq, List.singleton_inj, eq_comm]
  simp only [hreturned, forall_eq]
  rw [← Paged.consecutive_iff (by decide)]
  refine forall₂_congr fun i hi => ?_
  have hend := hfits hhost
  have hpool := poolBytes_lt n
  have hoffset (j : ℕ) (hj : j < c.bufSize.toNat) :
      ((hostBuffer (getBufferPaddr m.pagemap) s c).buffer + BitVec.ofNat 64 j - m.base).toNat =
        Bump.place 4096 s.rnDev.bufferOffset.toNat c.bufSize.toNat + j := by
    have hdist : (hostBuffer (getBufferPaddr m.pagemap) s c).buffer + BitVec.ofNat 64 j -
        (hostBuffer (getBufferPaddr m.pagemap) s c).buffer = BitVec.ofNat 64 j := by
      rw [BitVec.add_comm, BitVec.add_sub_cancel]
    rw [sub_base _ _ h, hdist, BitVec.toNat_add, toNat_offset h, BitVec.toNat_ofNat]
    omega
  have hfirst := hoffset 0 (by omega)
  rw [BitVec.add_zero, Nat.add_zero] at hfirst
  have hdma : (hostBuffer (getBufferPaddr m.pagemap) s c).dmaAddr.toNat =
      Paged.addr (2 ^ 21) m.page
        (Bump.place 4096 s.rnDev.bufferOffset.toNat c.bufSize.toNat) := by
    rw [← hfirst]
    refine m.toNat_getBufferPaddr (x := (hostBuffer (getBufferPaddr m.pagemap) s c).buffer) ?_
    rw [hfirst]
    omega
  rw [PoolMapping.phys, hoffset i hi, hdma]

instance (s : Session) (c : Call) : Decidable (FitsPool n s c) :=
  inferInstanceAs (Decidable (_ ∧ _ → _))

end OneDma

/-- **One DMA address for a buffer.**  In a session on a new device whose host calls fit into
the pool, each host buffer is at its DMA address, byte for byte, **iff** each huge page that a
host buffer goes on to lies right behind the one before it in physical memory. -/
theorem oneDma_iff_contiguous {n : BitVec 32} (m : PoolMapping n) (calls : List Call)
    (hfits : (session (getBufferPaddr m.pagemap) (createRnDev m.base)).Guarded (FitsPool n)
      (session (getBufferPaddr m.pagemap) (createRnDev m.base)).reset calls) :
    (session (getBufferPaddr m.pagemap) (createRnDev m.base)).Guarded (OneDma m)
        (session (getBufferPaddr m.pagemap) (createRnDev m.base)).reset calls ↔
      (session (getBufferPaddr m.pagemap) (createRnDev m.base)).Guarded (Contiguous m)
        (session (getBufferPaddr m.pagemap) (createRnDev m.base)).reset calls :=
  Machine.guarded_iff_guarded (fun _ _ h hfits => oneDma_iff h hfits)
    (fun _ _ h hfits _ => h.step hfits) inPool_createRnDev hfits

/-- Two huge pages, the second one in front of the first one in physical memory. -/
def swappedPages : PoolMapping 2 where
  base := 0x7f0000000000
  page := fun k => if k = 0 then 2 ^ 21 else 0
  base_aligned := by decide
  base_le := by decide
  page_aligned := fun k => by split_ifs <;> rfl
  page_le := fun k => by split_ifs <;> decide

/-- Two buffers that stay in the first huge page. -/
theorem oneDma_iff_contiguous_swapped :
    (session (getBufferPaddr swappedPages.pagemap) (createRnDev swappedPages.base)).Guarded
        (FitsPool 2) (session (getBufferPaddr swappedPages.pagemap)
          (createRnDev swappedPages.base)).reset [⟨4096, .hostMem⟩, ⟨0x100000, .hostMem⟩] ∧
      ((session (getBufferPaddr swappedPages.pagemap) (createRnDev swappedPages.base)).Guarded
          (OneDma swappedPages) (session (getBufferPaddr swappedPages.pagemap)
            (createRnDev swappedPages.base)).reset [⟨4096, .hostMem⟩, ⟨0x100000, .hostMem⟩] ↔
        (session (getBufferPaddr swappedPages.pagemap) (createRnDev swappedPages.base)).Guarded
          (Contiguous swappedPages) (session (getBufferPaddr swappedPages.pagemap)
            (createRnDev swappedPages.base)).reset [⟨4096, .hostMem⟩, ⟨0x100000, .hostMem⟩]) :=
  ⟨by decide +kernel, oneDma_iff_contiguous swappedPages _ (by decide +kernel)⟩

/-- A buffer of 3 MB goes on to the second huge page, where its bytes are not behind the first
ones. -/
theorem not_oneDma_swapped :
    (session (getBufferPaddr swappedPages.pagemap) (createRnDev swappedPages.base)).Guarded
        (FitsPool 2) (session (getBufferPaddr swappedPages.pagemap)
          (createRnDev swappedPages.base)).reset [⟨0x300000, .hostMem⟩] ∧
      ¬ (session (getBufferPaddr swappedPages.pagemap) (createRnDev swappedPages.base)).Guarded
        (OneDma swappedPages) (session (getBufferPaddr swappedPages.pagemap)
          (createRnDev swappedPages.base)).reset [⟨0x300000, .hostMem⟩] := by
  refine ⟨by decide +kernel, fun h => ?_⟩
  have hbyte := h.1 ⟨rfl, rfl⟩ _ rfl (2 ^ 21) (by decide)
  exact absurd hbyte (by decide +kernel)

end Allocator
end RecoNIC
