import Mathlib.Algebra.Ring.Nat
import Mathlib.Data.List.Range
import Mathlib.Data.List.Basic

/-!
# A circular FIFO

The FIFO of `fifo.sv` for a power of two of entries: a read and a write pointer
that wrap around, a counter, and an array.  A write into a full FIFO and a read
from an empty one do nothing.

`contents` is the list the registers stand for, and `contents_step` says what a
clock edge does to it: a read drops the first element and a write appends one.
That is all a user of the FIFO has to know.
-/

namespace RecoNIC
namespace Synchronous

universe u

/-- A FIFO of `2 ^ w` entries.  The write pointer is ahead of the read pointer by the
number of entries. -/
structure Fifo (α : Type u) (w : Nat) where
  wrPntr : BitVec w
  rdPntr : BitVec w
  nEntries : Nat
  data : BitVec w → α
  nEntries_le : nEntries ≤ 2 ^ w
  wrPntr_eq : wrPntr = rdPntr + BitVec.ofNat w nEntries

namespace Fifo

variable {α : Type u} {w : Nat}

/-- After reset. -/
def reset (zero : α) : Fifo α w where
  wrPntr := 0
  rdPntr := 0
  nEntries := 0
  data := fun _ => zero
  nEntries_le := Nat.zero_le _
  wrPntr_eq := by simp

/-- `isEmpty`. -/
def isEmpty (f : Fifo α w) : Bool := f.nEntries == 0

/-- `isFull`. -/
def isFull (f : Fifo α w) : Bool := f.nEntries == 2 ^ w

/-- `ready_rd`. -/
def readyRd (f : Fifo α w) : Bool := !f.isEmpty

/-- `ready_wr`. -/
def readyWr (f : Fifo α w) : Bool := !f.isFull

/-- `data_out`. -/
def dataOut (f : Fifo α w) : α := f.data f.rdPntr

/-- The number of entries after a clock edge. -/
def nextEntries (f : Fifo α w) (rd wr : Bool) : Nat :=
  if rd && !f.isEmpty && (!wr || f.isFull) then f.nEntries - 1
  else if wr && !f.isFull && (!rd || f.isEmpty) then f.nEntries + 1
  else f.nEntries

/-- The number of entries follows the two pointers. -/
theorem nextEntries_add (f : Fifo α w) (rd wr : Bool) :
    f.nextEntries rd wr + (if rd && !f.isEmpty then 1 else 0) =
      f.nEntries + (if wr && !f.isFull then 1 else 0) := by
  have hpos : f.isEmpty = false → 0 < f.nEntries := by
    simp only [isEmpty, beq_eq_false_iff_ne]
    omega
  unfold nextEntries
  cases rd <;> cases wr <;> cases he : f.isEmpty <;> cases hf : f.isFull <;> simp
  all_goals
    have := hpos he
    omega

theorem nextEntries_le (f : Fifo α w) (rd wr : Bool) : f.nextEntries rd wr ≤ 2 ^ w := by
  have hle := f.nEntries_le
  have hlt : f.isFull = false → f.nEntries < 2 ^ w := by
    simp only [isFull, beq_eq_false_iff_ne]
    omega
  have hadd := f.nextEntries_add rd wr
  cases hf : f.isFull with
  | true =>
    simp only [hf, Bool.not_true, Bool.and_false, Bool.false_eq_true, if_false] at hadd
    omega
  | false =>
    have := hlt hf
    split_ifs at hadd <;> omega

/-- One clock edge. -/
def step (f : Fifo α w) (rd wr : Bool) (dataIn : α) : Fifo α w where
  wrPntr := if wr && !f.isFull then f.wrPntr + 1 else f.wrPntr
  rdPntr := if rd && !f.isEmpty then f.rdPntr + 1 else f.rdPntr
  nEntries := f.nextEntries rd wr
  data := if wr && !f.isFull then Function.update f.data f.wrPntr dataIn else f.data
  nEntries_le := f.nextEntries_le rd wr
  wrPntr_eq := by
    have hadd := congrArg (BitVec.ofNat w) (f.nextEntries_add rd wr)
    simp only [BitVec.ofNat_add] at hadd
    rw [f.wrPntr_eq]
    split_ifs at hadd ⊢ <;> simp at hadd ⊢ <;> grind

/-! ## The list a FIFO stands for -/

/-- The `n` elements of the array from `p` on, around its end. -/
def segment (data : BitVec w → α) (p : BitVec w) (n : Nat) : List α :=
  (List.range n).map fun k => data (p + BitVec.ofNat w k)

section Segment

variable (data : BitVec w → α) (p : BitVec w) (n : Nat)

@[simp] theorem length_segment : (segment data p n).length = n := by
  simp [segment]

theorem segment_succ :
    segment data p (n + 1) = segment data p n ++ [data (p + BitVec.ofNat w n)] := by
  simp [segment, List.range_succ]

theorem segment_cons :
    segment data p (n + 1) = data p :: segment data (p + 1) n := by
  simp only [segment, List.range_succ_eq_map, List.map_cons, List.map_map, BitVec.ofNat_eq_ofNat,
    BitVec.add_zero, List.cons.injEq, true_and]
  refine List.map_congr_left fun k _ => ?_
  simp only [Function.comp_apply, Nat.succ_eq_add_one, BitVec.ofNat_add]
  congr 1
  ac_rfl

/-- A write right behind a segment that leaves room does not touch it. -/
theorem segment_update (hn : n < 2 ^ w) (x : α) :
    segment (Function.update data (p + BitVec.ofNat w n) x) p n = segment data p n := by
  refine List.map_congr_left fun k hk => Function.update_of_ne (fun heq => ?_) _ _
  have hkn := List.mem_range.mp hk
  have hnat := congrArg BitVec.toNat ((BitVec.add_right_inj _).mp heq)
  rw [BitVec.toNat_ofNat, BitVec.toNat_ofNat, Nat.mod_eq_of_lt hn,
    Nat.mod_eq_of_lt (hkn.trans hn)] at hnat
  omega

end Segment

/-- The entries, the oldest first. -/
def contents (f : Fifo α w) : List α := segment f.data f.rdPntr f.nEntries

@[simp] theorem contents_reset (zero : α) : (reset zero : Fifo α w).contents = [] := rfl

@[simp] theorem length_contents (f : Fifo α w) : f.contents.length = f.nEntries := by
  simp [contents]

theorem readyRd_iff (f : Fifo α w) : f.readyRd = true ↔ f.contents ≠ [] := by
  rw [← List.length_pos_iff, length_contents, readyRd, isEmpty]
  simp [Nat.pos_iff_ne_zero]

theorem readyWr_iff (f : Fifo α w) : f.readyWr = true ↔ f.contents.length < 2 ^ w := by
  have hle := f.nEntries_le
  rw [length_contents, readyWr, isFull]
  simp
  omega

/-- What is read is the oldest entry. -/
theorem contents_eq_cons (f : Fifo α w) (h : f.readyRd = true) :
    f.contents = f.dataOut :: f.contents.tail := by
  obtain ⟨n, hn⟩ : ∃ n, f.nEntries = n + 1 := by
    refine Nat.exists_eq_add_one.mpr ?_
    rw [← length_contents]
    exact List.length_pos_iff.mpr (f.readyRd_iff.mp h)
  rw [contents, hn, segment_cons, List.tail_cons, dataOut]

/-- What a read leaves. -/
theorem segment_after_read (f : Fifo α w) (rd : Bool) :
    segment f.data (if rd && !f.isEmpty then f.rdPntr + 1 else f.rdPntr)
        (f.nEntries - if rd && !f.isEmpty then 1 else 0) =
      if rd then f.contents.tail else f.contents := by
  cases rd with
  | false => rfl
  | true =>
    cases hn : f.nEntries with
    | zero => simp [isEmpty, contents, hn, segment]
    | succ n => simp [isEmpty, contents, hn, segment_cons]

/-- **What a clock edge does.**  A read drops the oldest entry, and a write appends one
unless the FIFO is full. -/
theorem contents_step (f : Fifo α w) (rd wr : Bool) (x : α) :
    (f.step rd wr x).contents =
      (if rd then f.contents.tail else f.contents) ++ (if wr && !f.isFull then [x] else []) := by
  have hadd := f.nextEntries_add rd wr
  have hpos : (if rd && !f.isEmpty then 1 else 0) ≤ f.nEntries := by
    cases he : f.isEmpty with
    | true => simp
    | false =>
      have : f.nEntries ≠ 0 := by simpa [isEmpty] using he
      split_ifs <;> omega
  rw [← segment_after_read, contents]
  cases hpush : (wr && !f.isFull) with
  | false =>
    rw [hpush] at hadd
    have hn : f.nextEntries rd wr = f.nEntries - if rd && !f.isEmpty then 1 else 0 := by
      simp only [Bool.false_eq_true, if_false] at hadd
      omega
    simp [step, hpush, hn]
  | true =>
    rw [hpush] at hadd
    have hn : f.nextEntries rd wr = (f.nEntries - if rd && !f.isEmpty then 1 else 0) + 1 := by
      simp only [if_true] at hadd
      omega
    have hroom : f.nEntries < 2 ^ w := by
      have hle := f.nEntries_le
      have hfull : f.nEntries ≠ 2 ^ w := by
        simp only [Bool.and_eq_true, Bool.not_eq_true'] at hpush
        simpa [isFull] using hpush.2
      omega
    have hwr : f.wrPntr = (if rd && !f.isEmpty then f.rdPntr + 1 else f.rdPntr) +
        BitVec.ofNat w (f.nEntries - if rd && !f.isEmpty then 1 else 0) := by
      rw [f.wrPntr_eq]
      split_ifs at hpos ⊢ with hpop
      · obtain ⟨n, hn⟩ := Nat.exists_eq_add_of_le hpos
        rw [hn, Nat.add_sub_cancel_left, BitVec.ofNat_add]
        ac_rfl
      · rfl
    simp only [step, hpush, if_true, hn, segment_succ]
    rw [← hwr, Function.update_self]
    congr 1
    rw [hwr]
    exact segment_update _ _ _ (by omega) _

end Fifo
end Synchronous
end RecoNIC
