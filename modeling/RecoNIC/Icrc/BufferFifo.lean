import RecoNIC.Synchronous.Fifo

/-!
# The output buffer of the ICRC

`buffer_fifo.sv`: sixteen entries behind two pointers of four bits, and a register for the
word that was read last.  The three flags compare a pointer with a pointer to which a
number has been added.  The sum is 32 bits wide and does not wrap, so `full` is not seen
when the write pointer is at 15 and the read pointer at 0, and `halffull` is seen only when
the write pointer is at most 7.

`contents_step` says what a clock edge does as long as nothing is written into fifteen
entries, or the pointers are where `full` is not seen and an entry is read at the same time.
-/

namespace RecoNIC
namespace Icrc

open Synchronous

/-- A word on the stream: data, keep and last. -/
structure Word where
  data : BitVec 512
  keep : BitVec 64
  last : Bool
  deriving DecidableEq

/-- No word. -/
def Word.zero : Word := ⟨0, 0, false⟩

/-- The registers of the buffer. -/
structure BufferFifo where
  writePointer : BitVec 4
  readPointer : BitVec 4
  /-- `fifo_data`, `fifo_keep` and `fifo_last`. -/
  fifo : BitVec 4 → Word
  /-- `output_data`, `output_keep` and `output_last`. -/
  output : Word

namespace BufferFifo

/-- After reset. -/
def reset : BufferFifo := ⟨0, 0, fun _ => .zero, .zero⟩

variable (f : BufferFifo)

/-- `full`. -/
def full : Bool := f.writePointer.setWidth 32 + 1#32 == f.readPointer.setWidth 32

/-- `empty`. -/
def empty : Bool := f.writePointer == f.readPointer

/-- `halffull`. -/
def halffull : Bool := f.writePointer.setWidth 32 + 8#32 == f.readPointer.setWidth 32

/-- One clock edge. -/
def step (writeEnable readEnable : Bool) (input : Word) : BufferFifo where
  writePointer := if writeEnable && !f.full then f.writePointer + 1 else f.writePointer
  readPointer := if readEnable && !f.empty then f.readPointer + 1 else f.readPointer
  fifo := if writeEnable && !f.full then Function.update f.fifo f.writePointer input else f.fifo
  output := if readEnable && !f.empty then f.fifo f.readPointer else f.output

/-! ## The list it stands for -/

/-- The number of entries. -/
def count : Nat := (f.writePointer - f.readPointer).toNat

/-- The entries, the oldest first. -/
def contents : List Word := Fifo.segment f.fifo f.readPointer f.count

@[simp] theorem contents_reset : reset.contents = [] := rfl

@[simp] theorem length_contents : f.contents.length = f.count := Fifo.length_segment _ _ _

theorem count_lt : f.count < 16 := (f.writePointer - f.readPointer).isLt

theorem writePointer_eq : f.writePointer = f.readPointer + BitVec.ofNat 4 f.count := by
  rw [count, BitVec.ofNat_toNat, BitVec.setWidth_eq, BitVec.add_comm, BitVec.sub_add_cancel]

theorem empty_iff : f.empty = true ↔ f.contents = [] := by
  rw [← List.length_eq_zero_iff, length_contents, empty, beq_iff_eq]
  constructor
  · intro h
    rw [count, h, BitVec.sub_self]
    rfl
  · intro h
    rw [f.writePointer_eq, h]
    exact BitVec.add_zero _

/-- What is read is the oldest entry. -/
theorem contents_eq_cons (h : f.empty = false) :
    f.contents = f.fifo f.readPointer :: f.contents.tail := by
  obtain ⟨n, hn⟩ : ∃ n, f.count = n + 1 := by
    refine Nat.exists_eq_add_one.mpr (Nat.pos_of_ne_zero fun hzero => ?_)
    rw [← length_contents, List.length_eq_zero_iff, ← empty_iff, h] at hzero
    exact Bool.false_ne_true hzero
  rw [contents, hn, Fifo.segment_cons, List.tail_cons]

/-- The sum that a flag compares tells how many entries there are. -/
theorem count_of_sum {k : Nat} (hk : k ≤ 16)
    (h : f.writePointer.setWidth 32 + BitVec.ofNat 32 k = f.readPointer.setWidth 32) :
    f.count = (16 - k) % 16 := by
  have heq := congrArg BitVec.toNat h
  have hw := f.writePointer.isLt
  have hr := f.readPointer.isLt
  rw [BitVec.toNat_add, BitVec.toNat_setWidth, BitVec.toNat_setWidth, BitVec.toNat_ofNat] at heq
  rw [count, BitVec.toNat_sub]
  omega

/-- Half full is eight entries. -/
theorem count_of_halffull (h : f.halffull = true) : f.count = 8 :=
  f.count_of_sum (k := 8) (by decide) (beq_iff_eq.mp h)

/-- Full is fifteen entries. -/
theorem count_of_full (h : f.full = true) : f.count = 15 :=
  f.count_of_sum (k := 1) (by decide) (beq_iff_eq.mp h)

/-- The word can be written: there is room, or an entry is read and `full` is not seen. -/
def Takes (readEnable : Bool) : Prop := f.full = false ∧ (f.count = 15 → readEnable = true)

instance (readEnable : Bool) : Decidable (f.Takes readEnable) :=
  inferInstanceAs (Decidable (_ ∧ _))

/-- What a read leaves. -/
theorem segment_after_read (readEnable : Bool) (input : Word) :
    ∃ n, (f.step false readEnable input).writePointer =
        (f.step false readEnable input).readPointer + BitVec.ofNat 4 n ∧
      Fifo.segment f.fifo (f.step false readEnable input).readPointer n =
        (if readEnable then f.contents.tail else f.contents) ∧
      n ≤ f.count ∧ (f.count = 15 → readEnable = true → n = 14) := by
  have hcount := f.writePointer_eq
  cases hread : readEnable && !f.empty with
  | false =>
    refine ⟨f.count, ?_, ?_, Nat.le_refl _, fun h15 hre => ?_⟩
    · simpa [step, hread] using hcount
    · have hsame : (if readEnable then f.contents.tail else f.contents) = f.contents := by
        cases readEnable with
        | false => rfl
        | true =>
          have hnil := f.empty_iff.mp (by simpa using hread)
          rw [hnil]
          rfl
      simp only [step, hread, Bool.false_eq_true, if_false, hsame]
      rfl
    · have hnil := f.empty_iff.mp (by simpa [hre] using hread)
      rw [← length_contents, hnil] at h15
      cases h15
  | true =>
    obtain ⟨hre, hne⟩ := Bool.and_eq_true_iff.mp hread
    obtain ⟨n, hn⟩ : ∃ n, f.count = n + 1 := by
      have hcons := congrArg List.length (f.contents_eq_cons (by simpa using hne))
      rw [length_contents, List.length_cons] at hcons
      exact ⟨_, hcons⟩
    refine ⟨n, ?_, ?_, by omega, fun h15 _ => by omega⟩
    · simp only [step, hread, if_true, Bool.false_and, Bool.false_eq_true, if_false]
      rw [hcount, hn, BitVec.ofNat_add]
      ac_rfl
    · rw [if_pos hre, contents, hn, Fifo.segment_cons, List.tail_cons]
      simp only [step, hread, if_true]

/-- **What a clock edge does.** -/
theorem contents_step (writeEnable readEnable : Bool) (input : Word)
    (h : writeEnable = true → f.Takes readEnable) :
    (f.step writeEnable readEnable input).contents =
      (if readEnable then f.contents.tail else f.contents) ++
        (if writeEnable then [input] else []) := by
  obtain ⟨n, hwr, hseg, hle, h15⟩ := f.segment_after_read readEnable input
  have hlt := f.count_lt
  cases hwe : writeEnable with
  | false =>
    have hcount : (f.step false readEnable input).count = n := by
      rw [count, hwr, BitVec.add_comm, BitVec.add_sub_cancel, BitVec.toNat_ofNat,
        Nat.mod_eq_of_lt (by omega)]
    rw [contents, hcount]
    simpa [step] using hseg
  | true =>
    obtain ⟨hfull, hroom⟩ := h hwe
    have hn : n < 15 := by
      by_cases hc : f.count = 15
      · rw [h15 hc (hroom hc)]
        decide
      · omega
    have hwp : f.writePointer = (f.step false readEnable input).readPointer + BitVec.ofNat 4 n := by
      simpa [step] using hwr
    have hrp : (f.step true readEnable input).readPointer =
        (f.step false readEnable input).readPointer := rfl
    have hcount : (f.step true readEnable input).count = n + 1 := by
      have hwp' : (f.step true readEnable input).writePointer = f.writePointer + 1 := by
        simp [step, hfull]
      rw [count, hwp', hrp, hwp, BitVec.add_assoc, BitVec.add_comm, BitVec.add_sub_cancel,
        BitVec.toNat_add, BitVec.toNat_ofNat]
      change (n % 16 + 1) % 16 = n + 1
      omega
    have hfifo : (f.step true readEnable input).fifo =
        Function.update f.fifo f.writePointer input := by
      simp [step, hfull]
    rw [contents, hcount, hrp, hfifo, Fifo.segment_succ, hwp, Function.update_self,
      Fifo.segment_update _ _ _ (by omega), hseg]
    rfl

end BufferFifo
end Icrc
end RecoNIC
