import Mathlib.Data.Nat.Log
import RecoNIC.Synchronous.Fifo
import RecoNIC.Synchronous.Simulation

/-!
# The FIFO of any size

`fifo.sv` for every `FIFO_SIZE` from two on.  The pointers are as wide as the size needs and
turn back to zero at the last entry, which need not be the last value of their width.

The reference is `BoundedQueue`: a list with room for `size` words, from which a read takes
the first word and to which a write appends one.  `Holds` relates the registers to the list.
The entry at distance `i` from the read pointer, around the end of the array, is word `i` of
the list, and the write pointer is at the distance of the length.
-/

namespace RecoNIC
namespace Synchronous

/-- The inputs of one cycle: `rd`, `wr` and `data_in`. -/
structure FifoCycle (α : Type) where
  rd : Bool
  wr : Bool
  dataIn : α

/-! ## The reference queue -/

namespace BoundedQueue

variable {α : Type} (size : ℕ)

/-- A read takes the first word away, and a write appends one if there was room. -/
def step (q : List α) (c : FifoCycle α) : List α :=
  (if c.rd then q.tail else q) ++ if c.wr ∧ q.length < size then [c.dataIn] else []

/-- The queue of capacity `size`, empty at first. -/
def queue : Machine (List α) (FifoCycle α) where
  reset := []
  step := step size

/-- The word a cycle reads, if there is one. -/
def wordRead (q : List α) (c : FifoCycle α) : List α := if c.rd then q.head?.toList else []

end BoundedQueue

/-! ## The registers -/

/-- `$clog2(FIFO_SIZE)`. -/
def pntrBits (size : ℕ) : ℕ := Nat.clog 2 size

/-- The registers of `fifo`. -/
structure RingFifo (dataBits size : ℕ) where
  wrPntr : BitVec (pntrBits size)
  rdPntr : BitVec (pntrBits size)
  nEntries : BitVec (pntrBits size + 1)
  data : Vector (BitVec dataBits) size
deriving DecidableEq

namespace RingFifo

variable {dataBits size : ℕ}

/-- After reset. -/
def reset : RingFifo dataBits size where
  wrPntr := 0
  rdPntr := 0
  nEntries := 0
  data := Vector.replicate size 0

section Outputs

variable (f : RingFifo dataBits size)

/-- `isFull`. -/
def isFull : Bool := f.nEntries.toNat == size

/-- `isEmpty`. -/
def isEmpty : Bool := f.nEntries.toNat == 0

/-- `ready_rd`. -/
def readyRd : Bool := !f.isEmpty

/-- `ready_wr`. -/
def readyWr : Bool := !f.isFull

/-- The word at an index of the array.  No index behind its end is ever asked for. -/
def word (i : ℕ) : BitVec dataBits := f.data[i]?.getD 0

/-- `data_out`. -/
def dataOut : BitVec dataBits := f.word f.rdPntr.toNat

end Outputs

/-- A pointer one further, back to zero after the last entry. -/
def next (p : BitVec (pntrBits size)) : BitVec (pntrBits size) :=
  if p.toNat = size - 1 then 0 else p + 1

/-- One clock edge. -/
def step (f : RingFifo dataBits size) (c : FifoCycle (BitVec dataBits)) :
    RingFifo dataBits size where
  nEntries :=
    if c.rd && !f.isEmpty && (!c.wr || f.isFull) then f.nEntries - 1
    else if c.wr && !f.isFull && (!c.rd || f.isEmpty) then f.nEntries + 1
    else f.nEntries
  data := if c.wr && !f.isFull then f.data.setIfInBounds f.wrPntr.toNat c.dataIn else f.data
  wrPntr := if c.wr && !f.isFull then next f.wrPntr else f.wrPntr
  rdPntr := if c.rd && !f.isEmpty then next f.rdPntr else f.rdPntr

/-- `fifo`. -/
def fifo (dataBits size : ℕ) : Machine (RingFifo dataBits size) (FifoCycle (BitVec dataBits)) where
  reset := reset
  step := step

/-- The word a cycle reads: `rd` with `ready_rd`. -/
def wordRead (f : RingFifo dataBits size) (c : FifoCycle (BitVec dataBits)) :
    List (BitVec dataBits) :=
  if c.rd && f.readyRd then [f.dataOut] else []

/-! ## The way around the array -/

/-- The index at distance `i` from `p`, around the end of an array of `size` entries. -/
def around (size p i : ℕ) : ℕ := if p + i < size then p + i else p + i - size

theorem around_lt {p i : ℕ} (hp : p < size) (hi : i ≤ size) : around size p i < size := by
  unfold around
  split_ifs <;> omega

@[simp] theorem around_zero {p : ℕ} (hp : p < size) : around size p 0 = p := by
  rw [around, Nat.add_zero, if_pos hp]

/-- Entries at different distances are different entries. -/
theorem around_ne {p i j : ℕ} (hij : i < j) (hj : j < size) :
    around size p i ≠ around size p j := by
  unfold around
  split_ifs <;> omega

/-- The pointer that moved on comes one distance earlier to an entry. -/
theorem around_around_one {p i : ℕ} (hp : p < size) (hi : i < size) :
    around size (around size p 1) i = around size p (i + 1) := by
  unfold around
  split_ifs <;> omega

theorem around_one_around {p i : ℕ} (hp : p < size) (hi : i < size) :
    around size (around size p i) 1 = around size p (i + 1) := by
  unfold around
  split_ifs <;> omega

theorem le_two_pow_pntrBits (size : ℕ) : size ≤ 2 ^ pntrBits size :=
  Nat.le_pow_clog Nat.one_lt_two size

/-- **A pointer moves around the array**, whether or not the size is a power of two. -/
theorem toNat_next {p : BitVec (pntrBits size)} (hp : p.toNat < size) :
    (next p).toNat = around size p.toNat 1 := by
  have hsize := le_two_pow_pntrBits size
  unfold next around
  split_ifs with hlast hin hin
  · omega
  · rw [BitVec.ofNat_eq_ofNat, BitVec.toNat_zero]
    omega
  · show (p.toNat + 1 % 2 ^ pntrBits size) % 2 ^ pntrBits size = p.toNat + 1
    rw [Nat.add_mod_mod, Nat.mod_eq_of_lt (by omega)]
  · omega

/-! ## The list an array stands for -/

/-- The words from index `p` on, around the end of the array, are the list `q`. -/
structure Lists {α : Type} (size : ℕ) (word : ℕ → α) (p : ℕ) (q : List α) : Prop where
  lt : p < size
  le : q.length ≤ size
  eq : ∀ i (h : i < q.length), word (around size p i) = q[i]

section Lists

variable {α : Type} {word : ℕ → α} {p : ℕ} {q : List α}

/-- Reading leaves the rest of the list, from the next index on. -/
theorem Lists.tail (h : Lists size word p q) (hq : 0 < q.length) :
    Lists size word (around size p 1) q.tail := by
  have hle := h.le
  refine ⟨around_lt h.lt (by omega), by rw [List.length_tail]; omega, fun i hi => ?_⟩
  rw [List.length_tail] at hi
  rw [around_around_one h.lt (by omega), h.eq (i + 1) (by omega), List.getElem_tail]

/-- Writing at the end of the list makes it one longer. -/
theorem Lists.append (h : Lists size word p q) (hroom : q.length < size) (x : α) :
    Lists size (Function.update word (around size p q.length) x) p (q ++ [x]) := by
  refine ⟨h.lt, by rw [List.length_append, List.length_singleton]; omega, fun i hi => ?_⟩
  rw [List.length_append, List.length_singleton] at hi
  rcases Nat.lt_succ_iff_lt_or_eq.mp hi with hin | rfl
  · rw [Function.update_of_ne (around_ne hin hroom), h.eq i hin, List.getElem_append_left]
  · rw [Function.update_self, List.getElem_concat_length rfl]

end Lists

/-! ## The registers hold the queue -/

/-- The registers hold the queue `q`: the counter is its length, the words from the read
pointer on are its words, and the write pointer is right behind them. -/
structure Holds (f : RingFifo dataBits size) (q : List (BitVec dataBits)) : Prop where
  count_eq : f.nEntries.toNat = q.length
  wrPntr_eq : f.wrPntr.toNat = around size f.rdPntr.toNat q.length
  lists : Lists size f.word f.rdPntr.toNat q

namespace Holds

variable {f : RingFifo dataBits size} {q : List (BitVec dataBits)}

theorem isEmpty_iff (h : f.Holds q) : f.isEmpty = true ↔ q = [] := by
  rw [isEmpty, beq_iff_eq, h.count_eq, List.length_eq_zero_iff]

theorem isFull_iff (h : f.Holds q) : f.isFull = true ↔ q.length = size := by
  rw [isFull, beq_iff_eq, h.count_eq]

theorem wrPntr_lt (h : f.Holds q) : f.wrPntr.toNat < size := by
  rw [h.wrPntr_eq]
  exact around_lt h.lists.lt h.lists.le

/-- The counter goes up by one as long as the array has room. -/
theorem count_add_one {n : BitVec (pntrBits size + 1)} (hn : n.toNat < size) :
    (n + 1).toNat = n.toNat + 1 := by
  have hsize := le_two_pow_pntrBits size
  have hwidth : 2 ^ (pntrBits size + 1) = 2 ^ pntrBits size + 2 ^ pntrBits size := by
    rw [pow_succ, mul_two]
  show (n.toNat + 1 % 2 ^ (pntrBits size + 1)) % 2 ^ (pntrBits size + 1) = n.toNat + 1
  rw [Nat.add_mod_mod, Nat.mod_eq_of_lt (by omega)]

/-- The counter goes down by one from any number but zero. -/
theorem count_sub_one {n : BitVec (pntrBits size + 1)} (hn : 0 < n.toNat) :
    (n - 1).toNat = n.toNat - 1 := by
  have hone : (1 : BitVec (pntrBits size + 1)).toNat = 1 :=
    Nat.mod_eq_of_lt (Nat.one_lt_two_pow (Nat.succ_ne_zero _))
  have hle : (1 : BitVec (pntrBits size + 1)) ≤ n := by
    rw [BitVec.le_def, hone]
    exact hn
  rw [BitVec.toNat_sub_of_le hle, hone]

/-- **The counter follows what is read and what is written.** -/
theorem count_step (h : f.Holds q) (c : FifoCycle (BitVec dataBits)) :
    (f.step c).nEntries.toNat + (if c.rd && !f.isEmpty then 1 else 0) =
      f.nEntries.toNat + if c.wr && !f.isFull then 1 else 0 := by
  have hle : f.nEntries.toNat ≤ size := h.count_eq ▸ h.lists.le
  have hdown : f.isEmpty = false → (f.nEntries - 1).toNat + 1 = f.nEntries.toNat := by
    intro he
    have hpos : 0 < f.nEntries.toNat :=
      Nat.pos_of_ne_zero (beq_eq_false_iff_ne.mp he)
    rw [count_sub_one hpos]
    omega
  have hup : f.isFull = false → (f.nEntries + 1).toNat = f.nEntries.toNat + 1 := by
    intro hf
    have hne : f.nEntries.toNat ≠ size := beq_eq_false_iff_ne.mp hf
    exact count_add_one (by omega)
  simp only [step]
  cases hr : c.rd <;> cases hw : c.wr <;> cases he : f.isEmpty <;> cases hf : f.isFull <;> grind

/-- What the array holds after a clock edge. -/
theorem word_step (h : f.Holds q) (c : FifoCycle (BitVec dataBits)) :
    (f.step c).word =
      if c.wr && !f.isFull then Function.update f.word f.wrPntr.toNat c.dataIn else f.word := by
  funext i
  by_cases hw : (c.wr && !f.isFull) = true
  · simp only [word, RingFifo.step, if_pos hw]
    rw [Function.update_apply, Vector.getElem?_setIfInBounds]
    by_cases hi : f.wrPntr.toNat = i
    · rw [if_pos hi, if_pos (hi ▸ h.wrPntr_lt), if_pos hi.symm, Option.getD_some]
    · rw [if_neg hi, if_neg (Ne.symm hi), word]
  · simp only [word, RingFifo.step, if_neg hw]

/-- What a read leaves in the array, and what the write pointer is ahead of it. -/
theorem afterRead (h : f.Holds q) (c : FifoCycle (BitVec dataBits)) :
    Lists size f.word (f.step c).rdPntr.toNat (if c.rd then q.tail else q) ∧
      f.wrPntr.toNat =
        around size (f.step c).rdPntr.toNat (if c.rd then q.tail else q).length := by
  simp only [step]
  cases hr : c.rd with
  | false => exact ⟨h.lists, h.wrPntr_eq⟩
  | true =>
    cases he : f.isEmpty with
    | true =>
      obtain rfl := h.isEmpty_iff.mp he
      exact ⟨h.lists, h.wrPntr_eq⟩
    | false =>
      have hq : 0 < q.length := by
        rw [List.length_pos_iff]
        intro hnil
        rw [h.isEmpty_iff.mpr hnil] at he
        exact Bool.false_ne_true he.symm
      have hle := h.lists.le
      simp only [Bool.not_false, Bool.and_self, if_true]
      rw [toNat_next h.lists.lt]
      refine ⟨h.lists.tail hq, ?_⟩
      rw [List.length_tail, around_around_one h.lists.lt (by omega), Nat.sub_add_cancel hq]
      exact h.wrPntr_eq

theorem length_afterRead (h : f.Holds q) (rd : Bool) :
    (if rd then q.tail else q).length + (if rd && !f.isEmpty then 1 else 0) = q.length := by
  cases rd with
  | false => rfl
  | true =>
    cases he : f.isEmpty with
    | true => rw [h.isEmpty_iff.mp he]; rfl
    | false =>
      have hne : q ≠ [] := fun hnil => Bool.false_ne_true (he.symm.trans (h.isEmpty_iff.mpr hnil))
      have hpos := List.length_pos_iff.mpr hne
      simp only [if_true, Bool.not_false, Bool.and_self, List.length_tail]
      omega

/-- **A clock edge does to the registers what it does to the queue.** -/
theorem step (h : f.Holds q) (c : FifoCycle (BitVec dataBits)) :
    (f.step c).Holds (BoundedQueue.step size q c) := by
  obtain ⟨hlists, hwr⟩ := h.afterRead c
  have hword := h.word_step c
  have hcount := h.count_step c
  have hread := h.length_afterRead c.rd
  have hlen := h.count_eq
  by_cases hw : (c.wr && !f.isFull) = true
  · have hroom : c.wr ∧ q.length < size := by
      rw [Bool.and_eq_true, Bool.not_eq_true', ← Bool.not_eq_true, h.isFull_iff] at hw
      exact ⟨hw.1, lt_of_le_of_ne h.lists.le hw.2⟩
    have hin : (if c.rd then q.tail else q).length < size := by omega
    rw [BoundedQueue.step, if_pos hroom]
    refine ⟨?_, ?_, ?_⟩
    · rw [if_pos hw] at hcount
      rw [List.length_append, List.length_singleton]
      omega
    · have hnext : (f.step c).wrPntr = next f.wrPntr := if_pos hw
      rw [hnext, toNat_next h.wrPntr_lt, hwr, around_one_around hlists.lt hin, List.length_append,
        List.length_singleton]
    · rw [hword, if_pos hw, hwr]
      exact hlists.append hin c.dataIn
  · have hfull : ¬ (c.wr ∧ q.length < size) := by
      rintro ⟨hwr, hlt⟩
      refine hw ?_
      rw [Bool.and_eq_true, Bool.not_eq_true', ← Bool.not_eq_true, h.isFull_iff]
      exact ⟨hwr, hlt.ne⟩
    rw [BoundedQueue.step, if_neg hfull, List.append_nil]
    refine ⟨?_, ?_, ?_⟩
    · rw [if_neg hw] at hcount
      omega
    · have hstay : (f.step c).wrPntr = f.wrPntr := if_neg hw
      rw [hstay, hwr]
    · rw [hword, if_neg hw]
      exact hlists

/-- A read finds the first word of the queue. -/
theorem wordRead_eq (h : f.Holds q) (c : FifoCycle (BitVec dataBits)) :
    f.wordRead c = BoundedQueue.wordRead q c := by
  cases q with
  | nil =>
    have he : f.isEmpty = true := h.isEmpty_iff.mpr rfl
    simp [wordRead, BoundedQueue.wordRead, readyRd, he]
  | cons x xs =>
    have he : f.isEmpty = false := by
      rw [← Bool.not_eq_true, h.isEmpty_iff]
      exact List.cons_ne_nil x xs
    have hx : f.dataOut = x := by
      have hfirst := h.lists.eq 0 (Nat.zero_lt_succ _)
      rwa [around_zero h.lists.lt] at hfirst
    simp [wordRead, BoundedQueue.wordRead, readyRd, he, hx]

end Holds

/-- The registers after reset hold the empty queue. -/
theorem holds_reset (hsize : 2 ≤ size) : (reset : RingFifo dataBits size).Holds [] where
  count_eq := BitVec.toNat_zero
  wrPntr_eq := (around_zero (Nat.lt_of_lt_of_le Nat.two_pos hsize)).symm
  lists :=
    { lt := Nat.lt_of_lt_of_le Nat.two_pos hsize
      le := Nat.zero_le _
      eq := fun i hi => absurd hi (Nat.not_lt_zero i) }

/-- **The registers run in step with the reference queue.** -/
theorem simulates (dataBits : ℕ) (hsize : 2 ≤ size) :
    (fifo dataBits size).Simulates (BoundedQueue.queue size) wordRead BoundedQueue.wordRead
      Holds where
  reset := holds_reset hsize
  step _ _ h c := h.step c
  out _ _ h c := h.wordRead_eq c

/-! ## What a user of the FIFO sees -/

/-- The words in the array, the oldest first. -/
def contents (f : RingFifo dataBits size) : List (BitVec dataBits) :=
  (List.range f.nEntries.toNat).map fun i => f.word (around size f.rdPntr.toNat i)

theorem Holds.contents_eq {f : RingFifo dataBits size} {q : List (BitVec dataBits)}
    (h : f.Holds q) : f.contents = q := by
  refine List.ext_getElem ?_ fun i hi hq => ?_
  · rw [contents, List.length_map, List.length_range, h.count_eq]
  · rw [← h.lists.eq i hq]
    simp [contents]

/-- Head, tail and count fit together, and both pointers are indices of the array. -/
structure Consistent (f : RingFifo dataBits size) : Prop where
  count_le : f.nEntries.toNat ≤ size
  rdPntr_lt : f.rdPntr.toNat < size
  wrPntr_lt : f.wrPntr.toNat < size
  wrPntr_eq : f.wrPntr.toNat = around size f.rdPntr.toNat f.nEntries.toNat
  readyRd_iff : f.readyRd = true ↔ 0 < f.nEntries.toNat
  readyWr_iff : f.readyWr = true ↔ f.nEntries.toNat < size

theorem Holds.consistent {f : RingFifo dataBits size} {q : List (BitVec dataBits)}
    (h : f.Holds q) : f.Consistent where
  count_le := h.count_eq ▸ h.lists.le
  rdPntr_lt := h.lists.lt
  wrPntr_lt := h.wrPntr_lt
  wrPntr_eq := h.count_eq ▸ h.wrPntr_eq
  readyRd_iff := by
    rw [readyRd, isEmpty, Bool.not_eq_true', beq_eq_false_iff_ne, Nat.pos_iff_ne_zero]
  readyWr_iff := by
    have hle := h.lists.le
    rw [readyWr, isFull, Bool.not_eq_true', beq_eq_false_iff_ne]
    have hlen := h.count_eq
    omega

/-- A write into a full FIFO does nothing. -/
theorem step_write_full {f : RingFifo dataBits size} (h : f.isFull = true) (rd : Bool)
    (x : BitVec dataBits) : f.step ⟨rd, true, x⟩ = f.step ⟨rd, false, x⟩ := by
  simp [step, h]

/-- A read from an empty FIFO does nothing, and nothing is read. -/
theorem step_read_empty {f : RingFifo dataBits size} (h : f.isEmpty = true) (wr : Bool)
    (x : BitVec dataBits) : f.step ⟨true, wr, x⟩ = f.step ⟨false, wr, x⟩ := by
  simp [step, h]

/-- **`fifo` is a bounded queue.**  For every size from two on and all inputs, the words read
are those read from the reference queue, and the array holds its words.  In every state on
the way head, tail and count fit together, a write into a full FIFO does nothing, and a read
from an empty one does nothing and finds no word. -/
theorem fifo_refines_queue (hsize : 2 ≤ size) (is : List (FifoCycle (BitVec dataBits))) :
    (fifo dataBits size).emitted wordRead reset is =
        (BoundedQueue.queue size).emitted BoundedQueue.wordRead [] is ∧
      ((fifo dataBits size).run is).contents = (BoundedQueue.queue size).run is ∧
      (fifo dataBits size).Always (fun f => f.Consistent ∧
        (f.isFull = true → ∀ rd x, f.step ⟨rd, true, x⟩ = f.step ⟨rd, false, x⟩) ∧
        (f.isEmpty = true → ∀ wr x, f.step ⟨true, wr, x⟩ = f.step ⟨false, wr, x⟩ ∧
          f.wordRead ⟨true, wr, x⟩ = [])) reset is := by
  have hsim := simulates dataBits hsize
  refine ⟨hsim.emitted_eq hsim.reset is, (hsim.run is).contents_eq, ?_⟩
  have hholds : (fifo dataBits size).Always (fun f => ∃ q, f.Holds q) reset is :=
    Machine.always_of_step (fun f c ⟨q, hq⟩ => ⟨_, hq.step c⟩) ⟨[], hsim.reset⟩ is
  refine hholds.mono fun f ⟨q, hq⟩ => ⟨hq.consistent, ?_, ?_⟩
  · exact fun hfull rd x => step_write_full hfull rd x
  · intro hempty wr x
    refine ⟨step_read_empty hempty wr x, ?_⟩
    rw [wordRead, readyRd, hempty]
    rfl

/-- Three entries, so that the pointers turn back at two: a write that is refused, a read
and a write in one cycle, and more reads than there are words. -/
def threeEntries : List (FifoCycle (BitVec 8)) :=
  [⟨false, true, 1⟩, ⟨false, true, 2⟩, ⟨true, true, 3⟩, ⟨false, true, 4⟩, ⟨true, true, 5⟩,
    ⟨true, true, 6⟩, ⟨true, false, 0⟩, ⟨true, false, 0⟩, ⟨true, false, 0⟩]

theorem fifo_refines_queue_three :
    2 ≤ 3 ∧ (fifo 8 3).emitted wordRead reset threeEntries = [1, 2, 3, 4, 6] ∧
      ((fifo 8 3).run threeEntries).contents = [] ∧
      ((fifo 8 3).run threeEntries).Consistent := by
  obtain ⟨hread, hheld, halways⟩ :=
    fifo_refines_queue (show 2 ≤ 3 by decide) threeEntries
  exact ⟨by decide, hread.trans (by decide), hheld.trans (by decide), halways.last.1⟩

/-! ## A power of two of entries -/

/-- The FIFO with a power of two of entries as a machine. -/
def powerOfTwo (dataBits w : ℕ) :
    Machine (Fifo (BitVec dataBits) w) (FifoCycle (BitVec dataBits)) where
  reset := Fifo.reset 0
  step := fun f c => f.step c.rd c.wr c.dataIn

/-- The word such a FIFO gives out in a cycle. -/
def powerOfTwoRead {w : ℕ} (f : Fifo (BitVec dataBits) w) (c : FifoCycle (BitVec dataBits)) :
    List (BitVec dataBits) :=
  if c.rd && f.readyRd then [f.dataOut] else []

/-- The FIFO with a power of two of entries runs in step with the same reference queue. -/
theorem powerOfTwo_simulates (dataBits w : ℕ) :
    (powerOfTwo dataBits w).Simulates (BoundedQueue.queue (2 ^ w)) powerOfTwoRead
      BoundedQueue.wordRead (fun f q => f.contents = q) where
  reset := Fifo.contents_reset 0
  step := by
    rintro f _ rfl c
    show (f.step c.rd c.wr c.dataIn).contents = BoundedQueue.step (2 ^ w) f.contents c
    have hfull : (c.wr && !f.isFull) = true ↔ c.wr ∧ f.contents.length < 2 ^ w := by
      rw [Bool.and_eq_true, ← f.readyWr_iff, Fifo.readyWr]
    rw [f.contents_step, BoundedQueue.step]
    simp only [hfull]
  out := by
    rintro f _ rfl c
    rw [powerOfTwoRead, BoundedQueue.wordRead]
    cases hr : f.readyRd with
    | true =>
      rw [f.contents_eq_cons hr]
      simp
    | false =>
      have hnil : f.contents = [] := by
        by_contra hne
        rw [f.readyRd_iff.mpr hne] at hr
        exact Bool.false_ne_true hr.symm
      simp [hnil]

/-- With a power of two of entries, the pointers of any size and the pointers that wrap by
themselves give out the same words and hold the same words. -/
theorem fifo_eq_powerOfTwo {w : ℕ} (hw : 2 ≤ 2 ^ w)
    (is : List (FifoCycle (BitVec dataBits))) :
    (fifo dataBits (2 ^ w)).emitted wordRead reset is =
        (powerOfTwo dataBits w).emitted powerOfTwoRead (Fifo.reset 0) is ∧
      ((fifo dataBits (2 ^ w)).run is).contents = ((powerOfTwo dataBits w).run is).contents := by
  have hring := simulates dataBits hw
  have hpow := powerOfTwo_simulates dataBits w
  refine ⟨(hring.emitted_eq hring.reset is).trans (hpow.emitted_eq hpow.reset is).symm, ?_⟩
  rw [(hring.run is).contents_eq, hpow.run is]

end RingFifo
end Synchronous
end RecoNIC
