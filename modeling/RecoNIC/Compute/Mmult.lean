import RecoNIC.Arithmetic.Sweep
import Mathlib.Algebra.BigOperators.Group.Finset.Basic
import Mathlib.Algebra.BigOperators.Ring.Finset
import Mathlib.Data.BitVec

/-!
# The systolic multiplication

`mmult` copies two arrays of 16 by 16 words, multiplies the parts of them that the sizes
select, copies the result to memory, and then emits the work ID.

The loop over `k` is the outermost.  Each of its rounds sweeps the whole result and adds one
product to each cell, so that after `k` rounds a cell holds a sum of `k` products modulo
`2 ^ 32` (`rounds_apply`); cells outside the selected rows and columns add zeros.  The first
round does not look at the old contents of the result, which is never initialised.

Memory is modelled by words, and `a`, `b` and `c` are addresses of words.  They may overlap:
both inputs have been read when the first result is written.
-/

namespace RecoNIC
namespace Mmult

open Sweep

/-- `MAX_SIZE`. -/
def maxSize : Nat := 16

/-- Memory, by words of 32 bits. -/
abbrev Mem := Nat → BitVec 32

/-- `int [MAX_SIZE][MAX_SIZE]`. -/
abbrev LocalArray := Nat × Nat → BitVec 32

/-- What the kernel does to its surroundings. -/
inductive Effect where
  | store (addr : Nat) (value : BitVec 32)
  | workId (id : BitVec 32)
  deriving DecidableEq

/-- `memcpy(local, p, (MAX_SIZE*MAX_SIZE)*sizeof(int))`.  What an access outside the array
reads is left open: it is `beyond`. -/
def readLocal (beyond : LocalArray) (mem : Mem) (p : Nat) : LocalArray := fun x =>
  if x.1 < maxSize ∧ x.2 < maxSize then mem (p + (x.1 * maxSize + x.2)) else beyond x

/-- The sizes, which are of type `int`. -/
structure Sizes where
  aRow : BitVec 32
  aCol : BitVec 32
  bCol : BitVec 32

section Kernel

variable (sz : Sizes) (localA localB : LocalArray)

/-- `a_val` and `b_val`: zero outside the selected rows and columns. -/
def aVal (i k : Nat) : BitVec 32 :=
  if (i : Int) < sz.aRow.toInt ∧ (k : Int) < sz.aCol.toInt then localA (i, k) else 0

def bVal (k j : Nat) : BitVec 32 :=
  let bRow := sz.aCol
  if (k : Int) < bRow.toInt ∧ (j : Int) < sz.bCol.toInt then localB (k, j) else 0

/-- The body of the three loops. -/
def result (k : Nat) (x : Nat × Nat) (old : BitVec 32) : BitVec 32 :=
  let last := if k = 0 then 0 else old
  last + aVal sz localA x.1 k * bVal sz localB k x.2

/-- `systolic3`. -/
def systolic3 (k i : Nat) (localC : LocalArray) : LocalArray :=
  (List.range maxSize).foldl (fun localC j =>
    Function.update localC (i, j) (result sz localA localB k (i, j) (localC (i, j)))) localC

/-- `systolic2`. -/
def systolic2 (k : Nat) (localC : LocalArray) : LocalArray :=
  (List.range maxSize).foldl (fun localC i => systolic3 sz localA localB k i localC) localC

/-- `systolic1` after `n` rounds. -/
def systolic1 (n : Nat) (localC : LocalArray) : LocalArray :=
  (List.range n).foldl (fun localC k => systolic2 sz localA localB k localC) localC

end Kernel

/-- `mmult`.  `localC` is what that array holds before the first round. -/
def mmult (beyond localC : LocalArray) (mem : Mem) (a b c : Nat) (sz : Sizes)
    (workId : BitVec 32) : List Effect :=
  let localA := readLocal beyond mem a
  let localB := readLocal beyond mem b
  let localC := systolic1 sz localA localB sz.aCol.toInt.toNat localC
  (List.range (maxSize * maxSize)).map
      (fun n => .store (c + n) (localC (n / maxSize, n % maxSize))) ++
    [.workId workId]

/-- Memory after an effect. -/
def Effect.apply (mem : Mem) : Effect → Mem
  | .store addr value => Function.update mem addr value
  | .workId _ => mem

/-- Memory after the effects. -/
def after (mem : Mem) (effects : List Effect) : Mem := effects.foldl Effect.apply mem

/-- The work ID that an effect emits. -/
def Effect.id? : Effect → Option (BitVec 32)
  | .store _ _ => none
  | .workId id => some id

/-! ## The loops -/

section Loops

variable (sz : Sizes) (localA localB : LocalArray)

theorem systolic2_eq_sweep (k : Nat) (localC : LocalArray) :
    systolic2 sz localA localB k localC =
      sweep (result sz localA localB k) (List.range maxSize ×ˢ List.range maxSize) localC :=
  foldl_foldl_eq_sweep ..

/-- One round adds a product to each cell, and the first one forgets what was there. -/
theorem systolic2_apply (k : Nat) (localC : LocalArray) {i j : Nat} (hi : i < maxSize)
    (hj : j < maxSize) :
    systolic2 sz localA localB k localC (i, j) =
      result sz localA localB k (i, j) (localC (i, j)) := by
  rw [systolic2_eq_sweep]
  refine sweep_of_mem _ (List.nodup_range.product List.nodup_range) ?_ _
  exact List.pair_mem_product.mpr ⟨List.mem_range.mpr hi, List.mem_range.mpr hj⟩

theorem systolic1_succ (n : Nat) (localC : LocalArray) :
    systolic1 sz localA localB (n + 1) localC =
      systolic2 sz localA localB n (systolic1 sz localA localB n localC) := by
  rw [systolic1, List.range_succ, List.foldl_append]
  rfl

/-- **The rounds.**  After `n + 1` of them a cell holds the sum of `n + 1` products, whatever
it held before. -/
theorem rounds_apply (n : Nat) (localC : LocalArray) {i j : Nat} (hi : i < maxSize)
    (hj : j < maxSize) :
    systolic1 sz localA localB (n + 1) localC (i, j) =
      ∑ k ∈ Finset.range (n + 1), aVal sz localA i k * bVal sz localB k j := by
  induction n with
  | zero =>
    rw [systolic1_succ, systolic2_apply sz localA localB 0 _ hi hj, Finset.sum_range_one, result,
      if_pos rfl]
    exact BitVec.zero_add _
  | succ n ih =>
    rw [systolic1_succ, systolic2_apply sz localA localB (n + 1) _ hi hj, ih,
      Finset.sum_range_succ _ (n + 1), result, if_neg n.succ_ne_zero]

/-- A product of selected cells is the product of the cells, and another one is zero. -/
theorem aVal_mul_bVal {i j k : Nat} (hk : (k : Int) < sz.aCol.toInt) :
    aVal sz localA i k * bVal sz localB k j =
      if (i : Int) < sz.aRow.toInt ∧ (j : Int) < sz.bCol.toInt then
        localA (i, k) * localB (k, j) else 0 := by
  by_cases hi : (i : Int) < sz.aRow.toInt
  · by_cases hj : (j : Int) < sz.bCol.toInt
    · rw [aVal, bVal, if_pos ⟨hi, hk⟩, if_pos ⟨hk, hj⟩, if_pos ⟨hi, hj⟩]
    · rw [bVal, if_neg (fun h => hj h.2), if_neg (fun h => hj h.2)]
      exact BitVec.mul_zero
  · rw [aVal, if_neg (fun h => hi h.1), if_neg (fun h => hi h.1)]
    exact BitVec.zero_mul

end Loops

/-! ## The result in memory -/

section Memory

variable (mem : Mem) (p : Nat)

theorem after_append (es es' : List Effect) :
    after mem (es ++ es') = after (after mem es) es' :=
  List.foldl_append ..

/-- The work ID does not touch memory. -/
theorem after_workId (es : List Effect) (id : BitVec 32) :
    after mem (es ++ [.workId id]) = after mem es := by
  rw [after_append]
  rfl

/-- The stores of `writeC` are a sweep of memory. -/
theorem after_stores (n : Nat) (v : Nat → BitVec 32) :
    after mem ((List.range n).map fun k => .store (p + k) (v k)) =
      sweep (fun x _ => v (x - p)) (List.range' p n) mem := by
  rw [after, sweep, List.range'_eq_map_range, List.foldl_map, List.foldl_map]
  simp only [Effect.apply, Nat.add_sub_cancel_left]

theorem after_stores_apply {n k : Nat} (hk : k < n) (v : Nat → BitVec 32) :
    after mem ((List.range n).map fun k => .store (p + k) (v k)) (p + k) = v k := by
  rw [after_stores, sweep_of_mem _ List.nodup_range', Nat.add_sub_cancel_left]
  exact List.mem_range'_1.mpr ⟨Nat.le_add_right p k, Nat.add_lt_add_left hk p⟩

theorem after_stores_outside {n x : Nat} (hx : x < p ∨ p + n ≤ x) (v : Nat → BitVec 32) :
    after mem ((List.range n).map fun k => .store (p + k) (v k)) x = mem x := by
  rw [after_stores, sweep_of_not_mem]
  intro hmem
  have hrange := List.mem_range'_1.mp hmem
  omega

end Memory

/-! ## Matrix multiplication -/

/-- The cell of the product, over the integers. -/
def productCell (mem : Mem) (a b : Nat) (sz : Sizes) (i j : Nat) : Int :=
  ∑ k ∈ Finset.range sz.aCol.toInt.toNat,
    (mem (a + (i * maxSize + k))).toInt * (mem (b + (k * maxSize + j))).toInt

/-- The effects leave the product in memory, zeros around it, and nothing else; the work ID
comes once, when the result is there. -/
structure Multiplied (mem : Mem) (a b c : Nat) (sz : Sizes) (workId : BitVec 32)
    (effects : List Effect) : Prop where
  cells : ∀ i < maxSize, ∀ j < maxSize, after mem effects (c + (i * maxSize + j)) =
    if (i : Int) < sz.aRow.toInt ∧ (j : Int) < sz.bCol.toInt then
      BitVec.ofInt 32 (productCell mem a b sz i j) else 0
  outside : ∀ x, x < c ∨ c + maxSize * maxSize ≤ x → after mem effects x = mem x
  emitted : ∃ stores, effects = stores ++ [.workId workId] ∧
    (∀ id, .workId id ∉ stores) ∧ after mem stores = after mem effects

section Product

variable {sz : Sizes} {beyond localC : LocalArray} {mem : Mem}

theorem readLocal_apply (p : Nat) {i j : Nat} (hi : i < maxSize) (hj : j < maxSize) :
    readLocal beyond mem p (i, j) = mem (p + (i * maxSize + j)) :=
  if_pos ⟨hi, hj⟩

/-- Sums of products may be taken before the reduction modulo `2 ^ w` or after it. -/
theorem ofInt_sum_mul {w : Nat} (s : Finset Nat) (f g : Nat → Int) :
    BitVec.ofInt w (∑ k ∈ s, f k * g k) = ∑ k ∈ s, BitVec.ofInt w (f k) * BitVec.ofInt w (g k) := by
  have hcast : ((∑ k ∈ s, f k * g k : Int) : BitVec w) =
      ∑ k ∈ s, (f k : BitVec w) * (g k : BitVec w) := by
    rw [Int.cast_sum]
    exact Finset.sum_congr rfl fun k _ => Int.cast_mul (f k) (g k)
  exact hcast

/-- The rounds compute the product modulo `2 ^ 32`. -/
theorem rounds_eq_product (a b : Nat) (hlow : 1 ≤ sz.aCol.toInt) (hhigh : sz.aCol.toInt ≤ 16)
    {i j : Nat} (hi : i < maxSize) (hj : j < maxSize) :
    systolic1 sz (readLocal beyond mem a) (readLocal beyond mem b) sz.aCol.toInt.toNat localC
        (i, j) =
      if (i : Int) < sz.aRow.toInt ∧ (j : Int) < sz.bCol.toInt then
        BitVec.ofInt 32 (productCell mem a b sz i j) else 0 := by
  obtain ⟨n, hn⟩ : ∃ n, sz.aCol.toInt.toNat = n + 1 :=
    ⟨sz.aCol.toInt.toNat - 1, by omega⟩
  have hterm : ∀ k ∈ Finset.range (n + 1),
      aVal sz (readLocal beyond mem a) i k * bVal sz (readLocal beyond mem b) k j =
        if (i : Int) < sz.aRow.toInt ∧ (j : Int) < sz.bCol.toInt then
          mem (a + (i * maxSize + k)) * mem (b + (k * maxSize + j)) else 0 := by
    intro k hk
    have hround : (k : Int) < sz.aCol.toInt := by
      have := Finset.mem_range.mp hk
      omega
    have hinside : k < maxSize := by
      rw [maxSize]
      omega
    rw [aVal_mul_bVal _ _ _ hround, readLocal_apply a hi hinside, readLocal_apply b hinside hj]
  rw [hn, rounds_apply _ _ _ n _ hi hj, Finset.sum_congr rfl hterm]
  split_ifs with hsel
  · rw [productCell, hn, ofInt_sum_mul]
    refine Finset.sum_congr rfl fun k _ => ?_
    rw [BitVec.ofInt_toInt, BitVec.ofInt_toInt]
  · exact Finset.sum_const_zero

/-- **The kernel multiplies matrices.**  For each content of memory, each number of rows and
columns and each inner size from 1 to 16. -/
theorem multiplied_mmult (beyond localC : LocalArray) (mem : Mem) (a b c : Nat) (sz : Sizes)
    (workId : BitVec 32) (hlow : 1 ≤ sz.aCol.toInt) (hhigh : sz.aCol.toInt ≤ 16) :
    Multiplied mem a b c sz workId (mmult beyond localC mem a b c sz workId) := by
  refine ⟨?_, ?_, ⟨_, rfl, ?_, ?_⟩⟩
  · intro i hi j hj
    rw [maxSize] at hi hj
    have hcell : i * maxSize + j < maxSize * maxSize := by
      rw [maxSize]
      omega
    rw [mmult, after_workId, after_stores_apply mem c hcell]
    have hrow : (i * maxSize + j) / maxSize = i := by
      rw [maxSize]
      omega
    have hcol : (i * maxSize + j) % maxSize = j := by
      rw [maxSize]
      omega
    rw [hrow, hcol]
    exact rounds_eq_product a b hlow hhigh hi hj
  · intro x hx
    rw [mmult, after_workId]
    exact after_stores_outside mem c hx _
  · intro id hmem
    obtain ⟨n, -, heq⟩ := List.mem_map.mp hmem
    cases heq
  · rw [mmult, after_workId]

end Product

/-- The sizes of the test bench, in a memory of small numbers. -/
theorem multiplied_mmult_full :
    Multiplied (fun n => BitVec.ofNat 32 (n % 10)) 0 256 512 ⟨16, 16, 16⟩ 0xdd
      (mmult (fun _ => 0) (fun _ => 1) (fun n => BitVec.ofNat 32 (n % 10)) 0 256 512
        ⟨16, 16, 16⟩ 0xdd) :=
  multiplied_mmult _ _ _ 0 256 512 ⟨16, 16, 16⟩ 0xdd (by decide) (by decide)

end Mmult
end RecoNIC
