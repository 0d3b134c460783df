import Mathlib.Algebra.Ring.Nat
import Mathlib.Data.Nat.Bitwise
import Mathlib.Data.List.Basic

/-!
# Cyclic redundancy checks in one step

A reflected CRC takes one bit at a time: the register is shifted, and the polynomial is
added if the bit that leaves and the bit that comes differ.  Hardware takes many bits in
one step.  Each bit of the register after the step is an exclusive or of bits of the
register before it and of bits of the data, and which ones is a table.

An exclusive or of some of the variables `x 0, x 1, …` is a `mask`, and `xorOf` is its
value.  Running the CRC on masks gives the table, so a table is right if it is what
`symbolic` gives, and `ofMasks_eq` says that it then computes the CRC of all data.
-/

namespace RecoNIC
namespace Crc

variable {w : Nat}

/-! ## One bit at a time -/

/-- One bit. -/
def stepBit (poly crc : BitVec w) (b : Bool) : BitVec w :=
  (crc >>> 1) ^^^ (if crc.getLsbD 0 ^^ b then poly else 0#w)

/-- Bit after bit. -/
def run (poly crc : BitVec w) (bs : List Bool) : BitVec w := bs.foldl (stepBit poly) crc

@[simp] theorem run_nil (poly crc : BitVec w) : run poly crc [] = crc := rfl

theorem run_append (poly crc : BitVec w) (bs bs' : List Bool) :
    run poly crc (bs ++ bs') = run poly (run poly crc bs) bs' :=
  List.foldl_append

/-- A bit of the register after one step. -/
theorem getLsbD_stepBit (poly crc : BitVec w) (b : Bool) (i : Nat) :
    (stepBit poly crc b).getLsbD i =
      (crc.getLsbD (i + 1) ^^ (poly.getLsbD i && (crc.getLsbD 0 ^^ b))) := by
  rw [stepBit, BitVec.getLsbD_xor, BitVec.getLsbD_ushiftRight, Nat.add_comm 1 i]
  cases crc.getLsbD 0 ^^ b <;> simp

/-! ## Exclusive or of variables -/

/-- The exclusive or of those of the variables `x 0, …, x (n - 1)` that are in the mask. -/
def xorOf : Nat → Nat → (Nat → Bool) → Bool
  | 0, _, _ => false
  | n + 1, m, x => (m.testBit n && x n) ^^ xorOf n m x

@[simp] theorem xorOf_zero (n : Nat) (x : Nat → Bool) : xorOf n 0 x = false := by
  induction n with
  | zero => rfl
  | succ n ih => rw [xorOf, ih, Nat.zero_testBit, Bool.false_and, Bool.false_xor]

theorem xorOf_xor (n m m' : Nat) (x : Nat → Bool) :
    xorOf n (m ^^^ m') x = (xorOf n m x ^^ xorOf n m' x) := by
  induction n with
  | zero => rfl
  | succ n ih =>
    rw [xorOf, xorOf, xorOf, ih, Nat.testBit_xor]
    cases m.testBit n <;> cases m'.testBit n <;> cases x n <;> simp

/-- The mask of one variable. -/
theorem xorOf_two_pow {n k : Nat} (h : k < n) (x : Nat → Bool) : xorOf n (2 ^ k) x = x k := by
  have hnone : ∀ n, n ≤ k → xorOf n (2 ^ k) x = false := by
    intro n
    induction n with
    | zero => exact fun _ => rfl
    | succ n ih =>
      intro hn
      rw [xorOf, ih (Nat.le_of_succ_le hn), Nat.testBit_two_pow_of_ne (by omega),
        Bool.false_and, Bool.false_xor]
  induction n with
  | zero => exact absurd h (Nat.not_lt_zero k)
  | succ n ih =>
    rw [xorOf]
    by_cases hk : k = n
    · rw [hk, Nat.testBit_two_pow_self, Bool.true_and, ← hk, hnone k (Nat.le_refl k),
        Bool.xor_false]
    · rw [Nat.testBit_two_pow_of_ne hk, Bool.false_and, Bool.false_xor, ih (by omega)]

/-! ## Words by their bits -/

/-- The word with these bits. -/
def ofBits (f : Nat → Bool) : (w : Nat) → BitVec w
  | 0 => .nil
  | w + 1 => (ofBits f w).cons (f w)

theorem getLsbD_ofBits (f : Nat → Bool) (w i : Nat) :
    (ofBits f w).getLsbD i = (decide (i < w) && f i) := by
  induction w with
  | zero => simp
  | succ w ih =>
    rw [ofBits, BitVec.getLsbD_cons, ih]
    by_cases hi : i = w
    · simp [hi]
    · rw [if_neg hi]
      by_cases hlt : i < w
      · simp [hlt, Nat.lt_succ_of_lt hlt]
      · have hlt' : ¬ i < w + 1 := by omega
        simp [hlt, hlt']

/-- The register whose bits are these exclusive ors. -/
def ofMasks (w n : Nat) (masks : List Nat) (x : Nat → Bool) : BitVec w :=
  ofBits (fun i => xorOf n (masks.getD i 0) x) w

/-! ## Running on masks -/

/-- One bit, the variable `k`. -/
def symbolicBit (poly : BitVec w) (masks : List Nat) (k : Nat) : List Nat :=
  List.zipWith (fun m p => if p then m ^^^ (masks.headD 0 ^^^ 2 ^ k) else m) (masks.tail ++ [0])
    ((List.range w).map fun i => poly.getLsbD i)

/-- The bits `0, …, n - 1` come one after the other, and the register holds the variables
from `n` on. -/
def symbolic (poly : BitVec w) (n : Nat) : List Nat :=
  (List.range n).foldl (symbolicBit poly) ((List.range w).map fun i => 2 ^ (n + i))

/-- The variables: the data and the register. -/
def vars {n : Nat} (d : BitVec n) (c : BitVec w) (k : Nat) : Bool :=
  if k < n then d.getLsbD k else c.getLsbD (k - n)

/-- The masks stand for the register. -/
structure Stands (n : Nat) (masks : List Nat) (x : Nat → Bool) (crc : BitVec w) : Prop where
  bit : ∀ i < w, xorOf n (masks.getD i 0) x = crc.getLsbD i
  length : masks.length = w

theorem Stands.ofMasks_eq {n : Nat} {masks : List Nat} {x : Nat → Bool} {crc : BitVec w}
    (h : Stands n masks x crc) : ofMasks w n masks x = crc := by
  refine BitVec.eq_of_getLsbD_eq fun i hi => ?_
  rw [ofMasks, getLsbD_ofBits, h.bit i hi, decide_eq_true hi, Bool.true_and]

/-- The masks go through one bit as the register does. -/
theorem Stands.symbolicBit {n k : Nat} {masks : List Nat} {x : Nat → Bool} {crc : BitVec w}
    (poly : BitVec w) (hw : 0 < w) (h : Stands n masks x crc) (hk : k < n) :
    Stands n (symbolicBit poly masks k) x (stepBit poly crc (x k)) where
  length := by
    have hlen := h.length
    simp [Crc.symbolicBit, hlen]
    omega
  bit := by
    intro i hi
    have hlen := h.length
    have htail : (masks.tail ++ [0])[i]? = some (masks.getD (i + 1) 0) := by
      by_cases hlast : i + 1 < w
      · rw [List.getElem?_append_left (by rw [List.length_tail]; omega), List.getElem?_tail,
          List.getElem?_eq_getElem (by omega), List.getD_eq_getElem _ _ (by omega)]
      · have hi' : i = masks.tail.length := by
          rw [List.length_tail]
          omega
        rw [List.getD_eq_default _ _ (by omega), hi', List.getElem?_concat_length]
    have hnext : xorOf n (masks.getD (i + 1) 0) x = crc.getLsbD (i + 1) := by
      by_cases hlast : i + 1 < w
      · exact h.bit (i + 1) hlast
      · rw [List.getD_eq_default _ _ (by omega), xorOf_zero, BitVec.getLsbD_of_ge _ _ (by omega)]
    have hhead : xorOf n (masks.headD 0) x = crc.getLsbD 0 := by
      rw [← h.bit 0 hw]
      cases masks <;> rfl
    have hget : (Crc.symbolicBit poly masks k).getD i 0 =
        if poly.getLsbD i then masks.getD (i + 1) 0 ^^^ (masks.headD 0 ^^^ 2 ^ k)
        else masks.getD (i + 1) 0 := by
      rw [Crc.symbolicBit, List.getD_eq_getElem?_getD, List.getElem?_zipWith, htail,
        List.getElem?_map, List.getElem?_range hi]
      rfl
    rw [hget, getLsbD_stepBit]
    cases poly.getLsbD i with
    | false => simp only [Bool.false_eq_true, if_false, hnext, Bool.false_and, Bool.xor_false]
    | true => rw [if_pos rfl, xorOf_xor, xorOf_xor, hnext, hhead, xorOf_two_pow hk, Bool.true_and]

/-- **A table is right if it is the symbolic run.**  The masks of the symbolic run compute
the CRC of the data, whatever the data and the register are. -/
theorem ofMasks_symbolic {n : Nat} (hw : 0 < w) (poly : BitVec w) (d : BitVec n) (c : BitVec w) :
    ofMasks w (n + w) (symbolic poly n) (vars d c) =
      run poly c ((List.range n).map fun k => d.getLsbD k) := by
  have hstart : Stands (n + w) ((List.range w).map fun i => 2 ^ (n + i)) (vars d c) c := by
    refine ⟨fun i hi => ?_, by simp⟩
    rw [List.getD_eq_getElem?_getD, List.getElem?_map, List.getElem?_range hi, Option.map_some,
      Option.getD_some, xorOf_two_pow (by omega), vars, if_neg (by omega), Nat.add_sub_cancel_left]
  have hrun : ∀ m ≤ n, Stands (n + w)
      ((List.range m).foldl (Crc.symbolicBit poly) ((List.range w).map fun i => 2 ^ (n + i)))
      (vars d c) (run poly c ((List.range m).map fun k => d.getLsbD k)) := by
    intro m
    induction m with
    | zero => exact fun _ => hstart
    | succ m ih =>
      intro hm
      have hvar : vars d c m = d.getLsbD m := by rw [vars, if_pos (by omega)]
      rw [List.range_succ, List.foldl_append, List.map_append, run_append]
      have hstep := (ih (by omega)).symbolicBit (k := m) poly hw (by omega)
      rw [hvar] at hstep
      exact hstep
  exact (hrun n (Nat.le_refl n)).ofMasks_eq

end Crc
end RecoNIC
