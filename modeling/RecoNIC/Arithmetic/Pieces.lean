import Mathlib.Algebra.Ring.Nat
import Mathlib.Algebra.BigOperators.Group.List.Basic
import Mathlib.Algebra.Order.Group.Nat

/-!
# Cutting a length into pieces

A length `L` is cut into pieces of at most `m`: as many full pieces as fit, and the
rest as the last one.  A length of zero is one empty piece.  `count` is the number of
pieces and `size` the size of the piece with a given number, `before` what is in front of
it; every piece but the last is full (`size_of_succ_lt`), and the pieces together are the
length (`sum_size`).
-/

namespace RecoNIC
namespace Pieces

variable (m L : Nat)

/-- The number of pieces, `max 1 ⌈L / m⌉`. -/
def count : Nat := max 1 ((L + m - 1) / m)

/-- The size of piece `i`. -/
def size (i : Nat) : Nat := min m (L - m * i)

/-- What is in front of piece `i`. -/
def before (i : Nat) : Nat := min (m * i) L

variable {m L} {i : Nat}

theorem count_pos : 0 < count m L := lt_of_lt_of_le Nat.one_pos (le_max_left _ _)

/-- A piece other than the first exists iff there is something left for it. -/
theorem succ_lt_count_iff (hm : 0 < m) : i + 1 < count m L ↔ m * (i + 1) < L := by
  have hdiv : i + 1 < (L + m - 1) / m ↔ m * (i + 1) < L := by
    rw [Nat.lt_iff_add_one_le, Nat.le_div_iff_mul_le hm, Nat.add_mul, Nat.one_mul,
      Nat.mul_comm m]
    omega
  rw [count, lt_max_iff, hdiv]
  omega

theorem count_eq_one_iff (hm : 0 < m) : count m L = 1 ↔ L ≤ m := by
  have hpos := count_pos (m := m) (L := L)
  have hsucc := succ_lt_count_iff (i := 0) (L := L) hm
  rw [Nat.zero_add, Nat.mul_one] at hsucc
  omega

/-- Every piece but the last is full. -/
theorem size_of_succ_lt (hm : 0 < m) (h : i + 1 < count m L) : size m L i = m := by
  have hlt := (succ_lt_count_iff hm).mp h
  rw [Nat.mul_add, Nat.mul_one] at hlt
  exact min_eq_left (by omega)

/-- The last piece is the rest. -/
theorem size_of_succ_eq (hm : 0 < m) (h : i + 1 = count m L) : size m L i = L - m * i := by
  have hle : ¬ m * (i + 1) < L := by
    rw [← succ_lt_count_iff hm, h]
    exact lt_irrefl _
  rw [Nat.mul_add, Nat.mul_one] at hle
  exact min_eq_right (by omega)

theorem size_le : size m L i ≤ m := min_le_left _ _

theorem before_zero : before m L 0 = 0 := Nat.min_eq_left (Nat.zero_le L)

/-- In front of the next piece there is one piece more. -/
theorem before_succ : before m L (i + 1) = before m L i + size m L i := by
  rw [before, before, size, Nat.mul_add, Nat.mul_one]
  omega

/-- A piece takes what is left, as long as it is not more than a full one. -/
theorem size_eq_min_sub : size m L i = min m (L - before m L i) := by
  rw [before, size]
  omega

theorem before_le : before m L i ≤ L := min_le_right _ _

/-- A piece other than the first exists iff the length goes on behind what is in front of it. -/
theorem succ_lt_count_iff_before (hm : 0 < m) : i + 1 < count m L ↔ before m L (i + 1) < L := by
  rw [succ_lt_count_iff hm, before, min_lt_iff]
  exact ⟨Or.inl, fun h => h.resolve_right (lt_irrefl L)⟩

/-- Behind the last piece there is nothing left. -/
theorem before_of_count_le (hm : 0 < m) (h : count m L ≤ i) : before m L i = L := by
  obtain ⟨k, rfl⟩ := Nat.exists_eq_succ_of_ne_zero (count_pos.trans_le h).ne'
  refine le_antisymm before_le (not_lt.mp ?_)
  rw [← succ_lt_count_iff_before hm]
  exact not_lt.mpr h

/-- The first `k` pieces together. -/
theorem sum_size_range (k : Nat) : ((List.range k).map (size m L)).sum = before m L k := by
  induction k with
  | zero => exact before_zero.symm
  | succ k ih =>
    rw [List.range_succ, List.map_append, List.sum_append, ih, before_succ]
    simp

/-- **The pieces are the length.** -/
theorem sum_size (hm : 0 < m) : ((List.range (count m L)).map (size m L)).sum = L :=
  (sum_size_range _).trans (before_of_count_le hm le_rfl)

end Pieces
end RecoNIC
