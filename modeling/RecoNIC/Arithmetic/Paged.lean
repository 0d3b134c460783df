import Mathlib.Algebra.Order.Group.Nat
import Mathlib.Tactic.Linarith

/-!
# Ranges on scattered pages

A range of bytes is laid out on pages of `P` bytes each, page `k` beginning at `page k`.
The bytes of a page lie one behind the other, but the pages may lie anywhere.

A part of the range lies in one piece iff each page in it begins where the page before it
ends (`consecutive_iff`).
-/

namespace RecoNIC
namespace Paged

variable {P : ℕ} {page : ℕ → ℕ}

/-- Where byte `o` of the range is. -/
def addr (P : ℕ) (page : ℕ → ℕ) (o : ℕ) : ℕ := page (o / P) + o % P

/-- The last byte of page `k`. -/
theorem addr_last (hP : 0 < P) (k : ℕ) : addr P page ((k + 1) * P - 1) = page k + (P - 1) := by
  have hlast : (k + 1) * P - 1 = P * k + (P - 1) := by
    rw [Nat.add_mul, Nat.one_mul, Nat.mul_comm k P]
    omega
  rw [addr, hlast, Nat.mul_add_div hP, Nat.mul_add_mod, Nat.div_eq_of_lt (by omega),
    Nat.mod_eq_of_lt (by omega), Nat.add_zero]

/-- The first byte of page `k`. -/
theorem addr_first (hP : 0 < P) (k : ℕ) : addr P page (k * P) = page k := by
  rw [addr, Nat.mul_div_cancel _ hP, Nat.mul_mod_left, Nat.add_zero]

/-- The next byte of the same page. -/
theorem addr_succ {o : ℕ} (hP : 0 < P) (h : (o + 1) % P ≠ 0) :
    addr P page (o + 1) = addr P page o + 1 := by
  have hdiv := Nat.div_add_mod o P
  have hlt : o % P + 1 < P := by
    have hmod := Nat.mod_lt o hP
    by_contra hge
    refine h ?_
    have hsum : o + 1 = P * (o / P + 1) := by
      rw [Nat.mul_add, Nat.mul_one]
      omega
    rw [hsum, Nat.mul_mod_right]
  have hnext : o + 1 = P * (o / P) + (o % P + 1) := by omega
  have hquot : (o + 1) / P = o / P := by
    rw [hnext, Nat.mul_add_div hP, Nat.div_eq_of_lt hlt, Nat.add_zero]
  have hrem : (o + 1) % P = o % P + 1 := by
    rw [hnext, Nat.mul_add_mod, Nat.mod_eq_of_lt hlt]
  rw [addr, addr, hquot, hrem, Nat.add_assoc]

/-- **A part in one piece.**  The `n` bytes from `o` lie one behind the other iff each page that
begins behind the first of them begins where the page before it ends. -/
theorem consecutive_iff (hP : 0 < P) (o n : ℕ) :
    (∀ i < n, addr P page (o + i) = addr P page o + i) ↔
      ∀ k, o < (k + 1) * P → (k + 1) * P < o + n → page (k + 1) = page k + P := by
  constructor
  · intro h k hfirst hlast
    have hend := h ((k + 1) * P - 1 - o) (by omega)
    have hstart := h ((k + 1) * P - o) (by omega)
    rw [Nat.add_sub_cancel' (by omega), addr_last hP] at hend
    rw [Nat.add_sub_cancel' (by omega), addr_first hP] at hstart
    omega
  · intro h i hi
    induction i with
    | zero => rfl
    | succ i ih =>
      have hprev := ih (by omega)
      by_cases hnew : (o + i + 1) % P = 0
      · -- the byte is the first one of a page
        obtain ⟨q, hq⟩ := Nat.dvd_of_mod_eq_zero hnew
        obtain ⟨k, rfl⟩ : ∃ k, q = k + 1 := by
          refine Nat.exists_eq_add_one.mpr (Nat.pos_of_ne_zero ?_)
          rintro rfl
          omega
        rw [Nat.mul_comm] at hq
        have hpage := h k (by omega) (by omega)
        have hlast : o + i = (k + 1) * P - 1 := by omega
        rw [hlast, addr_last hP] at hprev
        rw [← Nat.add_assoc, hq, addr_first hP]
        omega
      · rw [← Nat.add_assoc, addr_succ hP hnew, hprev, Nat.add_assoc]

end Paged
end RecoNIC
