import Mathlib.Algebra.Order.Group.Nat
import Mathlib.Data.List.Count

/-!
# Blocks that tile a range

Addresses are words, and a range may go around their end.  A block is an address and a number
of bytes.  A list of blocks tiles the `n` bytes from an address if the first block begins
there, each one begins where the block before it ends, and together they have `n` bytes.

That is the same as to say that every byte of the range is in one block, and no other byte is
in any (`Tiles.countP_eq`), as long as the range does not go over itself.
-/

namespace RecoNIC
namespace Tiling

variable {w : ℕ}

/-- Where a block begins, and its bytes. -/
abbrev Block (w : ℕ) := BitVec w × ℕ

/-- The byte at the address `x` is in the block. -/
def holds (x : BitVec w) (b : Block w) : Bool := decide ((x - b.1).toNat < b.2)

/-- The blocks tile the `n` bytes from `a`. -/
def Tiles : BitVec w → List (Block w) → ℕ → Prop
  | _, [], n => n = 0
  | a, b :: bs, n => b.1 = a ∧ b.2 ≤ n ∧ Tiles (a + BitVec.ofNat w b.2) bs (n - b.2)

variable {a : BitVec w} {bs : List (Block w)} {n : ℕ}

/-- One more block behind the others. -/
theorem Tiles.concat (h : Tiles a bs n) (m : ℕ) :
    Tiles a (bs ++ [(a + BitVec.ofNat w n, m)]) (n + m) := by
  induction bs generalizing a n with
  | nil =>
    obtain rfl : n = 0 := h
    exact ⟨by simp, by simp, show 0 + m - m = 0 by omega⟩
  | cons b bs ih =>
    obtain ⟨hb, hle, hrest⟩ := h
    refine ⟨hb, by omega, ?_⟩
    have hnext := ih hrest
    have hsum : a + BitVec.ofNat w b.2 + BitVec.ofNat w (n - b.2) = a + BitVec.ofNat w n := by
      rw [BitVec.add_assoc, ← BitVec.ofNat_add, Nat.add_sub_cancel' hle]
    rwa [hsum, ← Nat.sub_add_comm hle] at hnext

/-- The distance from an address that is further on. -/
theorem toNat_sub_add (x : BitVec w) {m : ℕ} (hm : m ≤ 2 ^ w) :
    (x - (a + BitVec.ofNat w m)).toNat =
      if m ≤ (x - a).toNat ∨ m = 2 ^ w then (x - a).toNat - m % 2 ^ w
      else (x - a).toNat + 2 ^ w - m := by
  have hd := (x - a).isLt
  have hsub : x - (a + BitVec.ofNat w m) = (x - a) - BitVec.ofNat w m := by
    grind
  rw [hsub, BitVec.toNat_sub, BitVec.toNat_ofNat]
  split_ifs with hcase
  · rcases Nat.lt_or_eq_of_le hm with hlt | heq
    · have hle : m ≤ (x - a).toNat := by omega
      rw [Nat.mod_eq_of_lt hlt, show 2 ^ w - m + (x - a).toNat = (x - a).toNat - m + 2 ^ w by omega,
        Nat.add_mod_right, Nat.mod_eq_of_lt (by omega)]
    · rw [heq, Nat.mod_self, Nat.sub_zero, Nat.sub_zero, Nat.add_mod_left, Nat.mod_eq_of_lt hd]
  · have hlt : m < 2 ^ w := by omega
    rw [Nat.mod_eq_of_lt hlt, Nat.mod_eq_of_lt (by omega)]
    omega

/-- **Every byte once.**  A byte of the range is in one of the blocks that tile it, and
another byte is in none. -/
theorem Tiles.countP_eq (h : Tiles a bs n) (hn : n ≤ 2 ^ w) (x : BitVec w) :
    bs.countP (holds x) = if (x - a).toNat < n then 1 else 0 := by
  induction bs generalizing a n with
  | nil =>
    obtain rfl : n = 0 := h
    simp
  | cons b bs ih =>
    obtain ⟨hb, hle, hrest⟩ := h
    have hd := (x - a).isLt
    have hdist := toNat_sub_add (a := a) x (hle.trans hn)
    rw [List.countP_cons, ih hrest (by omega), hdist, holds, hb]
    simp only [decide_eq_true_eq]
    rcases Nat.lt_or_eq_of_le (hle.trans hn) with hlt | heq
    · rw [Nat.mod_eq_of_lt hlt]
      split_ifs <;> omega
    · rw [heq, Nat.mod_self]
      split_ifs <;> omega

end Tiling
end RecoNIC
