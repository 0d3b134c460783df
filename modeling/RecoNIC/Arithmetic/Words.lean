import Mathlib.Tactic.Ring

/-!
# Words in memory order

A record that is a list of words, the first word lowest, as one number and as one bit
vector.  A slice that begins where a word begins reads the number that the words from
there on make, cut to the length of the slice (`toNat_extractLsb'_ofWords`).
-/

namespace RecoNIC
namespace Words

variable {w : Nat}

/-- The number that the words make. -/
def toNat : List (BitVec w) → Nat
  | [] => 0
  | v :: vs => v.toNat + 2 ^ w * toNat vs

@[simp] theorem toNat_nil : toNat ([] : List (BitVec w)) = 0 := rfl

@[simp] theorem toNat_cons (v : BitVec w) (vs : List (BitVec w)) :
    toNat (v :: vs) = v.toNat + 2 ^ w * toNat vs := rfl

theorem toNat_lt (vs : List (BitVec w)) : toNat vs < 2 ^ (w * vs.length) := by
  induction vs with
  | nil => simp
  | cons v vs ih =>
    have hv := v.isLt
    have hmul : 2 ^ w * (toNat vs + 1) ≤ 2 ^ w * 2 ^ (w * vs.length) :=
      Nat.mul_le_mul_left _ ih
    rw [toNat_cons, List.length_cons, Nat.mul_add, Nat.mul_one, Nat.add_comm (w * _),
      Nat.pow_add]
    rw [Nat.mul_add, Nat.mul_one] at hmul
    omega

/-- Dividing drops words. -/
theorem toNat_div (vs : List (BitVec w)) (k : Nat) :
    toNat vs / 2 ^ (w * k) = toNat (vs.drop k) := by
  induction k generalizing vs with
  | zero => simp
  | succ k ih =>
    cases vs with
    | nil => simp
    | cons v vs =>
      rw [Nat.mul_add, Nat.mul_one, Nat.add_comm, Nat.pow_add, ← Nat.div_div_eq_div_mul,
        toNat_cons, Nat.add_mul_div_left _ _ (Nat.two_pow_pos w), Nat.div_eq_of_lt v.isLt,
        Nat.zero_add, ih, List.drop_succ_cons]

/-- The words as a bit vector of length `n`. -/
def ofWords (n : Nat) (vs : List (BitVec w)) : BitVec n := BitVec.ofNat n (toNat vs)

/-- **A slice that begins with word `k`.** -/
theorem toNat_extractLsb'_ofWords {n : Nat} (vs : List (BitVec w)) (hn : w * vs.length ≤ n)
    (k len : Nat) :
    ((ofWords n vs).extractLsb' (w * k) len).toNat = toNat (vs.drop k) % 2 ^ len := by
  have hlt : toNat vs < 2 ^ n := lt_of_lt_of_le (toNat_lt vs) (Nat.pow_le_pow_right (by omega) hn)
  rw [BitVec.extractLsb'_toNat, ofWords, BitVec.toNat_ofNat, Nat.mod_eq_of_lt hlt,
    Nat.shiftRight_eq_div_pow, toNat_div]

end Words
end RecoNIC
