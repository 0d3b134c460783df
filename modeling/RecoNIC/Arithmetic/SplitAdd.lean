import Mathlib.Tactic.Linarith
import Mathlib.Tactic.Ring

/-!
# Adding to a field of an address

An adder that is narrower than the address it works on takes a field out of the middle,
adds to it, and puts it back between the bits above and the bits below.  The result is
the sum iff no carry leaves the field (`toNat_addField_of_lt`); a carry that does is lost
(`toNat_addField_of_le`).
-/

namespace RecoNIC
namespace SplitAdd

variable {h m l : Nat}

/-- Concatenation in numbers. -/
theorem toNat_append {a b : Nat} (x : BitVec a) (y : BitVec b) :
    (x ++ y).toNat = x.toNat * 2 ^ b + y.toNat := by
  rw [BitVec.toNat_append, ← Nat.shiftLeft_add_eq_or_of_lt y.isLt, Nat.shiftLeft_eq]

/-- A word is put together from its halves. -/
theorem append_halves (v : BitVec 64) : v.extractLsb' 32 32 ++ v.setWidth 32 = v := by
  refine BitVec.eq_of_toNat_eq ?_
  have hv := v.isLt
  rw [toNat_append, BitVec.extractLsb'_toNat, BitVec.toNat_setWidth,
    Nat.shiftRight_eq_div_pow]
  omega

/-- The `m` bits above the lowest `l`, with `n` added to them, between the others. -/
def addField (h m l : Nat) (x : BitVec (h + m + l)) (n : BitVec m) : BitVec (h + m + l) :=
  x.extractLsb' (l + m) h ++ (x.extractLsb' l m + n) ++ x.setWidth l

variable (x : BitVec (h + m + l)) (n : BitVec m)

/-- The bits below the field and the field itself. -/
def low : Nat := x.toNat % 2 ^ (l + m)

theorem low_eq : low x = x.toNat / 2 ^ l % 2 ^ m * 2 ^ l + x.toNat % 2 ^ l := by
  rw [low, Nat.pow_add, Nat.mod_mul]
  ring

theorem toNat_eq_add_low : x.toNat = x.toNat / 2 ^ (l + m) * 2 ^ (l + m) + low x := by
  rw [low, Nat.mul_comm, Nat.div_add_mod]

theorem toNat_addField :
    (addField h m l x n).toNat =
      x.toNat / 2 ^ (l + m) * 2 ^ (l + m) +
        ((x.toNat / 2 ^ l % 2 ^ m + n.toNat) % 2 ^ m * 2 ^ l + x.toNat % 2 ^ l) := by
  have hhigh : x.toNat / 2 ^ (l + m) < 2 ^ h := by
    rw [Nat.div_lt_iff_lt_mul (Nat.two_pow_pos _), ← Nat.pow_add]
    exact lt_of_lt_of_eq x.isLt (congrArg _ (by omega))
  rw [addField, toNat_append, toNat_append, BitVec.toNat_add, BitVec.extractLsb'_toNat,
    BitVec.extractLsb'_toNat, BitVec.toNat_setWidth, Nat.shiftRight_eq_div_pow,
    Nat.shiftRight_eq_div_pow, Nat.mod_eq_of_lt hhigh, Nat.pow_add]
  ring

/-- A carry leaves the field iff it leaves the low part of the sum. -/
theorem field_add_lt_iff :
    x.toNat / 2 ^ l % 2 ^ m + n.toNat < 2 ^ m ↔ low x + n.toNat * 2 ^ l < 2 ^ (l + m) := by
  have hrest : x.toNat % 2 ^ l < 2 ^ l := Nat.mod_lt _ (Nat.two_pow_pos l)
  rw [low_eq, Nat.pow_add]
  generalize x.toNat / 2 ^ l % 2 ^ m = field at *
  constructor
  · intro hlt
    have hmul : (field + n.toNat + 1) * 2 ^ l ≤ 2 ^ m * 2 ^ l := Nat.mul_le_mul_right _ hlt
    linarith
  · intro hlt
    by_contra hle
    have hmul : 2 ^ m * 2 ^ l ≤ (field + n.toNat) * 2 ^ l :=
      Nat.mul_le_mul_right _ (Nat.not_lt.mp hle)
    linarith [Nat.zero_le (x.toNat % 2 ^ l)]

/-- **Without a carry the result is the sum.** -/
theorem toNat_addField_of_lt (hlt : low x + n.toNat * 2 ^ l < 2 ^ (l + m)) :
    (addField h m l x n).toNat = x.toNat + n.toNat * 2 ^ l := by
  have hfield := (field_add_lt_iff x n).mpr hlt
  have hx := toNat_eq_add_low x
  rw [low_eq] at hx
  rw [toNat_addField, Nat.mod_eq_of_lt hfield]
  linarith

/-- **A carry is lost.** -/
theorem toNat_addField_of_le (hle : 2 ^ (l + m) ≤ low x + n.toNat * 2 ^ l) :
    (addField h m l x n).toNat + 2 ^ (l + m) = x.toNat + n.toNat * 2 ^ l := by
  have hfield : ¬ x.toNat / 2 ^ l % 2 ^ m + n.toNat < 2 ^ m := by
    rw [field_add_lt_iff]
    exact Nat.not_lt.mpr hle
  have hmod : (x.toNat / 2 ^ l % 2 ^ m + n.toNat) % 2 ^ m + 2 ^ m =
      x.toNat / 2 ^ l % 2 ^ m + n.toNat := by
    have hlt : x.toNat / 2 ^ l % 2 ^ m < 2 ^ m := Nat.mod_lt _ (Nat.two_pow_pos m)
    have hn := n.isLt
    rw [Nat.mod_eq_sub_mod (Nat.not_lt.mp hfield), Nat.mod_eq_of_lt (by omega)]
    omega
  have hx := toNat_eq_add_low x
  rw [low_eq] at hx
  rw [toNat_addField]
  calc
    _ = x.toNat / 2 ^ (l + m) * 2 ^ (l + m) +
          (((x.toNat / 2 ^ l % 2 ^ m + n.toNat) % 2 ^ m + 2 ^ m) * 2 ^ l +
            x.toNat % 2 ^ l) := by
      rw [Nat.pow_add]
      ring
    _ = x.toNat + n.toNat * 2 ^ l := by
      rw [hmod]
      linarith

/-- The adder adds iff no carry leaves the field. -/
theorem toNat_addField_eq_iff :
    (addField h m l x n).toNat = x.toNat + n.toNat * 2 ^ l ↔
      low x + n.toNat * 2 ^ l < 2 ^ (l + m) := by
  constructor
  · intro heq
    by_contra hle
    have hlost := toNat_addField_of_le x n (Nat.not_lt.mp hle)
    have hpos := Nat.two_pow_pos (l + m)
    omega
  · exact toNat_addField_of_lt x n

end SplitAdd
end RecoNIC
