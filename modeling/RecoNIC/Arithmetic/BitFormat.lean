import Mathlib.Algebra.Ring.Nat
import Mathlib.Data.Nat.Bitwise
import Mathlib.Data.List.Basic

/-!
# Formats of bit strings

A header on the wire is a string of bits, its fields one after the other and the most
significant bit first.  A `Format` reads a value from so many bits and writes it, and
carries the law that writing gives back what was read.  The formats of the fields compose
to the format of the header, and the law with them.

Bytes are eight bits each, and cutting a string of bits into bytes undoes spelling the
bytes out.
-/

namespace RecoNIC
namespace BitFormat

/-! ## Numbers -/

/-- The number that the bits spell. -/
def value : List Bool → Nat
  | [] => 0
  | b :: bs => 2 ^ bs.length * b.toNat + value bs

/-- The lower `w` bits of a number. -/
def natBits : Nat → Nat → List Bool
  | 0, _ => []
  | w + 1, n => n.testBit w :: natBits w n

@[simp] theorem length_natBits (w n : Nat) : (natBits w n).length = w := by
  induction w with
  | zero => rfl
  | succ w ih => rw [natBits, List.length_cons, ih]

theorem value_lt (bs : List Bool) : value bs < 2 ^ bs.length := by
  induction bs with
  | nil => exact Nat.one_pos
  | cons b bs ih =>
    rw [value, List.length_cons, Nat.pow_succ]
    cases b <;> simp <;> omega

/-- The lower bits do not see the higher ones. -/
theorem natBits_mod (w n : Nat) {v : Nat} (h : w ≤ v) : natBits w (n % 2 ^ v) = natBits w n := by
  induction w with
  | zero => rfl
  | succ w ih =>
    rw [natBits, natBits, ih (Nat.le_of_succ_le h), Nat.testBit_mod_two_pow,
      decide_eq_true (Nat.lt_of_succ_le h), Bool.true_and]

theorem natBits_value (bs : List Bool) : natBits bs.length (value bs) = bs := by
  induction bs with
  | nil => rfl
  | cons b bs ih =>
    have hlt := value_lt bs
    have hhead : (2 ^ bs.length * b.toNat + value bs).testBit bs.length = b := by
      rw [Nat.testBit_two_pow_mul_add _ hlt, if_neg (Nat.lt_irrefl _), Nat.sub_self]
      cases b <;> rfl
    have htail : natBits bs.length (2 ^ bs.length * b.toNat + value bs) = bs := by
      rw [← natBits_mod _ _ (Nat.le_refl _), Nat.mul_add_mod, Nat.mod_eq_of_lt hlt, ih]
    rw [value, List.length_cons, natBits, hhead, htail]

theorem value_natBits (w n : Nat) : value (natBits w n) = n % 2 ^ w := by
  induction w with
  | zero => rw [natBits, value, Nat.pow_zero, Nat.mod_one]
  | succ w ih =>
    rw [natBits, value, length_natBits, ih, Nat.pow_succ, Nat.mod_mul, Nat.toNat_testBit,
      Nat.add_comm]

/-! ## Formats -/

/-- A way to read a value from a string of bits of a fixed length, and to write it. -/
structure Format (α : Type) where
  size : Nat
  /-- Reads a string of `size` bits. -/
  read : List Bool → α
  write : α → List Bool
  write_read : ∀ bs, bs.length = size → write (read bs) = bs

namespace Format

variable {α β : Type}

/-- A field of `w` bits. -/
def bit (w : Nat) : Format (BitVec w) where
  size := w
  read := fun bs => BitVec.ofNat w (value bs)
  write := fun x => natBits w x.toNat
  write_read := fun bs h => by
    rw [BitVec.toNat_ofNat, natBits_mod _ _ (Nat.le_refl _), ← h, natBits_value]

/-- One field after the other. -/
def seq (f : Format α) (g : Format β) : Format (α × β) where
  size := f.size + g.size
  read := fun bs => (f.read (bs.take f.size), g.read (bs.drop f.size))
  write := fun x => f.write x.1 ++ g.write x.2
  write_read := fun bs h => by
    rw [f.write_read _ (by rw [List.length_take, h]; omega),
      g.write_read _ (by rw [List.length_drop, h]; omega), List.take_append_drop]

/-- The fields are those of a structure. -/
def map (f : Format α) (mk : α → β) (fields : β → α) (h : ∀ x, fields (mk x) = x) : Format β where
  size := f.size
  read := fun bs => mk (f.read bs)
  write := fun y => f.write (fields y)
  write_read := fun bs hbs => by rw [h, f.write_read bs hbs]

end Format

/-! ## Bytes -/

/-- The bits of the bytes. -/
def bytesBits (bytes : List (BitVec 8)) : List Bool := bytes.flatMap (Format.bit 8).write

/-- The bytes that the bits spell. -/
def bitsBytes : List Bool → List (BitVec 8)
  | b₇ :: b₆ :: b₅ :: b₄ :: b₃ :: b₂ :: b₁ :: b₀ :: bs =>
    (Format.bit 8).read [b₇, b₆, b₅, b₄, b₃, b₂, b₁, b₀] :: bitsBytes bs
  | _ => []

theorem bitsBytes_bytesBits (bytes : List (BitVec 8)) : bitsBytes (bytesBits bytes) = bytes := by
  induction bytes with
  | nil => rfl
  | cons x xs ih =>
    have hx : (Format.bit 8).read ((Format.bit 8).write x) = x := by
      change BitVec.ofNat 8 (value (natBits 8 x.toNat)) = x
      rw [value_natBits, Nat.mod_eq_of_lt x.isLt, BitVec.ofNat_toNat, BitVec.setWidth_eq]
    have hcons : bitsBytes (bytesBits (x :: xs)) =
        (Format.bit 8).read ((Format.bit 8).write x) :: bitsBytes (bytesBits xs) := rfl
    rw [hcons, hx, ih]

end BitFormat
end RecoNIC
