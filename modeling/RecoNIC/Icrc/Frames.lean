import RecoNIC.Icrc.Pipeline

/-!
# What a packet becomes

The words that a packet becomes, and the CRC that goes into them, bit after bit.  A context
is what the words so far leave for the next one: the CRC, and whether a packet begins.
The pipeline is compared with this in every state, so `frames` is defined on any list of
words and composes: after the last word of a packet the context is the one at the start.
-/

namespace RecoNIC
namespace Icrc

/-! ## `keep` -/

/-- How many times 32 bits a word has. -/
def width (keep : BitVec 64) : Nat := (State.lanesOf keep).getD 16

theorem lanesOf_ones : ∀ n ∈ List.range' 1 15, State.lanesOf (ones n) = some n := by
  decide +kernel

theorem lanesOf_ones_full : State.lanesOf (ones 16) = none := by
  decide +kernel

theorem keepStage_ones : ∀ n ≤ 16, ∀ k < 16,
    (keepStage k (ones n) == 0xf#4) = decide (k < n) := by
  decide +kernel

theorem getLsbD_ones : ∀ n ≤ 16, (ones n).getLsbD 63 = decide (n = 16) := by
  decide +kernel

theorem ones_eq_iff : ∀ n ≤ 16, ∀ m ≤ 16, (ones n = ones m ↔ n = m) := by
  decide +kernel

/-- A word of a packet: its bytes are contiguous and a multiple of four, and only the last
word is not full. -/
structure Formed (b : Word) : Prop where
  keep : ∃ n, 1 ≤ n ∧ n ≤ 16 ∧ b.keep = ones n
  full : b.last = false → b.keep = ones 16

instance (b : Word) : Decidable (Formed b) :=
  decidable_of_iff
    ((∃ n ∈ List.range' 1 16, b.keep = ones n) ∧ (b.last = false → b.keep = ones 16))
    ⟨fun ⟨⟨n, hn, hkeep⟩, hfull⟩ =>
        ⟨⟨n, by simp at hn; omega, by simp at hn; omega, hkeep⟩, hfull⟩,
      fun h => ⟨h.keep.imp fun n hn => ⟨by simp; omega, hn.2.2⟩, h.full⟩⟩

theorem width_ones {n : Nat} (h1 : 1 ≤ n) (h16 : n ≤ 16) : width (ones n) = n := by
  rcases Nat.lt_or_eq_of_le h16 with hlt | rfl
  · rw [width, lanesOf_ones n (by simp; omega), Option.getD_some]
  · rw [width, lanesOf_ones_full, Option.getD_none]

/-! ## Words -/

/-- What the words so far leave for the next one. -/
structure Context where
  crc : BitVec 32
  first : Bool

/-- At the start of a packet. -/
def Context.start : Context := ⟨crcSeed, true⟩

/-- What the last word of a packet becomes. -/
def lastWords (b : Word) (crc : BitVec 32) : List Word :=
  match State.lanesOf b.keep with
  | some n => [⟨State.insertCrc n b.data crc, ones (n + 1), true⟩]
  | none => [⟨b.data, b.keep, false⟩, ⟨crc.setWidth 512, 0xf#64, true⟩]

namespace Context

variable (x : Context) (b : Word)

/-- The data for the CRC. -/
def masked : BitVec 512 := if x.first then b.data ||| bitmask else b.data

/-- The CRC behind the word. -/
def crcAfter : BitVec 32 :=
  Crc.run polynomial x.crc ((dataBits (x.masked b)).take (32 * width b.keep))

/-- What the word becomes. -/
def words : List Word := if b.last then lastWords b (~~~x.crcAfter b) else [b]

/-- What it leaves for the next word. -/
def next : Context := if b.last then start else ⟨x.crcAfter b, false⟩

/-- What a list of words leaves. -/
def after (bs : List Word) : Context := bs.foldl next x

theorem after_append (bs bs' : List Word) : x.after (bs ++ bs') = (x.after bs).after bs' :=
  List.foldl_append

end Context

/-- What a list of words becomes. -/
def frames : Context → List Word → List Word
  | _, [] => []
  | x, b :: bs => x.words b ++ frames (x.next b) bs

theorem frames_append (x : Context) (bs bs' : List Word) :
    frames x (bs ++ bs') = frames x bs ++ frames (x.after bs) bs' := by
  induction bs generalizing x with
  | nil => rfl
  | cons b bs ih =>
    rw [List.cons_append, frames, frames, ih, List.append_assoc]
    rfl

/-! ## The CRC of a word -/

@[simp] theorem length_dataBits {n : Nat} (d : BitVec n) : (dataBits d).length = n := by
  simp [dataBits]

/-- The first `m` bits. -/
theorem take_dataBits {n : Nat} (d : BitVec n) {m : Nat} (h : m ≤ n) :
    (dataBits d).take m = (List.range m).map fun k => d.getLsbD k := by
  rw [dataBits, ← List.map_take, List.take_range, Nat.min_eq_left h]

/-- The bits of a lane. -/
theorem dataBits_lane (d : BitVec 512) (n : Nat) :
    dataBits (lane n d) = (List.range 32).map fun k => d.getLsbD (32 * n + k) := by
  refine List.map_congr_left fun k hk => ?_
  have hlt := List.mem_range.mp hk
  rw [lane, BitVec.getLsbD_setWidth, BitVec.getLsbD_ushiftRight, decide_eq_true hlt,
    Bool.true_and]

/-- One lane more. -/
theorem take_dataBits_lane (d : BitVec 512) {n : Nat} (h : n < 16) :
    (dataBits d).take (32 * (n + 1)) = (dataBits d).take (32 * n) ++ dataBits (lane n d) := by
  rw [take_dataBits d (by omega), take_dataBits d (by omega), dataBits_lane, Nat.mul_succ,
    List.range_add, List.map_append, List.map_map]
  rfl

theorem run_lane (c : BitVec 32) (d : BitVec 512) {n : Nat} (h : n < 16) :
    nextCrc crc32Rows (lane n d) (Crc.run polynomial c ((dataBits d).take (32 * n))) =
      Crc.run polynomial c ((dataBits d).take (32 * (n + 1))) := by
  rw [nextCrc_crc32Rows, ← Crc.run_append, take_dataBits_lane d h]

/-- The 512-bit path computes the CRC of a full word. -/
theorem run_full (c : BitVec 32) (d : BitVec 512) :
    nextCrc crc512Rows d c = Crc.run polynomial c ((dataBits d).take (32 * 16)) := by
  rw [nextCrc_crc512Rows, List.take_of_length_le (by simp)]

/-- The 320-bit path computes the CRC of 40 bytes. -/
theorem run_header (c : BitVec 32) (d : BitVec 512) :
    nextCrc crc320Rows (d.setWidth 320) c =
      Crc.run polynomial c ((dataBits d).take (32 * 10)) := by
  have hbits : dataBits (d.setWidth 320) = (List.range (32 * 10)).map fun k => d.getLsbD k := by
    refine List.map_congr_left fun k hk => ?_
    rw [BitVec.getLsbD_setWidth, decide_eq_true (List.mem_range.mp hk), Bool.true_and]
  rw [nextCrc_crc320Rows, take_dataBits d (by decide), hbits]

end Icrc
end RecoNIC
