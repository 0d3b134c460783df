import Mathlib.Data.List.Basic
import Mathlib.Tactic.IntervalCases

/-!
# Stores through byte lanes

A memory is a function from addresses to bytes.  `storeBytes` is what a store is meant to
do: it puts a list of bytes at consecutive addresses and leaves the rest alone.
`storeLanes` is what a bus of 64 byte lanes does: the address selects a block of 64 bytes
only, and lane `n` of the data goes to byte `n` of the block if its strobe is set.

`storeLanes_low` says what a store through the lowest four lanes is, and
`storeBytes_eq_iff` that a store determines where it goes and what it puts there.
-/

namespace RecoNIC
namespace ByteLanes

/-- A memory of bytes. -/
abbrev Memory := BitVec 64 → BitVec 8

/-- Put `bytes` at `start` and the addresses after it. -/
def storeBytes (mem : Memory) (start : Nat) (bytes : List (BitVec 8)) : Memory := fun a =>
  if start ≤ a.toNat then (bytes[a.toNat - start]?).getD (mem a) else mem a

/-- What the bus stores. -/
def storeLanes (mem : Memory) (addr : BitVec 64) (data : BitVec 512) (strb : BitVec 64) :
    Memory := fun a =>
  if a.toNat / 64 = addr.toNat / 64 ∧ strb.getLsbD (a.toNat % 64) = true then
    data.extractLsb' (8 * (a.toNat % 64)) 8
  else mem a

/-- The bytes of a word, the lowest first. -/
def wordBytes (v : BitVec 32) : List (BitVec 8) :=
  [v.extractLsb' 0 8, v.extractLsb' 8 8, v.extractLsb' 16 8, v.extractLsb' 24 8]

/-- Where the block of an address begins. -/
def block (addr : BitVec 64) : Nat := addr.toNat / 64 * 64

theorem wordBytes_getElem? (v : BitVec 32) {n : Nat} (hn : n < 4) :
    (wordBytes v)[n]? = some (v.extractLsb' (8 * n) 8) := by
  interval_cases n <;> rfl

theorem storeBytes_of_getElem? {mem : Memory} {start : Nat} {bytes : List (BitVec 8)}
    {a : BitVec 64} {b : BitVec 8} (hle : start ≤ a.toNat)
    (hb : bytes[a.toNat - start]? = some b) : storeBytes mem start bytes a = b := by
  simp [storeBytes, hle, hb]

theorem storeBytes_of_outside {mem : Memory} {start : Nat} {bytes : List (BitVec 8)}
    {a : BitVec 64} (hout : ¬ (start ≤ a.toNat ∧ a.toNat < start + bytes.length)) :
    storeBytes mem start bytes a = mem a := by
  by_cases hle : start ≤ a.toNat
  · simp [storeBytes, hle, List.getElem?_eq_none (show bytes.length ≤ a.toNat - start by omega)]
  · simp [storeBytes, hle]

/-- **A store through the lowest four lanes** goes to the beginning of the block. -/
theorem storeLanes_low (mem : Memory) (addr : BitVec 64) (v : BitVec 32) :
    storeLanes mem addr (v.setWidth 512) 0xF#64 =
      storeBytes mem (block addr) (wordBytes v) := by
  funext a
  have hstrobe : (0xF#64).getLsbD (a.toNat % 64) = decide (a.toNat % 64 < 4) := by
    have hlt : a.toNat % 64 < 64 := Nat.mod_lt _ (by decide)
    generalize a.toNat % 64 = n at hlt
    revert n
    decide
  have hsub : a.toNat / 64 = addr.toNat / 64 → a.toNat - block addr = a.toNat % 64 := by
    rw [block]
    omega
  by_cases hin : a.toNat / 64 = addr.toNat / 64 ∧ a.toNat % 64 < 4
  · rw [storeLanes, hstrobe, if_pos (by simpa using hin),
      storeBytes_of_getElem? (b := v.extractLsb' (8 * (a.toNat % 64)) 8)]
    · exact BitVec.extractLsb'_setWidth_of_le (by omega)
    · rw [block]
      omega
    · rw [hsub hin.1, wordBytes_getElem? v hin.2]
  · rw [storeLanes, hstrobe, if_neg (by simpa using hin), storeBytes_of_outside]
    rw [block, wordBytes]
    simp only [List.length_cons, List.length_nil]
    omega

/-- The addresses of a store are determined by it. -/
theorem inside_of_storeBytes_eq {p q : Nat} {bs cs : List (BitVec 8)}
    (h : ∀ mem, storeBytes mem p bs = storeBytes mem q cs) {n : Nat} (hn : n < bs.length)
    (hp : p + n < 2 ^ 64) : q ≤ p + n ∧ p + n < q + cs.length := by
  by_contra hout
  have ha : (BitVec.ofNat 64 (p + n)).toNat = p + n := Nat.mod_eq_of_lt hp
  -- a memory that does not hold the byte yet
  have heq := congrFun (h fun _ => ~~~ bs[n]) (BitVec.ofNat 64 (p + n))
  rw [storeBytes_of_getElem? (b := bs[n]) (by omega) (by simp [ha, hn]),
    storeBytes_of_outside (by rwa [ha])] at heq
  have hbit := congrArg (fun b : BitVec 8 => b.getLsbD 0) heq
  simp at hbit

/-- **A store determines where it goes and what it puts there.** -/
theorem storeBytes_eq_iff {p q : Nat} {bs cs : List (BitVec 8)} (hlen : bs.length = cs.length)
    (hpos : 0 < bs.length) (hp : p + bs.length ≤ 2 ^ 64) :
    (∀ mem, storeBytes mem p bs = storeBytes mem q cs) ↔ p = q ∧ bs = cs := by
  constructor
  · intro h
    have hfirst := inside_of_storeBytes_eq h (n := 0) hpos (by omega)
    have hlast := inside_of_storeBytes_eq h (n := bs.length - 1) (by omega) (by omega)
    obtain rfl : p = q := by omega
    refine ⟨rfl, List.ext_getElem hlen fun n hn hn' => ?_⟩
    have ha : (BitVec.ofNat 64 (p + n)).toNat = p + n := Nat.mod_eq_of_lt (by omega)
    have heq := congrFun (h fun _ => 0) (BitVec.ofNat 64 (p + n))
    rwa [storeBytes_of_getElem? (b := bs[n]) (by omega) (by simp [ha, hn]),
      storeBytes_of_getElem? (b := cs[n]) (by omega) (by simp [ha, hn'])] at heq
  · rintro ⟨rfl, rfl⟩ mem
    rfl

end ByteLanes
end RecoNIC
