import RecoNIC.Synchronous.Machine
import Mathlib.Data.BitVec

/-!
# The packet counters

`rn_reg_control` counts packets of two kinds in two counters each.  A counter has two words.
The low word goes up with each packet, and the bit that carries to the high word is found by
comparing the low word with its top bit of one packet earlier.  So the carry comes with the
packet *after* the one that wraps the low word around: until then the pair of words is
`2 ^ 32` behind.

`Counter.count` adds the carries that are still to come.  It is exact in every cycle
(`count_step`), and the words are exact unless one is to come (`value_eq_iff`).

The four counters are one definition.  The counters that reads do not clear are the case in
which nothing is ever cleared.
-/

namespace RecoNIC
namespace RnRegControl

open Synchronous

/-! ## One counter -/

/-- The registers of a counter: `*_low_reg`, `msb_*_low`, `*_carry_bit`, `*_high_reg` and
`*_overflow_bit`. -/
structure Counter where
  low : BitVec 32
  msbLow : Bool
  carryBit : Bool
  high : BitVec 32
  overflowBit : Bool
  deriving DecidableEq

namespace Counter

/-- After reset. -/
def reset : Counter := ⟨0, false, false, 0, false⟩

/-- One clock edge: whether the low and the high word are cleared by a read, and whether a
packet has been received. -/
def step (c : Counter) (clearLow clearHigh pktRecved : Bool) : Counter where
  low :=
    if c.overflowBit then 0
    else if clearLow then if pktRecved then 1 else 0
    else if pktRecved then c.low + 1 else c.low
  msbLow :=
    if c.overflowBit then c.msbLow
    else if clearLow then false
    else if pktRecved then c.low.msb else c.msbLow
  carryBit :=
    if c.overflowBit then false
    else if clearLow then false
    else pktRecved && (c.msbLow && !c.low.msb)
  high :=
    if c.overflowBit then c.high
    else if clearHigh then 0
    else if c.carryBit then c.high + 1 else c.high
  overflowBit :=
    if c.overflowBit then true
    else if clearHigh then false
    else c.high.msb

/-- What the two words say. -/
def value (c : Counter) : Nat := c.high.toNat * 2 ^ 32 + c.low.toNat

/-- The low word has wrapped around, and no packet has come since to carry. -/
def late (c : Counter) : Bool := c.msbLow && !c.low.msb

/-- What the two words say once the carries on their way have arrived. -/
def count (c : Counter) : Nat :=
  2 ^ 32 * (c.high.toNat + c.carryBit.toNat + c.late.toNat) + c.low.toNat

theorem value_add (c : Counter) :
    c.value + 2 ^ 32 * (c.carryBit.toNat + c.late.toNat) = c.count := by
  rw [value, count]
  omega

/-- The low word and its carry to come, one packet later. -/
theorem late_add_one (x : BitVec 32) :
    2 ^ 32 * (x.msb && !(x + 1).msb).toNat + (x + 1).toNat = x.toNat + 1 := by
  have hlt := x.isLt
  have hx := BitVec.msb_eq_decide x
  have hx' := BitVec.msb_eq_decide (x + 1)
  rw [hx, hx', BitVec.toNat_add]
  by_cases hwrap : x.toNat = 2 ^ 32 - 1
  · simp [hwrap]
  · have hmod : (x.toNat + (1 : BitVec 32).toNat) % 2 ^ 32 = x.toNat + 1 := by
      show (x.toNat + 1) % 2 ^ 32 = _
      omega
    rw [hmod]
    by_cases hhalf : 2 ^ 31 ≤ x.toNat
    · simp [show 2147483648 ≤ x.toNat + 1 by omega]
    · simp
      omega

/-- **One cycle counts one packet**, unless a word is cleared or the counter has stopped. -/
theorem count_step {c : Counter} (hstop : c.overflowBit = false)
    (hroom : c.high.toNat + c.carryBit.toNat < 2 ^ 32) (pktRecved : Bool) :
    (c.step false false pktRecved).count = c.count + pktRecved.toNat := by
  have hhigh : (c.step false false pktRecved).high.toNat = c.high.toNat + c.carryBit.toNat := by
    cases hcarry : c.carryBit with
    | false => simp [step, hstop, hcarry]
    | true =>
      rw [hcarry] at hroom
      have hone : (1 : BitVec 32).toNat = 1 := rfl
      simp only [step, hstop, hcarry, Bool.false_eq_true, if_false, if_true, BitVec.toNat_add,
        hone, Bool.toNat_true]
      exact Nat.mod_eq_of_lt hroom
  cases pktRecved with
  | false =>
    rw [count, hhigh]
    simp [step, hstop, late, count]
  | true =>
    have hlow := late_add_one c.low
    rw [count, hhigh]
    simp only [step, hstop, late, count, Bool.false_eq_true, if_false, if_true, Bool.true_and,
      Bool.toNat_true]
    omega

/-! ## Counters that are never cleared -/

/-- A counter that is never cleared; the input of a cycle says whether a packet comes. -/
def counting : Machine Counter Bool := ⟨reset, fun c p => c.step false false p⟩

/-- The counter after `n` packets. -/
structure Exact (n : Nat) (c : Counter) : Prop where
  count_eq : c.count = n
  running : c.overflowBit = false
  zero_of_late : c.late = true → c.low = 0
  late_of_zero : c.low = 0 → 0 < n → c.late = true

theorem exact_reset : Exact 0 reset :=
  ⟨rfl, rfl, fun _ => rfl, fun _ h => absurd h (Nat.lt_irrefl 0)⟩

theorem Exact.step {n : Nat} {c : Counter} (h : Exact n c) (p : Bool)
    (hn : n < 2 ^ 63) : Exact (n + p.toNat) (c.step false false p) := by
  have hcount := h.count_eq
  have hhigh : c.high.toNat + c.carryBit.toNat < 2 ^ 31 := by
    rw [count] at hcount
    omega
  refine ⟨?_, ?_, ?_, ?_⟩
  · rw [count_step h.running (by omega), hcount]
  · simp only [Counter.step, h.running, Bool.false_eq_true, if_false, BitVec.msb_eq_decide,
      decide_eq_false_iff_not]
    omega
  · cases p with
    | false => simpa [Counter.step, h.running, late] using h.zero_of_late
    | true =>
      intro hlate
      have hlow := late_add_one c.low
      have hlt := c.low.isLt
      simp only [Counter.step, late, h.running, Bool.false_eq_true, if_false, if_true]
        at hlate ⊢
      rw [hlate, Bool.toNat_true] at hlow
      exact BitVec.eq_of_toNat_eq (by show (c.low + 1).toNat = 0; omega)
  · cases p with
    | false => simpa [Counter.step, h.running, late] using h.late_of_zero
    | true =>
      intro hzero _
      have hlow := late_add_one c.low
      simp only [Counter.step, late, h.running, Bool.false_eq_true, if_false, if_true]
        at hzero ⊢
      rw [hzero, show (0 : BitVec 32).toNat = 0 from rfl] at hlow
      rw [hzero]
      cases hmsb : (c.low.msb && !(0 : BitVec 32).msb) with
      | true => rfl
      | false =>
        rw [hmsb] at hlow
        simp at hlow

theorem Exact.runFrom {n : Nat} {c : Counter} (h : Exact n c) (pulses : List Bool)
    (hn : n + pulses.count true < 2 ^ 63) :
    Exact (n + pulses.count true) (counting.runFrom c pulses) := by
  induction pulses generalizing n c with
  | nil => exact h
  | cons p pulses ih =>
    have hcount : (p :: pulses).count true = p.toNat + pulses.count true := by
      cases p with
      | false => simp
      | true => rw [List.count_cons_self, Bool.toNat_true, Nat.add_comm]
    rw [hcount, ← Nat.add_assoc] at hn ⊢
    exact ih (h.step p (by omega)) hn

theorem carryBit_idle (c : Counter) : (c.step false false false).carryBit = false := by
  cases hstop : c.overflowBit <;> simp [step, hstop]

/-- A carry to come says that the count is a multiple of `2 ^ 32`. -/
theorem Exact.late_iff {n : Nat} {c : Counter} (h : Exact n c) :
    c.late = true ↔ 0 < n ∧ 2 ^ 32 ∣ n := by
  have hcount := h.count_eq
  rw [count] at hcount
  have hlt := c.low.isLt
  constructor
  · intro hlate
    have hzero : c.low.toNat = 0 := by
      rw [h.zero_of_late hlate]
      rfl
    rw [hzero, hlate, Bool.toNat_true] at hcount
    constructor
    · omega
    · exact ⟨c.high.toNat + c.carryBit.toNat + 1, by omega⟩
  · rintro ⟨hpos, k, hk⟩
    have hzero : c.low.toNat = 0 := by omega
    exact h.late_of_zero (BitVec.eq_of_toNat_eq hzero) hpos

/-- **When the words are exact.**  One idle cycle after the last packet, they fall short of
the number of packets iff that is a multiple of `2 ^ 32`. -/
theorem value_eq_iff {pulses : List Bool} (hn : pulses.count true < 2 ^ 63) (idle : Nat) :
    (counting.run (pulses ++ List.replicate (idle + 1) false)).value = pulses.count true ↔
      ¬ (0 < pulses.count true ∧ 2 ^ 32 ∣ pulses.count true) := by
  have hidle : (pulses ++ List.replicate (idle + 1) false).count true = pulses.count true := by
    rw [List.count_append, List.count_replicate]
    rfl
  have hexact := exact_reset.runFrom (pulses ++ List.replicate (idle + 1) false)
    (by rw [hidle]; omega)
  rw [hidle, Nat.zero_add] at hexact
  have hcarry : (counting.runFrom reset (pulses ++ List.replicate (idle + 1) false)).carryBit =
      false := by
    rw [List.replicate_succ', ← List.append_assoc, Machine.runFrom_append]
    exact carryBit_idle _
  have hvalue := value_add (counting.runFrom reset (pulses ++ List.replicate (idle + 1) false))
  rw [hexact.count_eq, hcarry, Bool.toNat_false, Nat.zero_add] at hvalue
  rw [← hexact.late_iff]
  show (counting.runFrom reset _).value = _ ↔ _
  cases hlate : (counting.runFrom reset (pulses ++ List.replicate (idle + 1) false)).late with
  | true =>
    rw [hlate, Bool.toNat_true] at hvalue
    simp only [not_true_eq_false, iff_false]
    omega
  | false =>
    rw [hlate, Bool.toNat_false] at hvalue
    simp only [Bool.false_eq_true, not_false_eq_true, iff_true]
    omega

end Counter

/-! ## The register file -/

/-- The two kinds of packets. -/
inductive PacketKind where
  | roce | nonRoce
  deriving DecidableEq

/-- `axil_read_state`. -/
inductive AxilReadState where
  | idle | resp
  deriving DecidableEq

/-- The registers of the read interface, and the counters. -/
structure Regs where
  arready : Bool
  rvalid : Bool
  rdata : BitVec 32
  araddr : BitVec 12
  axilReadState : AxilReadState
  trroce : Counter
  trroceNoReset : Counter
  trnonroce : Counter
  trnonroceNoReset : Counter
  deriving DecidableEq

/-- The inputs of one cycle.  `others` are the registers that do not count packets. -/
structure Input where
  arvalid : Bool
  araddr : BitVec 12
  rready : Bool
  rocePktRecved : Bool
  nonRocePktRecved : Bool
  others : BitVec 12 → BitVec 32 := fun _ => 0xdeedbeef

/-- The addresses of the counters. -/
def trroceHighReg : BitVec 12 := 0x008
def trroceLowReg : BitVec 12 := 0x00C
def trroceNoResetHighReg : BitVec 12 := 0x010
def trroceNoResetLowReg : BitVec 12 := 0x014
def trnonroceHighReg : BitVec 12 := 0x018
def trnonroceLowReg : BitVec 12 := 0x01C
def trnonroceNoResetHighReg : BitVec 12 := 0x020
def trnonroceNoResetLowReg : BitVec 12 := 0x024

/-- What a read of an address answers. -/
def Regs.readData (s : Regs) (others : BitVec 12 → BitVec 32) (addr : BitVec 12) : BitVec 32 :=
  if addr = trroceHighReg then s.trroce.high
  else if addr = trroceLowReg then s.trroce.low
  else if addr = trroceNoResetHighReg then s.trroceNoReset.high
  else if addr = trroceNoResetLowReg then s.trroceNoReset.low
  else if addr = trnonroceHighReg then s.trnonroce.high
  else if addr = trnonroceLowReg then s.trnonroce.low
  else if addr = trnonroceNoResetHighReg then s.trnonroceNoReset.high
  else if addr = trnonroceNoResetLowReg then s.trnonroceNoReset.low
  else others addr

/-- A read of an address is being answered. -/
def Regs.reads (s : Regs) (addr : BitVec 12) : Bool := s.rvalid && s.araddr == addr

/-- One clock edge. -/
def Regs.step (s : Regs) (i : Input) : Regs :=
  let s' : Regs :=
    { s with
      trroce := s.trroce.step (s.reads trroceLowReg) (s.reads trroceHighReg) i.rocePktRecved
      trroceNoReset := s.trroceNoReset.step false false i.rocePktRecved
      trnonroce :=
        s.trnonroce.step (s.reads trnonroceLowReg) (s.reads trnonroceHighReg) i.nonRocePktRecved
      trnonroceNoReset := s.trnonroceNoReset.step false false i.nonRocePktRecved }
  match s.axilReadState with
  | .idle =>
    if s.arready && i.arvalid then
      { s' with
        arready := false
        rvalid := true
        araddr := i.araddr
        rdata := s.readData i.others i.araddr
        axilReadState := .resp }
    else s'
  | .resp =>
    if i.rready && s.rvalid then
      { s' with
        rvalid := false
        arready := true
        axilReadState := .idle }
    else s'

/-- `rn_reg_control`: its counters and the interface that reads them. -/
def rnRegControl : Machine Regs Input where
  reset := ⟨true, false, 0, 0, .idle, Counter.reset, Counter.reset, Counter.reset, Counter.reset⟩
  step := Regs.step

/-- A packet of this kind has been received. -/
def Input.pktRecved (i : Input) : PacketKind → Bool
  | .roce => i.rocePktRecved
  | .nonRoce => i.nonRocePktRecved

/-- The counter of a kind that reads do not clear. -/
def Regs.noReset (s : Regs) : PacketKind → Counter
  | .roce => s.trroceNoReset
  | .nonRoce => s.trnonroceNoReset

/-! ## The counters that reads do not clear -/

/-- Reads have no influence on them. -/
theorem noReset_step (s : Regs) (i : Input) (k : PacketKind) :
    (s.step i).noReset k = (s.noReset k).step false false (i.pktRecved k) := by
  unfold Regs.step
  cases k <;> cases s.axilReadState <;> dsimp only <;> split <;> rfl

theorem noReset_runFrom (s : Regs) (is : List Input) (k : PacketKind) :
    (rnRegControl.runFrom s is).noReset k =
      Counter.counting.runFrom (s.noReset k) (is.map (Input.pktRecved · k)) := by
  induction is generalizing s with
  | nil => rfl
  | cons i is ih =>
    rw [Machine.runFrom_cons, ih, List.map_cons, Machine.runFrom_cons]
    exact congrArg (Counter.counting.runFrom · _) (noReset_step s i k)

/-- The packets of a kind. -/
def packets (k : PacketKind) (is : List Input) : Nat := (is.map (Input.pktRecved · k)).count true

/-- A run that ends with cycles without a packet. -/
theorem noReset_run_quiet {k : PacketKind} (is : List Input) {tail : List Input}
    (hquiet : ∀ i ∈ tail, i.pktRecved k = false) :
    (rnRegControl.run (is ++ tail)).noReset k = Counter.counting.run
      (is.map (Input.pktRecved · k) ++ List.replicate tail.length false) := by
  have hreset : rnRegControl.reset.noReset k = Counter.counting.reset := by
    cases k <;> rfl
  have htail : tail.map (Input.pktRecved · k) = List.replicate tail.length false := by
    rw [List.map_congr_left hquiet, List.map_const']
  rw [Machine.run, noReset_runFrom, List.map_append, htail, hreset]
  rfl

/-- **The 64-bit counters.**  In each state that is at least two cycles behind the last
packet, the words of a counter that reads do not clear are the number of packets iff that is
not a positive multiple of `2 ^ 32`. -/
theorem noReset_value_eq_iff (k : PacketKind) (is tail : List Input)
    (hfew : packets k is < 2 ^ 63) (htail : 1 ≤ tail.length)
    (hquiet : ∀ i ∈ tail, i.pktRecved k = false) :
    ((rnRegControl.run (is ++ tail)).noReset k).value = packets k is ↔
      ¬ (0 < packets k is ∧ 2 ^ 32 ∣ packets k is) := by
  rw [noReset_run_quiet is hquiet, ← Nat.sub_add_cancel htail]
  exact Counter.value_eq_iff hfew _

/-- Three packets. -/
theorem noReset_value_eq_three :
    ((rnRegControl.run ([⟨false, 0, false, true, false, fun _ => 0⟩,
      ⟨false, 0, false, true, true, fun _ => 0⟩, ⟨false, 0, false, true, false, fun _ => 0⟩] ++
        [⟨false, 0, false, false, true, fun _ => 0⟩])).noReset .roce).value = 3 :=
  (noReset_value_eq_iff .roce
    [⟨false, 0, false, true, false, fun _ => 0⟩, ⟨false, 0, false, true, true, fun _ => 0⟩,
      ⟨false, 0, false, true, false, fun _ => 0⟩]
    [⟨false, 0, false, false, true, fun _ => 0⟩] (by decide) (by decide) (by decide)).mpr
    (by decide)

/-- `2 ^ 32` packets leave both words at zero. -/
theorem noReset_value_lags :
    ((rnRegControl.run (List.replicate (2 ^ 32) ⟨false, 0, false, true, false, fun _ => 0⟩ ++
        List.replicate 2 ⟨false, 0, false, false, false, fun _ => 0⟩)).noReset .roce).value ≠
      packets .roce (List.replicate (2 ^ 32) ⟨false, 0, false, true, false, fun _ => 0⟩) := by
  have hcount : ((List.replicate (2 ^ 32) (⟨false, 0, false, true, false, fun _ => 0⟩ : Input)).map
      (Input.pktRecved · .roce)).count true = 2 ^ 32 := by
    rw [List.map_replicate]
    exact List.count_replicate_self
  rw [noReset_run_quiet _ (fun i hi => by rw [List.eq_of_mem_replicate hi]; rfl), packets]
  intro heq
  refine (Counter.value_eq_iff (by rw [hcount]; decide) 1).mp heq ?_
  rw [hcount]
  decide

end RnRegControl
end RecoNIC
