import RecoNIC.RnRegControl.Counters
import RecoNIC.Synchronous.Conservation

/-!
# The counters that reads clear

A read of the low word of such a counter is answered with the value of the handshake cycle,
and clears the word in each cycle in which the answer stands on the bus.  So a packet is lost

* in the handshake cycle itself: it is not in the answer and is cleared one cycle later;
* in each cycle of the answer but the last one, when the host does not take it at once.

And a low word that wraps around owes its carry until the next packet, as in
`RnRegControl.Counters`.  There is no other way to lose one (`accounts_iff_kept`).
-/

namespace RecoNIC
namespace RnRegControl

open Synchronous

/-- The counter of a kind that reads clear. -/
def Regs.readClear (s : Regs) : PacketKind → Counter
  | .roce => s.trroce
  | .nonRoce => s.trnonroce

/-- The addresses of its words. -/
def lowReg : PacketKind → BitVec 12
  | .roce => trroceLowReg
  | .nonRoce => trnonroceLowReg

def highReg : PacketKind → BitVec 12
  | .roce => trroceHighReg
  | .nonRoce => trnonroceHighReg

/-! ## The books -/

/-- The packets that have come, the sum of the low words that reads have returned, and the
carries that the high word has counted. -/
structure Ledger where
  packets : Nat
  returned : Nat
  carries : Nat
  deriving DecidableEq

/-- What one cycle adds. -/
def Ledger.note (k : PacketKind) (l : Ledger) (s : Regs) (i : Input) : Ledger where
  packets := l.packets + (i.pktRecved k).toNat
  returned := l.returned + if s.reads (lowReg k) && i.rready then s.rdata.toNat else 0
  carries := l.carries +
    ((s.readClear k).carryBit && !(s.readClear k).overflowBit && !s.reads (highReg k)).toNat

/-- `rn_reg_control` with its books for a kind of packets. -/
def accounted (k : PacketKind) : Machine (Regs × Ledger) Input :=
  rnRegControl.watch ⟨0, 0, 0⟩ (Ledger.note k)

/-- The low word, or the answer that stands for it while it is being cleared. -/
def Regs.lowValue (s : Regs) (k : PacketKind) : Nat :=
  if s.reads (lowReg k) then s.rdata.toNat else (s.readClear k).low.toNat

/-- The values returned, the present one and the carries, counted or about to be, account for
each packet once. -/
def Accounts (k : PacketKind) (x : Regs × Ledger) : Prop :=
  x.2.packets = x.2.returned + x.1.lowValue k +
    2 ^ 32 * (x.2.carries + (x.1.readClear k).carryBit.toNat)

instance (k : PacketKind) (x : Regs × Ledger) : Decidable (Accounts k x) :=
  inferInstanceAs (Decidable (_ = _))

/-- The cycle takes the address of a read of the low word. -/
def Regs.takes (s : Regs) (i : Input) (k : PacketKind) : Bool :=
  s.arready && i.arvalid && i.araddr == lowReg k

/-- A packet of this cycle is kept: no read of the low word begins, none waits for the host,
and outside of reads the low word has room. -/
def Kept (k : PacketKind) (s : Regs) (i : Input) : Prop :=
  i.pktRecved k = true → s.takes i k = false ∧
    if s.reads (lowReg k) then i.rready = true else (s.readClear k).low ≠ BitVec.allOnes 32

instance (k : PacketKind) (s : Regs) (i : Input) : Decidable (Kept k s i) :=
  inferInstanceAs (Decidable (_ → _))

/-! ## One cycle -/

section Step

variable (s : Regs) (i : Input) (k : PacketKind)

theorem readClear_step : (s.step i).readClear k =
    (s.readClear k).step (s.reads (lowReg k)) (s.reads (highReg k)) (i.pktRecved k) := by
  unfold Regs.step
  cases k <;> cases s.axilReadState <;> dsimp only <;> split <;> rfl

/-- The read interface shows its state. -/
structure Port (s : Regs) : Prop where
  arready : s.arready = decide (s.axilReadState = .idle)
  rvalid : s.rvalid = decide (s.axilReadState = .resp)

theorem Port.step {s : Regs} (h : Port s) (i : Input) : Port (s.step i) := by
  obtain ⟨har, hrv⟩ := h
  unfold Regs.step
  cases hstate : s.axilReadState <;> rw [hstate] at har hrv <;> dsimp only <;> split <;>
    constructor <;> simp_all

/-- The read of an address goes on until the host takes the answer. -/
theorem reads_step {s : Regs} (h : Port s) (i : Input) (addr : BitVec 12) :
    (s.step i).reads addr =
      if s.rvalid then s.reads addr && !i.rready
      else s.arready && i.arvalid && i.araddr == addr := by
  obtain ⟨har, hrv⟩ := h
  unfold Regs.step Regs.reads
  cases hstate : s.axilReadState <;> rw [hstate] at har hrv <;> dsimp only <;> split <;>
    simp_all

/-- An answer does not change while it stands on the bus. -/
theorem rdata_step_of_rvalid {s : Regs} (h : Port s) (i : Input) (hread : s.rvalid = true) :
    (s.step i).rdata = s.rdata := by
  have hstate : s.axilReadState = .resp := by
    have hrv := h.rvalid
    rw [hread] at hrv
    simpa using hrv.symm
  unfold Regs.step
  rw [hstate]
  dsimp only
  split <;> rfl

theorem readData_lowReg : s.readData i.others (lowReg k) = (s.readClear k).low := by
  cases k <;> rfl

/-- The answer of a read of the low word is the word before the edge. -/
theorem rdata_step_of_takes {s : Regs} {i : Input} {k : PacketKind} (h : Port s)
    (htakes : s.takes i k = true) : (s.step i).rdata = (s.readClear k).low := by
  simp only [Regs.takes, Bool.and_eq_true, beq_iff_eq] at htakes
  have hstate : s.axilReadState = .idle := by
    have har := h.arready
    rw [htakes.1.1] at har
    simpa using har.symm
  rw [← readData_lowReg s i k, ← htakes.2]
  unfold Regs.step
  rw [hstate]
  simp [htakes.1.1, htakes.1.2]

end Step

/-! ## Whole runs -/

/-- The books are right, and the counter has never carried. -/
structure Books (k : PacketKind) (x : Regs × Ledger) : Prop where
  port : Port x.1
  accounts : Accounts k x
  noCarry : (x.1.readClear k).carryBit = false
  notLate : (x.1.readClear k).late = false
  high : (x.1.readClear k).high = 0
  running : (x.1.readClear k).overflowBit = false

section Run

variable {k : PacketKind} {x : Regs × Ledger}

theorem books_reset (k : PacketKind) : Books k (accounted k).reset := by
  cases k <;> exact ⟨⟨rfl, rfl⟩, rfl, rfl, rfl, rfl, rfl⟩

theorem Books.noCarry_step (h : Books k x) (i : Input) :
    ((x.1.step i).readClear k).carryBit = false := by
  have hlate := h.notLate
  rw [Counter.late] at hlate
  simp [readClear_step, Counter.step, h.running, hlate]

/-- The books of the next cycle, as one equation. -/
theorem Books.accounts_step (h : Books k x) (i : Input) :
    Accounts k ((accounted k).step x i) ↔
      x.1.lowValue k + (i.pktRecved k).toNat =
        (if x.1.reads (lowReg k) && i.rready then x.1.rdata.toNat else 0) +
          (x.1.step i).lowValue k := by
  have hbooks := h.accounts
  rw [Accounts, h.noCarry] at hbooks
  show x.2.packets + (i.pktRecved k).toNat =
    x.2.returned + (if x.1.reads (lowReg k) && i.rready then x.1.rdata.toNat else 0) +
      (x.1.step i).lowValue k +
      2 ^ 32 * (x.2.carries +
        ((x.1.readClear k).carryBit && !(x.1.readClear k).overflowBit &&
          !x.1.reads (highReg k)).toNat + ((x.1.step i).readClear k).carryBit.toNat) ↔ _
  rw [h.noCarry_step i, h.noCarry]
  simp only [Bool.false_and, Bool.toNat_false, Nat.add_zero] at hbooks ⊢
  omega

theorem Books.low_step (h : Books k x) (i : Input) :
    ((x.1.step i).readClear k).low =
      if x.1.reads (lowReg k) then if i.pktRecved k then 1 else 0
      else if i.pktRecved k then (x.1.readClear k).low + 1 else (x.1.readClear k).low := by
  rw [readClear_step]
  simp only [Counter.step, h.running, Bool.false_eq_true, if_false]

/-- While the answer stands on the bus. -/
theorem Books.accounts_step_reads (h : Books k x) (i : Input)
    (hread : x.1.reads (lowReg k) = true) :
    Accounts k ((accounted k).step x i) ↔ Kept k x.1 i := by
  rw [h.accounts_step i]
  have hreads := reads_step h.port i (lowReg k)
  have hlow := h.low_step i
  have hvalid : x.1.rvalid = true := (Bool.and_eq_true_iff.mp hread).1
  have htakes : x.1.takes i k = false := by
    have har := h.port.arready
    have hrv := h.port.rvalid
    rw [hvalid] at hrv
    simp [Regs.takes, har, show x.1.axilReadState = .resp by simpa using hrv.symm]
  rw [hvalid, hread] at hreads
  rw [hread] at hlow
  cases hready : i.rready with
  | true =>
    rw [hready] at hreads
    simp only [Regs.lowValue, hread, hreads, hlow, Kept, htakes, hready]
    cases i.pktRecved k <;> simp
  | false =>
    rw [hready] at hreads
    simp only [Regs.lowValue, hread, hreads, Kept, htakes, hready,
      rdata_step_of_rvalid h.port i hvalid]
    cases i.pktRecved k <;> simp

/-- In the cycle in which a read begins. -/
theorem Books.accounts_step_takes (h : Books k x) (i : Input)
    (hread : x.1.reads (lowReg k) = false) (htakes : x.1.takes i k = true) :
    Accounts k ((accounted k).step x i) ↔ Kept k x.1 i := by
  rw [h.accounts_step i]
  have hnext : (x.1.step i).reads (lowReg k) = true := by
    have har := h.port.arready
    have hrv := h.port.rvalid
    simp only [Regs.takes, Bool.and_eq_true, beq_iff_eq] at htakes
    rw [htakes.1.1] at har
    rw [reads_step h.port i (lowReg k), hrv,
      show x.1.axilReadState = .idle by simpa using har.symm]
    simp [htakes]
  simp only [Regs.lowValue, hread, hnext, Kept, htakes, rdata_step_of_takes h.port htakes]
  cases i.pktRecved k <;> simp

/-- In all other cycles the word counts, unless it is full. -/
theorem Books.accounts_step_counts (h : Books k x) (i : Input)
    (hread : x.1.reads (lowReg k) = false) (htakes : x.1.takes i k = false) :
    Accounts k ((accounted k).step x i) ↔ Kept k x.1 i := by
  rw [h.accounts_step i]
  have hlow := h.low_step i
  rw [hread] at hlow
  have hnext : (x.1.step i).reads (lowReg k) = false := by
    rw [reads_step h.port i (lowReg k), hread]
    rw [Regs.takes] at htakes
    split <;> simp [htakes]
  simp only [Regs.lowValue, hread, hnext, Kept, htakes, hlow]
  cases i.pktRecved k with
  | false => simp
  | true =>
    have hfull : (x.1.readClear k).low ≠ BitVec.allOnes 32 ↔
        (x.1.readClear k).low.toNat ≠ 2 ^ 32 - 1 := by
      rw [ne_eq, ne_eq, ← BitVec.toNat_inj, BitVec.toNat_allOnes]
    have hlt := (x.1.readClear k).low.isLt
    simp only [Bool.false_eq_true, if_false, if_true, Bool.false_and, Bool.toNat_true,
      BitVec.toNat_add, show (1 : BitVec 32).toNat = 1 from rfl, forall_const, true_and, hfull]
    omega

/-- **One cycle keeps the books right iff it keeps its packet.** -/
theorem Books.accounts_step_iff (h : Books k x) (i : Input) :
    Accounts k ((accounted k).step x i) ↔ Kept k x.1 i := by
  cases hread : x.1.reads (lowReg k) with
  | true => exact h.accounts_step_reads i hread
  | false =>
    cases htakes : x.1.takes i k with
    | true => exact h.accounts_step_takes i hread htakes
    | false => exact h.accounts_step_counts i hread htakes

/-- A cycle that keeps its packet keeps everything else the books rest on. -/
theorem Books.step (h : Books k x) {i : Input} (hkept : Kept k x.1 i) :
    Books k ((accounted k).step x i) := by
  refine ⟨h.port.step i, (h.accounts_step_iff i).mpr hkept, h.noCarry_step i, ?_, ?_, ?_⟩
  · show ((x.1.step i).readClear k).late = false
    have hlate := h.notLate
    rw [readClear_step]
    cases hread : x.1.reads (lowReg k) with
    | true => simp [Counter.late, Counter.step, h.running]
    | false =>
      cases hpkt : i.pktRecved k with
      | false => simpa [Counter.late, Counter.step, h.running] using hlate
      | true =>
        have hroom := (hkept hpkt).2
        rw [hread] at hroom
        have hadd := Counter.late_add_one (x.1.readClear k).low
        have hne : (x.1.readClear k).low.toNat ≠ 2 ^ 32 - 1 := fun heq =>
          hroom (BitVec.eq_of_toNat_eq (by rw [heq, BitVec.toNat_allOnes]))
        have hlt := (x.1.readClear k).low.isLt
        simp only [Counter.late, Counter.step, h.running, Bool.false_eq_true, if_false, if_true]
        cases hwrap : ((x.1.readClear k).low.msb && !((x.1.readClear k).low + 1).msb) with
        | false => rfl
        | true =>
          rw [hwrap, Bool.toNat_true] at hadd
          omega
  · show ((x.1.step i).readClear k).high = 0
    rw [readClear_step]
    simp [Counter.step, h.running, h.noCarry, h.high]
  · show ((x.1.step i).readClear k).overflowBit = false
    rw [readClear_step]
    simp [Counter.step, h.running, h.high]

end Run

/-- **Read-clear counters.**  A run accounts for each packet in each of its states iff each
of its cycles keeps its packet. -/
theorem accounts_iff_kept (k : PacketKind) (is : List Input) :
    (accounted k).Always (Accounts k) (accounted k).reset is ↔
      rnRegControl.Guarded (Kept k) rnRegControl.reset is := by
  have hexact : (accounted k).Always (Accounts k) (accounted k).reset is ↔
      (accounted k).Guarded (fun x i => Kept k x.1 i) (accounted k).reset is :=
    Machine.always_iff_guarded (fun _ (h : Books k _) => h.accounts)
      (fun _ _ h _ hkept => h.step hkept)
      (fun _ i h _ hlost => mt (h.accounts_step_iff i).mp hlost) (books_reset k)
      (Machine.guarded_true _ _)
  exact hexact.trans Machine.guarded_watch

/-- A packet comes before a read of the low word, and another one in the cycle in which the
read begins.  The read returns one, and when it is over the word is zero. -/
theorem accounts_lost :
    ((accounted .roce).run [⟨false, 0, true, true, false, fun _ => 0⟩,
        ⟨true, trroceLowReg, true, true, false, fun _ => 0⟩,
        ⟨false, 0, true, false, false, fun _ => 0⟩]).1.rvalid = false ∧
      ¬ Accounts .roce ((accounted .roce).run [⟨false, 0, true, true, false, fun _ => 0⟩,
        ⟨true, trroceLowReg, true, true, false, fun _ => 0⟩,
        ⟨false, 0, true, false, false, fun _ => 0⟩]) := by
  decide

end RnRegControl
end RecoNIC
