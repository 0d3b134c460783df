import RecoNIC.RoceStack.Csr

/-!
# Destroying a queue pair

`destroy_rdma_qp` of `rdma_api.c` first waits until the queue pair is idle, then clears
its registers so that the number can be used again.  Both parts rely on the registers in
ways the hardware does not support:

* the wait asks for two bits of `STATQPi`, and `STATQPi` has no writer
  (`qp_run_of_unwritten`), so the call returns iff the bits were there from the start;
* among the registers that are cleared are four that the write decoder refuses.

A call is a function of what the device answers, by the number of the read and its
address, and of a number of polls after which it is still `waiting`.
-/

namespace RecoNIC
namespace Destroy

open Synchronous AxilPort
open Csr hiding step

/-! ## Calls -/

/-- What the device answers to the `t`-th read, by address. -/
abbrev Device := Nat → BitVec 32 → BitVec 32

/-- The reads and writes a call has made so far. -/
structure Progress where
  reads : Nat
  writes : List (BitVec 32 × BitVec 32)

/-- Nothing yet. -/
def Progress.start : Progress := ⟨0, []⟩

/-- How a call goes on. -/
inductive Result (α : Type) where
  | returned (result : α) (p : Progress)
  | exited
  | waiting

/-- A call. -/
def Driver (α : Type) : Type := Progress → Result α

namespace Driver

variable {α β : Type}

/-- One call after the other. -/
def bind (x : Driver α) (f : α → Driver β) : Driver β := fun p =>
  match x p with
  | .returned a p' => f a p'
  | .exited => .exited
  | .waiting => .waiting

instance : Monad Driver where
  pure a := fun p => .returned a p
  bind := bind

/-- `exit`. -/
def exit : Driver α := fun _ => .exited

/-- The polls are used up. -/
def waiting : Driver α := fun _ => .waiting

@[simp] theorem pure_apply (a : α) (p : Progress) : (pure a : Driver α) p = .returned a p := rfl

/-- A call returns iff all its parts do. -/
theorem bind_eq_returned {x : Driver α} {f : α → Driver β} {b : β} {p p'' : Progress} :
    (x >>= f) p = .returned b p'' ↔
      ∃ a p', x p = .returned a p' ∧ f a p' = .returned b p'' := by
  show bind x f p = _ ↔ _
  unfold bind
  cases x p <;> simp

/-- The call returns wherever it begins. -/
def Returns (x : Driver α) : Prop := ∀ p, ∃ a p', x p = .returned a p'

theorem returns_pure (a : α) : Returns (pure a : Driver α) := fun p => ⟨a, p, rfl⟩

theorem Returns.bind {x : Driver α} {f : α → Driver β} (hx : Returns x)
    (hf : ∀ a, Returns (f a)) : Returns (x >>= f) := by
  intro p
  obtain ⟨a, p', hxp⟩ := hx p
  obtain ⟨b, p'', hfp⟩ := hf a p'
  exact ⟨b, p'', bind_eq_returned.mpr ⟨a, p', hxp, hfp⟩⟩

end Driver

/-- `read32_data`. -/
def read32Data (dev : Device) (addr : BitVec 32) : Driver (BitVec 32) := fun p =>
  .returned (dev p.reads addr) { p with reads := p.reads + 1 }

/-- `write32_data`. -/
def write32Data (addr value : BitVec 32) : Driver Unit := fun p =>
  .returned () { p with writes := p.writes ++ [(addr, value)] }

theorem returns_read32Data (dev : Device) (addr : BitVec 32) : (read32Data dev addr).Returns :=
  fun _ => ⟨_, _, rfl⟩

theorem returns_write32Data (addr value : BitVec 32) : (write32Data addr value).Returns :=
  fun _ => ⟨_, _, rfl⟩

/-! ## Registers -/

/-- `get_rdma_per_q_config_addr`. -/
def getRdmaPerQConfigAddr (offset qpid : BitVec 32) : BitVec 32 := offset + 0x100 * (qpid - 1)

/-- `RN_RDMA_BASE_ADDRESS`. -/
def rnRdmaBaseAddress : BitVec 32 := 0x00040000

def rnRdmaGcsrXrnicadconf : BitVec 32 := rnRdmaBaseAddress + 0x00020004
def rnRdmaQcsrQpconfi : BitVec 32 := rnRdmaBaseAddress + 0x00020200
def rnRdmaQcsrRqwptrdbaddi : BitVec 32 := rnRdmaBaseAddress + 0x00020220
def rnRdmaQcsrCqheadi : BitVec 32 := rnRdmaBaseAddress + 0x00020230
def rnRdmaQcsrRqcii : BitVec 32 := rnRdmaBaseAddress + 0x00020234
def rnRdmaQcsrSqpii : BitVec 32 := rnRdmaBaseAddress + 0x00020238
def rnRdmaQcsrSqpsni : BitVec 32 := rnRdmaBaseAddress + 0x00020240
def rnRdmaQcsrLstrqreqi : BitVec 32 := rnRdmaBaseAddress + 0x00020244
def rnRdmaQcsrStatmsni : BitVec 32 := rnRdmaBaseAddress + 0x00020284
def rnRdmaQcsrStatqpi : BitVec 32 := rnRdmaBaseAddress + 0x00020288
def rnRdmaQcsrStatcursqptri : BitVec 32 := rnRdmaBaseAddress + 0x0002028C
def rnRdmaQcsrStatrqpidbi : BitVec 32 := rnRdmaBaseAddress + 0x0002029C

/-- The number the driver has for the `q`-th queue pair of the hardware. -/
def qpidOf (q : BitVec 8) : BitVec 32 := q.setWidth 32 + 1

/-! ## The source -/

section Source

variable (dev : Device) (qpid : BitVec 32)

/-- The exit test of the first loop of `rdma_qp_fatal_recovery`. -/
def statExit (status : BitVec 32) : Bool := (status >>> 9) &&& 0x3 != 0

/-- The test of `destroy_rdma_qp`: the queue pair is not in fatal status. -/
def statIdle (status : BitVec 32) : Bool :=
  (status &&& 0x000000ff == 0) && ((status >>> 9) &&& 0x00000003 == 0x3)

/-- The first loop of `rdma_qp_fatal_recovery`, with a number of polls. -/
def statLoop : Nat → Driver Unit
  | 0 => Driver.waiting
  | fuel + 1 => do
    let status ← read32Data dev (getRdmaPerQConfigAddr rnRdmaQcsrStatqpi qpid)
    if statExit status then pure () else statLoop fuel

/-- The second loop, with the number of mismatches that are left. -/
def indexLoop : Nat → Driver Unit
  | 0 => do
    let cqHead ← read32Data dev (getRdmaPerQConfigAddr rnRdmaQcsrCqheadi qpid)
    let sqPi ← read32Data dev (getRdmaPerQConfigAddr rnRdmaQcsrSqpii qpid)
    if cqHead = sqPi then pure () else Driver.exit
  | n + 1 => do
    let cqHead ← read32Data dev (getRdmaPerQConfigAddr rnRdmaQcsrCqheadi qpid)
    let sqPi ← read32Data dev (getRdmaPerQConfigAddr rnRdmaQcsrSqpii qpid)
    if cqHead = sqPi then pure () else indexLoop n

/-- `rdma_qp_fatal_recovery`. -/
def rdmaQpFatalRecovery (fuel : Nat) : Driver Unit := do
  statLoop dev qpid fuel
  indexLoop dev qpid 100000
  let conf ← read32Data dev (getRdmaPerQConfigAddr rnRdmaQcsrQpconfi qpid)
  write32Data (getRdmaPerQConfigAddr rnRdmaQcsrQpconfi qpid) (conf &&& ~~~1)
  let conf ← read32Data dev (getRdmaPerQConfigAddr rnRdmaQcsrQpconfi qpid)
  write32Data (getRdmaPerQConfigAddr rnRdmaQcsrQpconfi qpid) (conf ||| 0x40)
  let _ ← read32Data dev (getRdmaPerQConfigAddr rnRdmaQcsrQpconfi qpid)

/-- The recovery, unless all is well. -/
def recoverUnless (fuel : Nat) (well : Bool) : Driver Unit :=
  if well then pure () else rdmaQpFatalRecovery dev qpid fuel

/-- The wait of `destroy_rdma_qp`. -/
def waitIdle (fuel : Nat) : Driver Unit := do
  let status ← read32Data dev (getRdmaPerQConfigAddr rnRdmaQcsrStatqpi qpid)
  recoverUnless dev qpid fuel (statIdle status)
  let cqHead ← read32Data dev (getRdmaPerQConfigAddr rnRdmaQcsrCqheadi qpid)
  let sqPi ← read32Data dev (getRdmaPerQConfigAddr rnRdmaQcsrSqpii qpid)
  recoverUnless dev qpid fuel (cqHead == sqPi)

/-- The registers `destroy_rdma_qp` sets to zero, in their order. -/
def resetRegs : List (BitVec 32) :=
  [rnRdmaQcsrRqwptrdbaddi, rnRdmaQcsrSqpii, rnRdmaQcsrCqheadi, rnRdmaQcsrRqcii,
    rnRdmaQcsrStatrqpidbi, rnRdmaQcsrStatcursqptri, rnRdmaQcsrSqpsni, rnRdmaQcsrLstrqreqi,
    rnRdmaQcsrStatmsni]

/-- `write32_data` of zero to each register of a list. -/
def writeZeros : List (BitVec 32) → Driver Unit
  | [] => pure ()
  | offset :: offsets => do
    write32Data (getRdmaPerQConfigAddr offset qpid) 0
    writeZeros offsets

/-- `destroy_rdma_qp`, without the memory it frees. -/
def destroyRdmaQp (fuel : Nat) : Driver Unit := do
  waitIdle dev qpid fuel
  let adconf ← read32Data dev rnRdmaGcsrXrnicadconf
  write32Data rnRdmaGcsrXrnicadconf (adconf ||| 0x00000001)
  let conf ← read32Data dev (getRdmaPerQConfigAddr rnRdmaQcsrQpconfi qpid)
  write32Data (getRdmaPerQConfigAddr rnRdmaQcsrQpconfi qpid) (conf &&& 0xfffffffe)
  writeZeros qpid resetRegs
  let conf ← read32Data dev (getRdmaPerQConfigAddr rnRdmaQcsrQpconfi qpid)
  let _ ← read32Data dev (getRdmaPerQConfigAddr rnRdmaQcsrCqheadi qpid)
  write32Data (getRdmaPerQConfigAddr rnRdmaQcsrQpconfi qpid) (conf ||| 0x00000040)
  let _ ← read32Data dev (getRdmaPerQConfigAddr rnRdmaQcsrCqheadi qpid)
  let adconf ← read32Data dev rnRdmaGcsrXrnicadconf
  write32Data rnRdmaGcsrXrnicadconf (adconf &&& 0xfffffffe)
  let _ ← read32Data dev (getRdmaPerQConfigAddr rnRdmaQcsrCqheadi qpid)

end Source

/-! ## Waiting -/

section Wait

variable {dev : Device} {qpid : BitVec 32} {fuel : Nat} {p p' : Progress}

/-- Who is not in fatal status leaves the first loop. -/
theorem statExit_of_statIdle {status : BitVec 32} (h : statIdle status = true) :
    statExit status = true := by
  simp only [statIdle, Bool.and_eq_true, beq_iff_eq] at h
  rw [statExit, h.2]
  decide

/-- The first loop ends only with an answer that has one of the two bits. -/
theorem statExit_of_statLoop (h : statLoop dev qpid fuel p = .returned () p') :
    ∃ t, statExit (dev t (getRdmaPerQConfigAddr rnRdmaQcsrStatqpi qpid)) = true := by
  induction fuel generalizing p with
  | zero => cases h
  | succ fuel ih =>
    rw [statLoop, Driver.bind_eq_returned] at h
    obtain ⟨status, p₁, hread, hrest⟩ := h
    cases hread
    split_ifs at hrest with hexit
    · exact ⟨p.reads, hexit⟩
    · exact ih hrest

/-- Neither does the call without such an answer. -/
theorem statExit_of_destroy (h : destroyRdmaQp dev qpid fuel p = .returned () p') :
    ∃ t, statExit (dev t (getRdmaPerQConfigAddr rnRdmaQcsrStatqpi qpid)) = true := by
  obtain ⟨_, p₁, hwait, -⟩ := Driver.bind_eq_returned.mp h
  obtain ⟨status, p₂, hread, hrest⟩ := Driver.bind_eq_returned.mp hwait
  obtain ⟨_, p₃, hrecover, -⟩ := Driver.bind_eq_returned.mp hrest
  cases hread
  unfold recoverUnless at hrecover
  split_ifs at hrecover with hidle
  · exact ⟨p.reads, statExit_of_statIdle hidle⟩
  · obtain ⟨_, p₄, hloop, -⟩ := Driver.bind_eq_returned.mp hrecover
    exact statExit_of_statLoop hloop

/-- One read of `STATQPi` is enough if it has one of the two bits. -/
theorem statLoop_one
    (h : statExit (dev p.reads (getRdmaPerQConfigAddr rnRdmaQcsrStatqpi qpid)) = true) :
    statLoop dev qpid 1 p = .returned () { p with reads := p.reads + 1 } := by
  show (if statExit (dev p.reads (getRdmaPerQConfigAddr rnRdmaQcsrStatqpi qpid)) then pure ()
    else statLoop dev qpid 0 : Driver Unit) _ = _
  rw [if_pos h]
  rfl

/-- One pair of reads is enough if they agree. -/
theorem indexLoop_agree (n : Nat)
    (h : dev p.reads (getRdmaPerQConfigAddr rnRdmaQcsrCqheadi qpid) =
      dev (p.reads + 1) (getRdmaPerQConfigAddr rnRdmaQcsrSqpii qpid)) :
    indexLoop dev qpid n p = .returned () { p with reads := p.reads + 2 } := by
  cases n with
  | zero =>
    show (if _ then pure () else Driver.exit : Driver Unit) _ = _
    rw [if_pos h]
    rfl
  | succ n =>
    show (if _ then pure () else indexLoop dev qpid n : Driver Unit) _ = _
    rw [if_pos h]
    rfl

/-- The recovery makes six reads. -/
theorem recovery_returns
    (hstat : statExit (dev p.reads (getRdmaPerQConfigAddr rnRdmaQcsrStatqpi qpid)) = true)
    (hindex : dev (p.reads + 1) (getRdmaPerQConfigAddr rnRdmaQcsrCqheadi qpid) =
      dev (p.reads + 2) (getRdmaPerQConfigAddr rnRdmaQcsrSqpii qpid)) :
    ∃ p', rdmaQpFatalRecovery dev qpid 1 p = .returned () p' ∧ p'.reads = p.reads + 6 := by
  have hloop := statLoop_one hstat
  have hagree : indexLoop dev qpid 100000 { p with reads := p.reads + 1 } =
      .returned () { p with reads := p.reads + 3 } := indexLoop_agree 100000 hindex
  refine ⟨_, Driver.bind_eq_returned.mpr ⟨(), _, hloop, Driver.bind_eq_returned.mpr
    ⟨(), _, hagree, rfl⟩⟩, rfl⟩

/-- How many reads the wait makes for a queue pair that has nothing left to do: three, and six
more if it does not like the status. -/
def waitReads (status : BitVec 32) : Nat := if statIdle status then 3 else 9

/-- With one poll the wait is over, if the answers to its own reads are as it wants them. -/
theorem waitIdle_returns {x status : BitVec 32}
    (hstat : ∀ t, dev t (getRdmaPerQConfigAddr rnRdmaQcsrStatqpi qpid) = status)
    (hexit : statExit status = true)
    (hhead : ∀ t < waitReads status, dev t (getRdmaPerQConfigAddr rnRdmaQcsrCqheadi qpid) = x)
    (hpi : ∀ t < waitReads status, dev t (getRdmaPerQConfigAddr rnRdmaQcsrSqpii qpid) = x) :
    ∃ p', waitIdle dev qpid 1 .start = .returned () p' := by
  -- whatever comes before, the last two reads of the wait agree
  have hlast {p : Progress} (hp : p.reads + 1 < waitReads status) :
      ∃ p', (do
        let cqHead ← read32Data dev (getRdmaPerQConfigAddr rnRdmaQcsrCqheadi qpid)
        let sqPi ← read32Data dev (getRdmaPerQConfigAddr rnRdmaQcsrSqpii qpid)
        recoverUnless dev qpid 1 (cqHead == sqPi)) p = .returned () p' := by
    refine ⟨{ p with reads := p.reads + 2 }, ?_⟩
    show recoverUnless dev qpid 1 (_ == _) _ = _
    rw [hhead _ (by omega), hpi _ hp, beq_self_eq_true]
    rfl
  have hbegin {p₁ : Progress} (hrecover : recoverUnless dev qpid 1 (statIdle status)
      { Progress.start with reads := 1 } = .returned () p₁) (hp : p₁.reads + 1 < waitReads status) :
      ∃ p', waitIdle dev qpid 1 .start = .returned () p' := by
    obtain ⟨p', hp'⟩ := hlast hp
    exact ⟨p', Driver.bind_eq_returned.mpr ⟨_, _, congrArg (Result.returned · _) (hstat 0),
      Driver.bind_eq_returned.mpr ⟨(), p₁, hrecover, hp'⟩⟩⟩
  cases hidle : statIdle status with
  | true =>
    rw [hidle] at hbegin
    refine hbegin rfl ?_
    rw [waitReads, hidle]
    decide
  | false =>
    have hreads : waitReads status = 9 := by rw [waitReads, hidle, if_neg Bool.false_ne_true]
    rw [hidle] at hbegin
    rw [hreads] at hhead hpi hbegin
    obtain ⟨p₁, hrecover, hp₁⟩ : ∃ p', rdmaQpFatalRecovery dev qpid 1
        { Progress.start with reads := 1 } = .returned () p' ∧ p'.reads = 7 :=
      recovery_returns (by rw [hstat]; exact hexit)
        ((hhead 2 (by decide)).trans (hpi 3 (by decide)).symm)
    refine hbegin hrecover ?_
    rw [hp₁]
    decide

theorem returns_writeZeros (offsets : List (BitVec 32)) : (writeZeros qpid offsets).Returns := by
  induction offsets with
  | nil => exact Driver.returns_pure ()
  | cons offset offsets ih => exact (returns_write32Data _ _).bind fun _ => ih

/-- Behind the wait nothing holds the call up. -/
theorem returns_destroy {p : Progress} (h : waitIdle dev qpid fuel .start = .returned () p) :
    ∃ p', destroyRdmaQp dev qpid fuel .start = .returned () p' := by
  have hrest := ((returns_read32Data dev rnRdmaGcsrXrnicadconf).bind fun adconf =>
    (returns_write32Data rnRdmaGcsrXrnicadconf (adconf ||| 0x00000001)).bind fun _ =>
    (returns_read32Data dev (getRdmaPerQConfigAddr rnRdmaQcsrQpconfi qpid)).bind fun conf =>
    (returns_write32Data (getRdmaPerQConfigAddr rnRdmaQcsrQpconfi qpid)
      (conf &&& 0xfffffffe)).bind fun _ =>
    (@returns_writeZeros qpid resetRegs).bind fun _ =>
    (returns_read32Data dev (getRdmaPerQConfigAddr rnRdmaQcsrQpconfi qpid)).bind fun conf =>
    (returns_read32Data dev (getRdmaPerQConfigAddr rnRdmaQcsrCqheadi qpid)).bind fun _ =>
    (returns_write32Data (getRdmaPerQConfigAddr rnRdmaQcsrQpconfi qpid)
      (conf ||| 0x00000040)).bind fun _ =>
    (returns_read32Data dev (getRdmaPerQConfigAddr rnRdmaQcsrCqheadi qpid)).bind fun _ =>
    (returns_read32Data dev rnRdmaGcsrXrnicadconf).bind fun adconf =>
    (returns_write32Data rnRdmaGcsrXrnicadconf (adconf &&& 0xfffffffe)).bind fun _ =>
    (returns_read32Data dev (getRdmaPerQConfigAddr rnRdmaQcsrCqheadi qpid)).bind fun _ =>
    Driver.returns_pure ()) p
  obtain ⟨_, p', hp'⟩ := hrest
  exact ⟨p', Driver.bind_eq_returned.mpr ⟨(), p, h, hp'⟩⟩

end Wait

/-! ## Addresses -/

/-- The address of a register of a queue pair, as the hardware takes it apart. -/
def qpRegAddr (q : BitVec 8) (low : BitVec 8) : BitVec 18 :=
  (0x202 + q.setWidth 10 : BitVec 10) ++ low

/-- What the registers see of an address of the driver. -/
def csrAddr (addr : BitVec 32) : BitVec 18 := addr.setWidth 18

section Fields

variable (q low : BitVec 8)

theorem toNat_qpRegAddr : (qpRegAddr q low).toNat = (0x202 + q.toNat) * 256 + low.toNat := by
  have hq := q.isLt
  have hlow := low.isLt
  rw [qpRegAddr, BitVec.toNat_append, ← Nat.shiftLeft_add_eq_or_of_lt hlow, Nat.shiftLeft_eq]
  simp only [BitVec.ofNat_eq_ofNat, BitVec.toNat_add, BitVec.toNat_setWidth, BitVec.toNat_ofNat]
  omega

/-- The driver counts the queue pairs from 1, and the hardware from 0. -/
theorem csrAddr_perQ :
    csrAddr (getRdmaPerQConfigAddr (rnRdmaBaseAddress + (0x00020200 + low.setWidth 32))
      (qpidOf q)) = qpRegAddr q low := by
  apply BitVec.eq_of_toNat_eq
  have hq := q.isLt
  have hlow := low.isLt
  rw [toNat_qpRegAddr]
  simp only [csrAddr, getRdmaPerQConfigAddr, qpidOf, rnRdmaBaseAddress, BitVec.ofNat_eq_ofNat,
    BitVec.add_sub_cancel, BitVec.toNat_setWidth, BitVec.toNat_add, BitVec.toNat_mul,
    BitVec.toNat_ofNat]
  omega

theorem region_qpRegAddr :
    (qpRegAddr q low).getLsbD 17 = true ∧ 0x202 ≤ (qpRegAddr q low).extractLsb' 8 10 := by
  have hq := q.isLt
  have hlow := low.isLt
  constructor
  · rw [BitVec.getLsbD, toNat_qpRegAddr, Nat.testBit_eq_decide_div_mod_eq, decide_eq_true_eq]
    omega
  · rw [BitVec.le_def, BitVec.extractLsb'_toNat, toNat_qpRegAddr, Nat.shiftRight_eq_div_pow]
    simp only [BitVec.ofNat_eq_ofNat, BitVec.toNat_ofNat]
    omega

theorem qpAddr_qpRegAddr : qpAddr (qpRegAddr q low) = q := by
  apply BitVec.eq_of_toNat_eq
  have hq := q.isLt
  have hlow := low.isLt
  rw [qpAddr, BitVec.toNat_setWidth, BitVec.toNat_sub, BitVec.extractLsb'_toNat, toNat_qpRegAddr,
    Nat.shiftRight_eq_div_pow]
  simp only [BitVec.ofNat_eq_ofNat, BitVec.toNat_ofNat]
  omega

theorem setWidth_qpRegAddr : (qpRegAddr q low).setWidth 8 = low := by
  apply BitVec.eq_of_toNat_eq
  have hlow := low.isLt
  rw [BitVec.toNat_setWidth, toNat_qpRegAddr]
  omega

theorem not_numQp_le : ¬ numQp ≤ (qpAddr (qpRegAddr q low)).toNat := by
  rw [qpAddr_qpRegAddr, numQp, not_le]
  exact q.isLt

/-- A read of a register of a queue pair. -/
theorem readValue_qpRegAddr (regs : RegFile) :
    readValue regs (qpRegAddr q low) = ((qpReadTable.lookup low).map (regs.qp q)).getD 0 := by
  obtain ⟨hpd, hqp⟩ := region_qpRegAddr q low
  rw [readValue, readMux, if_neg (by simp [hpd]), if_pos hqp, if_neg (not_numQp_le q low),
    setWidth_qpRegAddr, qpAddr_qpRegAddr]

/-- A write to one. -/
theorem decode_qpRegAddr (data : BitVec 32) (strb : BitVec 4) :
    (decode (qpRegAddr q low) data strb).writes =
      (((qpWriteTable.lookup low).map Prod.fst).getD []).map fun r => ⟨2, r, q, strb, data⟩ := by
  obtain ⟨hpd, hqp⟩ := region_qpRegAddr q low
  rw [decode, if_neg (by simp [hpd]), if_pos hqp, decodeQp, if_neg (not_numQp_le q low),
    setWidth_qpRegAddr, qpAddr_qpRegAddr]
  cases qpWriteTable.lookup low <;> simp [Decode.refused]

end Fields

/-! ## The wait -/

/-- The device answers from the registers: the `t`-th read comes after the edges `es t`. -/
def deviceOf (regs : RegFile) (es : Nat → List Csr.Edge) : Device := fun t addr =>
  readValue ((csr regs).run (es t)).port.regs (csrAddr addr)

section Wait

variable {regs : RegFile} {es : Nat → List Csr.Edge} {q : BitVec 8}

/-- What the driver reads. -/
theorem deviceOf_perQ (t : Nat) (low : BitVec 8) {r : RegIdx}
    (hr : qpReadTable.lookup low = some r) :
    deviceOf regs es t (getRdmaPerQConfigAddr
      (rnRdmaBaseAddress + (0x00020200 + low.setWidth 32)) (qpidOf q)) =
      ((csr regs).run (es t)).port.regs.qp q r := by
  rw [deviceOf, csrAddr_perQ, readValue_qpRegAddr, hr]
  rfl

/-- `STATQPi` is what it was. -/
theorem deviceOf_statqpi (t : Nat) :
    deviceOf regs es t (getRdmaPerQConfigAddr rnRdmaQcsrStatqpi (qpidOf q)) =
      regs.qp q statqpiIdx :=
  (deviceOf_perQ t 0x88 rfl).trans (qp_run_of_unwritten (by decide) regs (es t) q)

/-- The AXI-Lite machine answers with the same value. -/
theorem rData_statqpi {es : List Csr.Edge}
    (hst : ((csr regs).run es).axil.rwState = .rValid)
    (haddr : ((csr regs).run es).axil.rAddr =
      csrAddr (getRdmaPerQConfigAddr rnRdmaQcsrStatqpi (qpidOf q))) :
    ((csr regs).run es).axil.rData = regs.qp q statqpiIdx := by
  refine rData_run_of_unwritten (by decide) regs es (fun f => ?_) hst haddr
  have haddr' : csrAddr (getRdmaPerQConfigAddr rnRdmaQcsrStatqpi (qpidOf q)) = qpRegAddr q 0x88 :=
    csrAddr_perQ q 0x88
  rw [haddr', readValue_qpRegAddr, show qpReadTable.lookup 0x88 = some statqpiIdx from rfl]
  rfl

/-- **Destroying terminates iff the status was there from the start.**  Let the RAMs come up
with any contents, and let the driver read after any runs of the two clock domains.  At the
reads of its wait the queue pair has nothing left to do; behind the wait the call clears
`SQPIi` itself.  Then `destroy_rdma_qp` returns iff `STATQPi` came up with one of the bits 10
and 9. -/
theorem destroy_returns_iff (regs : RegFile) (es : Nat → List Csr.Edge) (q : BitVec 8)
    (x : BitVec 32)
    (hidle : ∀ t < waitReads (regs.qp q statqpiIdx),
      ((csr regs).run (es t)).port.regs.qp q cqheadiIdx = x ∧
        ((csr regs).run (es t)).port.regs.qp q sqpiiIdx = x) :
    (∃ fuel p, destroyRdmaQp (deviceOf regs es) (qpidOf q) fuel .start = .returned () p) ↔
      statExit (regs.qp q statqpiIdx) = true := by
  constructor
  · rintro ⟨fuel, p, h⟩
    obtain ⟨t, ht⟩ := statExit_of_destroy h
    rwa [deviceOf_statqpi] at ht
  · intro hexit
    obtain ⟨p, hwait⟩ : ∃ p, waitIdle (deviceOf regs es) (qpidOf q) 1 .start = .returned () p :=
      waitIdle_returns (fun _ => deviceOf_statqpi _) hexit
        (fun t ht => (deviceOf_perQ t 0x30 rfl).trans (hidle t ht).1)
        (fun t ht => (deviceOf_perQ t 0x38 rfl).trans (hidle t ht).2)
    exact ⟨1, returns_destroy hwait⟩

/-- All registers zero, and the status of a queue pair that has nothing to do. -/
def withStatus : RegFile :=
  { RegFile.zero with qp := fun _ r => if r = statqpiIdx then 0x600 else 0 }

/-- The cycles of one write of the host without delays. -/
def writeCycles (w : HostWrite) : List AxilIn :=
  [⟨none, some w.1, none, true, true, true⟩, ⟨none, none, some (w.2.1, w.2.2), true, true, true⟩] ++
    List.replicate 4 ⟨none, none, none, true, true, true⟩

/-- The host writes `SQPIi` of the first queue pair. -/
def ringSqpii (value : BitVec 32) : List Csr.Edge :=
  (writeCycles (qpRegAddr 0 0x38, value, 0xf)).map .axil

/-- The edges before each read: one element is posted and completed, and behind the wait the
call clears `SQPIi`. -/
def usedQueuePair (t : Nat) : List Csr.Edge :=
  ringSqpii 1 ++
    ({ RegisterPort.Input.quiet with wb := { RegisterPort.WbIn.none with cqheadi := some 1 } } ::
      List.replicate 3 RegisterPort.Input.quiet).map
        (.axis ⟨none, none, none, true, true, true⟩ ·) ++
    if t < 3 then [] else ringSqpii 0

theorem destroy_returns_withStatus :
    (∃ fuel p, destroyRdmaQp (deviceOf withStatus usedQueuePair) (qpidOf 0) fuel .start =
      .returned () p) ∧
    ((csr withStatus).run (usedQueuePair 0)).port.regs.qp 0 sqpiiIdx = 1 ∧
    ((csr withStatus).run (usedQueuePair 3)).port.regs.qp 0 sqpiiIdx = 0 :=
  ⟨(destroy_returns_iff withStatus usedQueuePair 0 1 (by decide +kernel)).mpr (by decide),
    by decide +kernel, by decide +kernel⟩

/-- RAMs that come up as zeros: the queue pair has nothing to do, and the call polls for
good. -/
theorem destroy_waits : ¬ ∃ fuel p, destroyRdmaQp (deviceOf RegFile.zero fun _ => []) (qpidOf 0)
    fuel .start = .returned () p := by
  rintro ⟨fuel, p, h⟩
  obtain ⟨t, ht⟩ := statExit_of_destroy h
  rw [deviceOf_statqpi] at ht
  revert ht
  decide

end Wait

/-! ## The reset -/

/-- A write of the driver, as the AXI-Lite machine gets it. -/
def hostWrite (w : BitVec 32 × BitVec 32) : HostWrite := (csrAddr w.1, w.2, 0xf)

/-- Whenever the call returns, what it has written satisfies `P`. -/
def Driver.Emits {α : Type} (x : Driver α) (P : List (BitVec 32 × BitVec 32) → Prop) : Prop :=
  ∀ p a p', x p = .returned a p' → ∃ ws, P ws ∧ p'.writes = p.writes ++ ws

section Emits

variable {α β : Type} {x : Driver α} {f : α → Driver β}
  {P Q : List (BitVec 32 × BitVec 32) → Prop}

theorem emits_pure {a : α} (h : P []) : (pure a : Driver α).Emits P := by
  intro p b p' hret
  cases hret
  exact ⟨[], h, (List.append_nil _).symm⟩

theorem Driver.Emits.bind (hx : x.Emits P)
    (hf : ∀ u, P u → ∀ a, (f a).Emits fun v => Q (u ++ v)) : (x >>= f).Emits Q := by
  intro p b p'' hret
  obtain ⟨a, p', hxp, hfp⟩ := Driver.bind_eq_returned.mp hret
  obtain ⟨u, hu, hp'⟩ := hx p a p' hxp
  obtain ⟨v, hv, hp''⟩ := hf u hu a p' b p'' hfp
  exact ⟨u ++ v, hv, by rw [hp'', hp', List.append_assoc]⟩

theorem emits_read {dev : Device} {addr : BitVec 32} {g : BitVec 32 → Driver β}
    (hg : ∀ v, (g v).Emits P) : (read32Data dev addr >>= g).Emits P := by
  intro p b p'' hret
  obtain ⟨v, p', hread, hrest⟩ := Driver.bind_eq_returned.mp hret
  cases hread
  obtain ⟨ws, hws, hp''⟩ := hg _ _ b p'' hrest
  exact ⟨ws, hws, hp''⟩

theorem emits_write {addr value : BitVec 32} {g : Unit → Driver β}
    (hg : (g ()).Emits fun ws => P ((addr, value) :: ws)) :
    (write32Data addr value >>= g).Emits P := by
  intro p b p'' hret
  obtain ⟨_, p', hwrite, hrest⟩ := Driver.bind_eq_returned.mp hret
  cases hwrite
  obtain ⟨ws, hws, hp''⟩ := hg _ b p'' hrest
  exact ⟨(addr, value) :: ws, hws, by rw [hp'']; simp⟩

end Emits

/-- Every write of `ws` goes to `QPCONFi`. -/
def ToQpconf (qpid : BitVec 32) (ws : List (BitVec 32 × BitVec 32)) : Prop :=
  ∀ w ∈ ws, w.1 = getRdmaPerQConfigAddr rnRdmaQcsrQpconfi qpid

section Writes

variable (dev : Device) (qpid : BitVec 32) (fuel : Nat)

theorem emits_statLoop : (statLoop dev qpid fuel).Emits (· = []) := by
  induction fuel with
  | zero =>
    intro p a p' h
    cases h
  | succ fuel ih =>
    refine emits_read fun status => ?_
    split_ifs
    · exact emits_pure rfl
    · exact ih

theorem emits_indexLoop (n : Nat) : (indexLoop dev qpid n).Emits (· = []) := by
  induction n with
  | zero =>
    refine emits_read fun cqHead => emits_read fun sqPi => ?_
    split_ifs
    · exact emits_pure rfl
    · intro p a p' h
      cases h
  | succ n ih =>
    refine emits_read fun cqHead => emits_read fun sqPi => ?_
    split_ifs
    · exact emits_pure rfl
    · exact ih

/-- The recovery writes nothing but `QPCONFi`. -/
theorem emits_recoverUnless (well : Bool) :
    (recoverUnless dev qpid fuel well).Emits (ToQpconf qpid) := by
  unfold recoverUnless
  split_ifs
  · exact emits_pure (by simp [ToQpconf])
  · have hconf : (do
        let conf ← read32Data dev (getRdmaPerQConfigAddr rnRdmaQcsrQpconfi qpid)
        write32Data (getRdmaPerQConfigAddr rnRdmaQcsrQpconfi qpid) (conf &&& ~~~1)
        let conf ← read32Data dev (getRdmaPerQConfigAddr rnRdmaQcsrQpconfi qpid)
        write32Data (getRdmaPerQConfigAddr rnRdmaQcsrQpconfi qpid) (conf ||| 0x40)
        let _ ← read32Data dev (getRdmaPerQConfigAddr rnRdmaQcsrQpconfi qpid) :
          Driver Unit).Emits (ToQpconf qpid) := by
      refine emits_read fun _ => emits_write (emits_read fun _ => emits_write
        (emits_read fun _ => emits_pure ?_))
      simp [ToQpconf]
    refine (emits_statLoop dev qpid fuel).bind fun u hu _ => ?_
    refine (emits_indexLoop dev qpid 100000).bind fun v hv _ => ?_
    rw [hu, hv]
    exact hconf

theorem emits_waitIdle : (waitIdle dev qpid fuel).Emits (ToQpconf qpid) := by
  refine emits_read fun _ => (emits_recoverUnless dev qpid fuel _).bind fun u hu _ => ?_
  refine emits_read fun _ => emits_read fun _ p a p' h => ?_
  obtain ⟨v, hv, hp'⟩ := emits_recoverUnless dev qpid fuel _ p a p' h
  refine ⟨v, fun w hw => ?_, hp'⟩
  rcases List.mem_append.mp hw with h | h
  · exact hu w h
  · exact hv w h

/-- The zeros. -/
def zeros (qpid : BitVec 32) (offsets : List (BitVec 32)) : List (BitVec 32 × BitVec 32) :=
  offsets.map fun offset => (getRdmaPerQConfigAddr offset qpid, 0)

theorem emits_writeZeros (offsets : List (BitVec 32)) :
    (writeZeros qpid offsets).Emits (· = zeros qpid offsets) := by
  induction offsets with
  | nil => exact emits_pure rfl
  | cons offset offsets ih =>
    refine emits_write fun p a p' h => ?_
    obtain ⟨ws, rfl, hp'⟩ := ih p a p' h
    exact ⟨_, rfl, hp'⟩

/-- What the call writes: `QPCONFi` while it waits, then the zeros between two pairs of
configuration writes. -/
theorem emits_destroy :
    (destroyRdmaQp dev qpid fuel).Emits fun ws => ∃ pre a b c d, ToQpconf qpid pre ∧
      ws = pre ++ [(rnRdmaGcsrXrnicadconf, a),
          (getRdmaPerQConfigAddr rnRdmaQcsrQpconfi qpid, b)] ++ zeros qpid resetRegs ++
        [(getRdmaPerQConfigAddr rnRdmaQcsrQpconfi qpid, c), (rnRdmaGcsrXrnicadconf, d)] := by
  refine (emits_waitIdle dev qpid fuel).bind fun pre hpre _ => ?_
  refine emits_read fun a => emits_write (emits_read fun b => emits_write ?_)
  refine (emits_writeZeros qpid resetRegs).bind fun u hu _ => ?_
  refine emits_read fun c => emits_read fun _ => emits_write (emits_read fun _ =>
    emits_read fun d => emits_write (emits_read fun _ => emits_pure ?_))
  exact ⟨pre, a ||| 1, b &&& 0xfffffffe, c ||| 0x40, d &&& 0xfffffffe, hpre, by rw [hu]; simp⟩

end Writes

section Reset

variable {q : BitVec 8} {r : RegIdx}

/-- The registers that take a value written to an address. -/
def written (low : BitVec 8) : List RegIdx := ((qpWriteTable.lookup low).map Prod.fst).getD []

/-- What a write to a register of a queue pair does to the registers of the same queue
pair. -/
theorem qp_applyWrite_perQ (regs : RegFile) (low : BitVec 8) (data : BitVec 32) :
    (applyWrite regs (qpRegAddr q low, data, 0xf)).qp q r =
      if r ∈ written low then data else regs.qp q r := by
  have huniform : ∀ c ∈ (decode (qpRegAddr q low) data 0xf).writes,
      c.wstrb = 0xf ∧ c.data = data := by
    rw [decode_qpRegAddr]
    intro c hc
    obtain ⟨r', -, rfl⟩ := List.mem_map.mp hc
    exact ⟨rfl, rfl⟩
  have hread := RegFile.read_foldl_write huniform regs (.qp q r)
  have hmem : some (RegFile.Cell.qp q r) ∈
      (decode (qpRegAddr q low) data 0xf).writes.map RegFile.target ↔ r ∈ written low := by
    rw [decode_qpRegAddr, List.map_map, List.mem_map, written]
    simp [RegFile.target]
  simp only [hmem, mergeBytes_all] at hread
  exact hread

/-- A write to `XRNICADCONF` does nothing to them. -/
theorem qp_applyWrite_adconf (regs : RegFile) (data : BitVec 32) :
    (applyWrite regs (hostWrite (rnRdmaGcsrXrnicadconf, data))).qp q r = regs.qp q r := by
  have hdecode : (decode (csrAddr rnRdmaGcsrXrnicadconf) data 0xf).writes =
      [⟨0, 0, 1, 0xf, data⟩] := rfl
  rw [applyWrite, hostWrite, hdecode]
  exact (spares_of_region (c := ⟨0, 0, 1, 0xf, data⟩) (by simp)).qp_write regs q

/-- The addresses of the registers that are cleared, by their low bytes. -/
def resetLows : List (BitVec 8) := [0x20, 0x38, 0x30, 0x34, 0x9C, 0x8C, 0x40, 0x44, 0x84]

theorem hostWrite_perQ (low : BitVec 8) (data : BitVec 32) :
    hostWrite (getRdmaPerQConfigAddr (rnRdmaBaseAddress + (0x00020200 + low.setWidth 32))
      (qpidOf q), data) = (qpRegAddr q low, data, 0xf) := by
  rw [hostWrite, csrAddr_perQ]

/-- The zeros clear what the write decoder knows. -/
theorem qp_zeros (regs : RegFile) (lows : List (BitVec 8)) :
    (((zeros (qpidOf q) (lows.map fun low =>
        rnRdmaBaseAddress + (0x00020200 + low.setWidth 32))).map hostWrite).foldl
      applyWrite regs).qp q r = if ∃ low ∈ lows, r ∈ written low then 0 else regs.qp q r := by
  induction lows generalizing regs with
  | nil => simp [zeros]
  | cons low lows ih =>
    simp only [zeros, List.map_cons, List.foldl_cons, hostWrite_perQ] at ih ⊢
    rw [ih, qp_applyWrite_perQ]
    by_cases hlow : r ∈ written low <;> simp [hlow]

theorem qp_qpconf (hr : r ≠ qpconfiIdx) (regs : RegFile) {ws : List (BitVec 32 × BitVec 32)}
    (hws : ToQpconf (qpidOf q) ws) :
    ((ws.map hostWrite).foldl applyWrite regs).qp q r = regs.qp q r := by
  induction ws generalizing regs with
  | nil => rfl
  | cons w ws ih =>
    obtain ⟨addr, data⟩ := w
    have haddr : addr = getRdmaPerQConfigAddr rnRdmaQcsrQpconfi (qpidOf q) :=
      hws _ List.mem_cons_self
    have hw : hostWrite (addr, data) = (qpRegAddr q 0x00, data, 0xf) := by
      rw [haddr]
      exact hostWrite_perQ 0x00 data
    rw [List.map_cons, List.foldl_cons, ih _ (fun w hw => hws w (List.mem_cons_of_mem _ hw)), hw,
      qp_applyWrite_perQ, if_neg]
    rw [show written 0x00 = [qpconfiIdx] from rfl, List.mem_singleton]
    exact hr

/-- What is left of the other registers of the queue pair. -/
theorem qp_destroy (hr : r ≠ qpconfiIdx) (regs : RegFile) {dev : Device} {fuel : Nat}
    {p : Progress} (hret : destroyRdmaQp dev (qpidOf q) fuel .start = .returned () p) :
    ((p.writes.map hostWrite).foldl applyWrite regs).qp q r =
      if ∃ low ∈ resetLows, r ∈ written low then 0 else regs.qp q r := by
  obtain ⟨ws, ⟨pre, a, b, c, d, hpre, hws⟩, hp⟩ := emits_destroy dev (qpidOf q) fuel _ _ _ hret
  rw [hp, hws]
  have hconf (data : BitVec 32) (regs : RegFile) :
      (applyWrite regs (hostWrite (getRdmaPerQConfigAddr rnRdmaQcsrQpconfi (qpidOf q), data))).qp
        q r = regs.qp q r := by
    have hone : ToQpconf (qpidOf q)
        [(getRdmaPerQConfigAddr rnRdmaQcsrQpconfi (qpidOf q), data)] := by simp [ToQpconf]
    exact qp_qpconf hr regs hone
  simp only [Progress.start, List.nil_append, List.map_append, List.map_cons, List.map_nil,
    List.foldl_append, List.foldl_cons, List.foldl_nil, qp_applyWrite_adconf, hconf]
  rw [show resetRegs = resetLows.map fun low =>
    rnRdmaBaseAddress + (0x00020200 + low.setWidth 32) from rfl, qp_zeros]
  simp only [qp_applyWrite_adconf, hconf, qp_qpconf hr regs hpre]

/-- Where the call writes. -/
theorem mem_writes_destroy {dev : Device} {qpid : BitVec 32} {fuel : Nat} {p : Progress}
    (hret : destroyRdmaQp dev qpid fuel .start = .returned () p) {w : BitVec 32 × BitVec 32}
    (hw : w ∈ p.writes) : w.1 = rnRdmaGcsrXrnicadconf ∨ ∃ low ∈ 0x00 :: resetLows,
      w.1 = getRdmaPerQConfigAddr (rnRdmaBaseAddress + (0x00020200 + low.setWidth 32)) qpid := by
  obtain ⟨ws, ⟨pre, a, b, c, d, hpre, hws⟩, hp⟩ := emits_destroy dev qpid fuel _ _ _ hret
  have hconf : w.1 = getRdmaPerQConfigAddr rnRdmaQcsrQpconfi qpid → ∃ low ∈ 0x00 :: resetLows,
      w.1 = getRdmaPerQConfigAddr (rnRdmaBaseAddress + (0x00020200 + low.setWidth 32)) qpid :=
    fun h => ⟨0x00, List.mem_cons_self, h⟩
  rw [hp, hws, Progress.start, List.nil_append] at hw
  simp only [List.mem_append, List.mem_cons, List.not_mem_nil, or_false] at hw
  rcases hw with ((hw | rfl | rfl) | hw) | rfl | rfl
  · exact Or.inr (hconf (hpre w hw))
  · exact Or.inl rfl
  · exact Or.inr (hconf rfl)
  · obtain ⟨offset, hoffset, rfl⟩ := List.mem_map.mp hw
    rw [show resetRegs = resetLows.map fun low =>
      rnRdmaBaseAddress + (0x00020200 + low.setWidth 32) from rfl] at hoffset
    obtain ⟨low, hlow, rfl⟩ := List.mem_map.mp hoffset
    exact Or.inr ⟨low, List.mem_cons_of_mem _ hlow, rfl⟩
  · exact Or.inr (hconf rfl)
  · exact Or.inl rfl

/-- A register that is neither `QPCONFi` nor among those that are cleared is left alone, in every
queue pair. -/
theorem qp_destroy_of_not_mem (hr : ∀ low ∈ 0x00 :: resetLows, r ∉ written low) (regs : RegFile)
    {dev : Device} {fuel : Nat} {p : Progress}
    (hret : destroyRdmaQp dev (qpidOf q) fuel .start = .returned () p) (q' : BitVec 8) :
    ((p.writes.map hostWrite).foldl applyWrite regs).qp q' r = regs.qp q' r := by
  have hkeep : ∀ w ∈ p.writes, ∀ regs : RegFile,
      (applyWrite regs (hostWrite w)).qp q' r = regs.qp q' r := by
    rintro ⟨addr, data⟩ hw regs
    rcases mem_writes_destroy hret hw with rfl | ⟨low, hlow, rfl⟩
    · exact qp_applyWrite_adconf regs data
    · rw [hostWrite_perQ, applyWrite, decode_qpRegAddr]
      refine qp_foldl_write (fun c hc => ?_) regs q'
      obtain ⟨r', hr', rfl⟩ := List.mem_map.mp hc
      refine spares_of_bramIdx fun heq => hr low hlow ?_
      rwa [← show r' = r from heq]
  generalize p.writes = ws at hkeep
  induction ws generalizing regs with
  | nil => rfl
  | cons w ws ih =>
    rw [List.map_cons, List.foldl_cons, ih _ fun w' hw' => hkeep w' (List.mem_cons_of_mem w hw')]
    exact hkeep w List.mem_cons_self regs

end Reset

/-! ## The next owner -/

/-- The registers that the next owner of the number takes over, with their low bytes. -/
def ownerRegs : List (BitVec 8 × RegIdx) :=
  [(0x38, sqpiiIdx), (0x30, cqheadiIdx), (0x34, rqciiIdx), (0x9C, statrqpidbiIdx),
    (0x8C, statcursqptriIdx), (0x40, sqpsniIdx), (0x44, lstrqreqiIdx), (0x84, statmsniIdx)]

/-- All of them read zero. -/
def Clean (regs : RegFile) (q : BitVec 8) : Prop :=
  ∀ e ∈ ownerRegs, readValue regs (csrAddr (getRdmaPerQConfigAddr
    (rnRdmaBaseAddress + (0x00020200 + e.1.setWidth 32)) (qpidOf q))) = 0

theorem clean_iff_qp (regs : RegFile) (q : BitVec 8) :
    Clean regs q ↔ ∀ e ∈ ownerRegs, regs.qp q e.2 = 0 := by
  have hread : ∀ e ∈ ownerRegs, qpReadTable.lookup e.1 = some e.2 := by
    have hall : (ownerRegs.all fun e => qpReadTable.lookup e.1 == some e.2) = true := by decide
    exact fun e he => beq_iff_eq.mp (List.all_eq_true.mp hall e he)
  refine forall₂_congr fun e he => ?_
  rw [csrAddr_perQ, readValue_qpRegAddr, hread e he]
  rfl

/-- The registers the write decoder refuses were zero already. -/
def RefusedZero (regs : RegFile) (q : BitVec 8) : Prop :=
  regs.qp q cqheadiIdx = 0 ∧ regs.qp q statrqpidbiIdx = 0 ∧ regs.qp q statcursqptriIdx = 0 ∧
    regs.qp q statmsniIdx = 0

theorem clean_destroy_iff {regs : RegFile} {q : BitVec 8} {dev : Device} {fuel : Nat}
    {p : Progress} (hret : destroyRdmaQp dev (qpidOf q) fuel .start = .returned () p) :
    Clean ((p.writes.map hostWrite).foldl applyWrite regs) q ↔ RefusedZero regs q := by
  have hconf : ∀ e ∈ ownerRegs, e.2 ≠ qpconfiIdx := by
    have hall : (ownerRegs.all fun e => e.2 != qpconfiIdx) = true := by decide
    exact fun e he => bne_iff_ne.mp (List.all_eq_true.mp hall e he)
  have hqp : (∀ e ∈ ownerRegs,
        ((p.writes.map hostWrite).foldl applyWrite regs).qp q e.2 = 0) ↔
      ∀ e ∈ ownerRegs, (if ∃ low ∈ resetLows, e.2 ∈ written low then 0 else regs.qp q e.2) = 0 := by
    refine forall₂_congr fun e he => ?_
    rw [qp_destroy (hconf e he) regs hret]
  rw [clean_iff_qp, hqp, RefusedZero]
  simp only [ownerRegs, List.forall_mem_cons, List.not_mem_nil, false_imp_iff, implies_true,
    and_true]
  rw [if_pos (by decide), if_neg (by decide), if_pos (by decide), if_neg (by decide),
    if_neg (by decide), if_pos (by decide), if_pos (by decide), if_neg (by decide)]
  simp

/-- A device in which every queue pair has nothing left to do. -/
def quietDevice : Device := fun _ _ => 0x600

/-- What the call makes of it. -/
def quietProgress : Progress :=
  match destroyRdmaQp quietDevice (qpidOf 0) 1 .start with
  | .returned _ p => p
  | _ => .start

/-- The cycles of all its writes. -/
def quietCycles : List AxilIn := (quietProgress.writes.map hostWrite).flatMap writeCycles

/-- A queue pair with sequence numbers and indices in the registers that the host can write. -/
def configuredOnly : RegFile :=
  { RegFile.zero with
    qp := fun _ r => if r ∈ [sqpiiIdx, rqciiIdx, sqpsniIdx, lstrqreqiIdx] then 7 else 0 }

/-- A queue pair that has sent five elements. -/
def fiveSent : RegFile :=
  { RegFile.zero with qp := fun _ r => if r = sqpiiIdx ∨ r = cqheadiIdx then 5 else 0 }

end Destroy
end RecoNIC
