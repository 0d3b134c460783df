import RecoNIC.Driver.Receive
import RecoNIC.RoceStack.ReceiveBuffers

/-!
# The receive queue between driver and hardware

Both sides compute where SEND `n` is, each for itself.  The driver multiplies by
`RQE_SIZE`, which is 512 bytes; the hardware adds the upper half of `QPCONFi` times 256
bytes, and `allocate_rdma_qp` writes `RQE_SIZE` there, so its buffers are 128 KB long.
They meet at the first SEND and never again (`buffers_agree_iff`).

The queue is allocated with the stride of the driver and filled with the stride of the
hardware, from its beginning to no end.  `receiveQueue_contained` says what fits.
-/

namespace RecoNIC
namespace ReceiveQueue

open Synchronous RdmaApi Receiving
open RequestHandler hiding Input step
open Translation (State Input)
open Commands (commandAddr commandBytes)

/-! ## The registers of an allocated queue pair -/

/-- The registers of the queue pair `q` as `allocate_rdma_qp` leaves them.  The writes to
`RQBAi` and `RQBAMSBi` go to `STATRQBUFCAi` and `STATRQBUFCAMSBi`, too. -/
structure Configured (regs : RegFile) (q : BitVec 8) (r : QpRegs) : Prop where
  rqBa : Pointers.ofRow (regs.qp q) = ⟨r.rqBa, 0⟩
  qpConf : regs.qp q qpconfiIdx = r.qpConf

section Allocated

variable {paddr : BitVec 64 → BitVec 64} {dev : RdmaDev} {rnDev rnDev' : RnDev}
  {qdepth : BitVec 32} {loc : BufLocation} {qp : RdmaQp} {r : QpRegs}

/-- A receive queue in device memory has one address for both sides. -/
theorem rqBa_of_device (hpaddr : ∀ a, isDeviceAddress (paddr a) = false)
    (h : allocateRdmaQp paddr dev rnDev qdepth loc = some (qp, r, rnDev'))
    (hdev : isDeviceAddress qp.rq.dmaAddr = true) : r.rqBa = qp.rq.buffer := by
  obtain ⟨⟨_, _, _, -, -, hrq⟩, -, hregs⟩ := of_allocate h
  rw [hregs]
  rcases (buffer_of_allocate hrq).2 with heq | hos
  · exact (maskedAddr_of_device hdev).trans heq
  · rw [hos, hpaddr] at hdev
    cases hdev

/-- A receive buffer of the hardware, in bytes. -/
theorem bufLen_of_allocate
    (h : allocateRdmaQp paddr dev rnDev qdepth loc = some (qp, r, rnDev')) :
    (bufLen r.qpConf).toNat = 131072 := by
  have hconf : r.qpConf = qpConfig := by rw [(of_allocate h).2.2]
  rw [hconf]
  decide

end Allocated

/-! ## Two strides -/

/-- The strides of the two sides from the first element to element `n + 1`. -/
theorem strides_eq_iff {n : Nat} (hn : n < 2 ^ 32) :
    (BitVec.ofNat 32 n * rqeSize).signExtend 64 = BitVec.ofNat 64 (n * 131072) ↔ n = 0 := by
  constructor
  · intro heq
    have hnat := congrArg BitVec.toNat heq
    have hprod : (BitVec.ofNat 32 n * rqeSize).toNat = n * 512 % 2 ^ 32 := by
      rw [BitVec.toNat_mul, BitVec.toNat_ofNat, Nat.mod_eq_of_lt hn,
        show rqeSize.toNat = 512 from rfl]
    have hhw : n * 131072 % 2 ^ 64 = n * 131072 := Nat.mod_eq_of_lt (by omega)
    have hlt : n * 512 % 2 ^ 32 < 2 ^ 32 := Nat.mod_lt _ (by decide)
    have hwide : n * 512 % 2 ^ 32 % 2 ^ 64 = n * 512 % 2 ^ 32 := Nat.mod_eq_of_lt (by omega)
    rw [BitVec.toNat_signExtend, BitVec.toNat_setWidth, BitVec.toNat_ofNat, BitVec.msb_eq_decide,
      hprod, hhw, hwide] at hnat
    by_cases hneg : 2 ^ 31 ≤ n * 512 % 2 ^ 32
    · -- a negative offset of the driver is larger than any of the hardware
      rw [decide_eq_true hneg, if_pos rfl] at hnat
      generalize n * 512 % 2 ^ 32 = x at hnat hneg hlt
      omega
    · rw [decide_eq_false hneg, if_neg Bool.false_ne_true] at hnat
      have hsmall : n * 512 % 2 ^ 32 = n * 512 := Nat.mod_eq_of_lt (by omega)
      omega
  · rintro rfl
    rfl

/-- The index of a later message is not the one that has wrapped around. -/
theorem rqeAddr_sub_buffer (qp : RdmaQp) {n : Nat} (hn : n + 1 < 2 ^ 32) :
    rqeAddr qp (BitVec.ofNat 32 (n + 1)) - qp.rq.buffer =
      (BitVec.ofNat 32 n * rqeSize).signExtend 64 := by
  rw [rqeAddr, if_neg (Receive.ofNat_add_one_ne_zero hn), Receive.ofNat_add_one_sub_one]
  generalize (BitVec.ofNat 32 n * rqeSize).signExtend 64 = offset
  bv_omega

/-! ## The two sides -/

/-- A call that ends with the index `v` returns the address of `v`. -/
theorem rqe_of_returned {qp qp' : RdmaQp} {reads rest : List (BitVec 32)} {rqe : BitVec 64}
    (h : rdmaPostReceive qp reads = .returned (qp', rqe) rest) : rqe = rqeAddr qp qp'.rqPidb := by
  rw [rdmaPostReceive] at h
  cases hpoll : pollRqPidb qp.rqPidb reads with
  | returned v rest' =>
    rw [hpoll] at h
    simp only at h
    split_ifs at h
    cases h
    rfl
  | exited =>
    rw [hpoll] at h
    cases h
  | waiting =>
    rw [hpoll] at h
    cases h

/-- A command for a SEND to `q` keeps to `size` bytes at `base`. -/
def Inside (base : BitVec 64) (size : BitVec 32) (q : BitVec 8)
    (s : State × Ledger) : Prop :=
  s.1.wr.handler.cmdValid = true → ForSend q s.1.wr.handler →
    base.toNat ≤ (commandAddr s.1.wr.handler.cmdData).toNat ∧
      (commandAddr s.1.wr.handler.cmdData).toNat + commandBytes s.1.wr.handler.cmdData ≤
        base.toNat + size.toNat

/-- The packet that is being checked, of the SEND after `done.length` others, fits. -/
def Fits (size : BitVec 32) (q : BitVec 8) (s : State × Ledger) : Prop :=
  s.1.wr.handler.reqState = .middle → ForSend q s.1.wr.handler →
    s.2.done.length * 131072 + s.2.before + s.2.size % 2 ^ 23 ≤ size.toNat

/-- The command of a packet that has passed the check fits as well. -/
structure FitsInv (init : Pointers) (conf : BitVec 32) (size : BitVec 32) (q : BitVec 8)
    (s : State × Ledger) : Prop where
  buf : BufInv init conf q s
  fits : s.1.wr.handler.reqState = .sendCmd → ForSend q s.1.wr.handler →
    s.2.done.length * 131072 + s.2.before + s.2.size % 2 ^ 23 ≤ size.toNat

section Contained

variable {init : Pointers} {conf size : BitVec 32} {q : BitVec 8} {s : State} {l : Ledger}
  {i : Input}

/-- `RQ_SENDCMD` is entered from `RQ_MIDDLE`, with the same packet. -/
theorem of_step_sendCmd (hs : (step s i).wr.handler.reqState = .sendCmd) :
    (s.wr.handler.reqState = .middle ∨ s.wr.handler.reqState = .sendCmd) ∧
      (step s i).wr.handler.offsVaddr = s.wr.handler.offsVaddr ∧
      (step s i).wr.handler.qpn = s.wr.handler.qpn := by
  rw [handler_step] at hs ⊢
  cases hst : s.wr.handler.reqState with
  | idle =>
    simp only [RequestHandler.step, hst] at hs
    split_ifs at hs
    all_goals simp_all
  | getPaddr =>
    simp only [RequestHandler.step, hst] at hs
    split_ifs at hs
    all_goals simp_all
  | middle =>
    refine ⟨Or.inl rfl, ?_⟩
    simp only [RequestHandler.step, hst]
    split_ifs <;> exact ⟨rfl, rfl⟩
  | sendCmd =>
    refine ⟨Or.inr rfl, ?_⟩
    simp only [RequestHandler.step, hst]
    split_ifs <;> exact ⟨rfl, rfl⟩
  | wbDbAdd => simp [RequestHandler.step, hst] at hs

theorem FitsInv.step (h : FitsInv init conf size q (s, l)) (ho : Undisturbed q s i)
    (hfits : Fits size q (s, l)) :
    FitsInv init conf size q (Receiving.step s i, note q l s i) := by
  refine ⟨h.buf.step ho, fun hs hsend => ?_⟩
  obtain ⟨hst, hoffs, hqpn⟩ := of_step_sendCmd hs
  have hsend' : ForSend q s.wr.handler := by
    obtain ⟨h0, hq⟩ := hsend
    exact ⟨hoffs.symm.trans h0, by rw [← hqpn]; exact hq⟩
  have hidle : s.wr.handler.reqState ≠ .idle := by rcases hst with hst | hst <;> simp [hst]
  have hwb : s.wr.handler.reqState ≠ .wbDbAdd := by rcases hst with hst | hst <;> simp [hst]
  obtain ⟨hb, hz⟩ := before_note (q := q) (l := l) (i := i) hidle
  have hold : l.done.length * 131072 + l.before + l.size % 2 ^ 23 ≤ size.toNat := by
    rcases hst with hst | hst
    · exact hfits hst hsend'
    · exact h.fits hst hsend'
  show (note q l s i).done.length * 131072 + (note q l s i).before +
    (note q l s i).size % 2 ^ 23 ≤ size.toNat
  rw [done_note (completes_eq_false hwb), hb, hz]
  exact hold

theorem FitsInv.inside (h : FitsInv init conf size q (s, l))
    (hconf : (bufLen conf).toNat = 131072) (hroom : init.addr.toNat + size.toNat < 2 ^ 64) :
    Inside init.addr size q (s, l) := by
  intro hcmd hsend
  have hs : s.wr.handler.reqState = .sendCmd := by simpa [Handler.cmdValid] using hcmd
  obtain ⟨haddr, hlen⟩ := h.buf.command hs hsend
  have hfits : l.done.length * 131072 + l.before + l.size % 2 ^ 23 ≤ size.toNat :=
    h.fits hs hsend
  obtain ⟨offset, hoffset⟩ : ∃ offset, offset = l.done.length * 131072 + l.before := ⟨_, rfl⟩
  rw [hconf, ← hoffset] at haddr
  rw [← hoffset] at hfits
  have hsum : (init.addr + BitVec.ofNat 64 offset).toNat = init.addr.toNat + offset := by
    rw [BitVec.toNat_add, BitVec.toNat_ofNat,
      Nat.mod_eq_of_lt (show offset < 2 ^ 64 by omega), Nat.mod_eq_of_lt (by omega)]
  have haddr' : (commandAddr s.wr.handler.cmdData).toNat = init.addr.toNat + offset := by
    rw [haddr, hsum]
  constructor
  · exact haddr' ▸ Nat.le_add_right _ _
  · rw [haddr', hlen]
    omega

/-- **What keeps to the queue.**  On every queue pair that was allocated, in an undisturbed
run in which every packet of SEND `n` ends less than `n - 1` buffers of the hardware before
the end of the queue, every command for a SEND keeps to the bytes that were allocated. -/
theorem receiveQueue_contained (paddr : BitVec 64 → BitVec 64) (dev : RdmaDev)
    (rnDev rnDev' : RnDev) (qdepth : BitVec 32) (loc : BufLocation) (qp : RdmaQp) (r : QpRegs)
    (halloc : allocateRdmaQp paddr dev rnDev qdepth loc = some (qp, r, rnDev'))
    (hroom : r.rqBa.toNat + qp.rq.bufSize.toNat < 2 ^ 64) (q : BitVec 8) (regs : RegFile)
    (hconf : Configured regs q r) (is : List Input)
    (hrun : (receiving q regs).Guarded
      (fun s i => Undisturbed q s.1 i ∧ Fits qp.rq.bufSize q s) (receiving q regs).reset is) :
    (receiving q regs).Always (Inside r.rqBa qp.rq.bufSize q) (receiving q regs).reset is := by
  have hreset : FitsInv ⟨r.rqBa, 0⟩ r.qpConf qp.rq.bufSize q (receiving q regs).reset := by
    have hbuf : BufInv (.ofRow (regs.qp q)) (regs.qp q qpconfiIdx) q
        (receiving q regs).reset := (bufInv_run q regs [] trivial).last
    rw [hconf.rqBa, hconf.qpConf] at hbuf
    exact ⟨hbuf, fun hno => nomatch hno⟩
  have hinv := Machine.always_of_guarded (fun s i (hs : FitsInv _ _ _ q s) hok =>
    hs.step hok.1 hok.2) hreset hrun
  exact hinv.mono fun s hs => hs.inside (bufLen_of_allocate halloc) hroom

end Contained

/-! ### A queue of two slots -/

/-- The register file of a device whose queue pair 1 has these registers. -/
def fileOf (r : QpRegs) : RegFile :=
  { RegFile.zero with
    qp := fun q reg =>
      if q = 1 then
        if reg = statrqbufcaiIdx then r.rqBa.setWidth 32
        else if reg = statrqbufcamsbiIdx then r.rqBa.extractLsb' 32 32
        else if reg = qpconfiIdx then r.qpConf
        else 0
      else 0 }

/-- The one of `twoDeep`. -/
def twoDeepFile : RegFile := fileOf Receive.twoDeepRegs

theorem configured_twoDeepFile : Configured twoDeepFile 1 Receive.twoDeepRegs :=
  ⟨by decide, by decide⟩

/-- A SEND up to its command. -/
def firstSend : List Input := sendOnly 1 :: List.replicate 7 idle

/-- A SEND, and later another one up to its command. -/
def secondSend : List Input :=
  sendOnly 1 :: List.replicate 20 idle ++ sendOnly 1 :: List.replicate 7 idle

instance (size : BitVec 32) (q : BitVec 8) (s : State × Ledger) : Decidable (Fits size q s) :=
  inferInstanceAs (Decidable (_ → _ → _ ≤ _))

instance (base : BitVec 64) (size : BitVec 32) (q : BitVec 8) (s : State × Ledger) :
    Decidable (Inside base size q s) :=
  inferInstanceAs (Decidable (_ → _ → _ ∧ _))

/-- A queue pair with queues for 300 messages, so that the hardware has room for two. -/
def deep : RdmaQp where
  sq := ⟨0xa350000000000000, 0xa350000000000000, 19200⟩
  sqPidb := 0
  sqCidb := 0
  cq := ⟨0xa350000000004b00, 0xa350000000004b00, 1200⟩
  cqCidb := 0
  rq := ⟨0xa350000000005000, 0xa350000000005000, 153600⟩
  rqCidb := 0
  rqPidb := 0
  qdepth := 300

def deepRegs : QpRegs :=
  ⟨0xa350000000000000, 0xa350000000004b00, 0xa350000000005000, qpConfig⟩

theorem contained_secondSend :
    (receiving 1 (fileOf deepRegs)).Always (Inside deepRegs.rqBa 153600 1)
        (receiving 1 (fileOf deepRegs)).reset secondSend ∧
      ((receiving 1 (fileOf deepRegs)).run secondSend).1.wr.handler.cmdValid = true ∧
      ((receiving 1 (fileOf deepRegs)).run secondSend).2.done.length = 1 :=
  ⟨receiveQueue_contained id oneQp ⟨0, 0, 0⟩ ⟨0, 0, 0x2a800⟩ 300 .devMem deep deepRegs rfl
    (by decide) 1 (fileOf deepRegs) ⟨by decide, by decide⟩ secondSend (by decide +kernel),
    by decide +kernel, by decide +kernel⟩

/-- The second SEND of 64 bytes is stored behind the queue. -/
theorem second_send_outside_queue :
    allocateRdmaQp id oneQp ⟨0, 0, 0⟩ 2 .devMem =
      some (Receive.twoDeep, Receive.twoDeepRegs, ⟨0, 0, 0x488⟩) ∧
    Configured twoDeepFile 1 Receive.twoDeepRegs ∧
    ¬ Inside Receive.twoDeepRegs.rqBa Receive.twoDeep.rq.bufSize 1
      ((receiving 1 twoDeepFile).run secondSend) :=
  ⟨rfl, configured_twoDeepFile, by decide +kernel⟩

end ReceiveQueue
end RecoNIC
