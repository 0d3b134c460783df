import RecoNIC.Driver.Receive
import RecoNIC.RoceStack.Fetch

/-!
# The send queue between driver and hardware

The driver stores element `n` of a send queue and rings the doorbell with its producer
index; the hardware fetches every element below that index.  Two things have to fit: the
address of an element, which either side computes for itself, and the number of elements,
which nobody checks on the way of `rdma_post_send`.

The addresses are those of one array as long as the adder of the hardware has no carry to
lose.  `sendQueue_agrees` says so, and that the hardware stays inside the buffer as long as
no doorbell goes beyond it; `rdma_post_batch_send` exits before it would, and
`rdma_post_send` rings it.
-/

namespace RecoNIC
namespace SendQueue

open Synchronous WqManager RdmaApi

/-! ## Where elements are stored -/

/-- `create_a_wqe` stores element `n` at place `n` of the buffer, and a buffer in device
memory has the address that the hardware gets. -/
structure Stores (qp : RdmaQp) (regs : QpRegs) : Prop where
  wqeAddr : ∀ n, wqeAddr qp.sq n = qp.sq.buffer + n.setWidth 64 * sizeofWqe
  device : isDeviceAddress qp.sq.dmaAddr = true → regs.sqBa = qp.sq.buffer

theorem stores_of_allocate {paddr : BitVec 64 → BitVec 64} {dev : RdmaDev}
    {rnDev rnDev' : RnDev} {qdepth : BitVec 32} {loc : BufLocation} {qp : RdmaQp}
    {regs : QpRegs} (hpaddr : ∀ a, isDeviceAddress (paddr a) = false)
    (h : allocateRdmaQp paddr dev rnDev qdepth loc = some (qp, regs, rnDev')) :
    Stores qp regs := by
  obtain ⟨⟨rn₁, -, -, hsq, -, -⟩, -, hregs⟩ := of_allocate h
  obtain ⟨-, hdma⟩ := buffer_of_allocate hsq
  have hsame : isDeviceAddress qp.sq.dmaAddr = true → qp.sq.dmaAddr = qp.sq.buffer := by
    intro hdev
    rcases hdma with heq | hos
    · exact heq
    · rw [hos, hpaddr] at hdev
      cases hdev
  constructor
  · intro n
    rw [RdmaApi.wqeAddr]
    split_ifs with hdev
    · rw [hsame hdev]
    · rfl
  · intro hdev
    rw [hregs]
    exact (maskedAddr_of_device hdev).trans (hsame hdev)

/-! ## The system -/

/-- The driver, what it has written to `SQPIi`, and the hardware. -/
structure Sys where
  qp : RdmaQp
  written : List (BitVec 32)
  hw : State

/-- A call of the driver, with the answers it polls, or a cycle of the hardware. -/
inductive Event where
  | postSend (reads : List (BitVec 32))
  | postBatchSend (batchSize : BitVec 32) (reads : List (BitVec 32))
  | cycle (i : Input)

/-- A call that returns has written its producer index. -/
def Sys.post (s : Sys) : Outcome Posted → Sys
  | .returned (qp, _) _ => { s with qp := qp, written := s.written ++ [qp.sqPidb] }
  | _ => s

def Sys.step (s : Sys) : Event → Sys
  | .postSend reads => s.post (rdmaPostSend s.qp reads)
  | .postBatchSend batchSize reads => s.post (rdmaPostBatchSend s.qp batchSize reads)
  | .cycle i => { s with hw := s.hw.step i }

/-- The driver and the hardware, for a queue pair as it was allocated. -/
def driven (qp : RdmaQp) : Machine Sys Event := ⟨⟨qp, [], State.reset⟩, Sys.step⟩

/-- The call returns. -/
def Outcome.Returns {α : Type} (o : Outcome α) : Prop :=
  match o with
  | .returned _ _ => True
  | _ => False

/-- Every call returns, and the doorbells of queue pair `q` that reach the hardware are
those of the driver, with the base that `allocate_rdma_qp` has configured. -/
def Faithful (q : BitVec 8) (regs : QpRegs) (s : Sys) : Event → Prop
  | .postSend reads => Outcome.Returns (rdmaPostSend s.qp reads)
  | .postBatchSend batchSize reads => Outcome.Returns (rdmaPostBatchSend s.qp batchSize reads)
  | .cycle i => i.sqUpdated = true → i.qpIdx = q → i.sqPi ∈ s.written ∧ i.sqBa = regs.sqBa

/-- `rdma_post_send` does not ring for more elements than the buffer holds. -/
def InBounds (size : BitVec 32) (s : Sys) : Event → Prop
  | .postSend _ => 64 * (s.qp.sqPidb + 1).toNat ≤ size.toNat
  | _ => True

/-- What is being fetched for `q` lies in the buffer of `size` bytes at `base`. -/
def Inside (q : BitVec 8) (base : BitVec 64) (size : BitVec 32) (s : State) : Prop :=
  s.ar.st = .valid → s.sq.output.sqIdx = q →
    base.toNat ≤ s.ar.rdAddr.toNat ∧ s.ar.rdAddr.toNat + 64 ≤ base.toNat + size.toNat

/-! ## What the calls write -/

/-- Polling changes neither the producer index nor the depth. -/
theorem kept_batchLoop {fuel : Nat} {qp : RdmaQp} {reads rest : List (BitVec 32)} {r : Posted}
    (h : batchLoop fuel qp reads = .returned r rest) :
    r.1.sqPidb = qp.sqPidb ∧ r.1.qdepth = qp.qdepth := by
  induction fuel generalizing qp reads with
  | zero => cases h
  | succ fuel ih =>
    rw [batchLoop] at h
    split_ifs at h
    · cases hpoll : pollCqCidb qp.sqCidb reads with
      | returned cqCidb rest' =>
        rw [hpoll] at h
        obtain ⟨hpidb, hdepth⟩ := ih h
        exact ⟨hpidb, hdepth⟩
      | exited =>
        rw [hpoll] at h
        cases h
      | waiting =>
        rw [hpoll] at h
        cases h
    · cases h
      exact ⟨rfl, rfl⟩

theorem rdmaPostSend_returned {qp : RdmaQp} {reads rest : List (BitVec 32)} {r : Posted}
    (h : rdmaPostSend qp reads = .returned r rest) :
    r.1.sqPidb = qp.sqPidb + 1 ∧ r.1.qdepth = qp.qdepth := by
  rw [rdmaPostSend] at h
  cases hpoll : pollCqCidb qp.sqCidb reads with
  | returned cqCidb rest' =>
    rw [hpoll] at h
    cases h
    exact ⟨rfl, rfl⟩
  | exited =>
    rw [hpoll] at h
    cases h
  | waiting =>
    rw [hpoll] at h
    cases h

/-- A batch that returns has found room in the queue. -/
theorem rdmaPostBatchSend_returned {qp : RdmaQp} {batchSize : BitVec 32}
    {reads rest : List (BitVec 32)} {r : Posted}
    (h : rdmaPostBatchSend qp batchSize reads = .returned r rest) :
    r.1.sqPidb ≤ qp.qdepth ∧ r.1.qdepth = qp.qdepth := by
  rw [rdmaPostBatchSend] at h
  split_ifs at h with hover
  obtain ⟨hpidb, hdepth⟩ := kept_batchLoop h
  refine ⟨?_, hdepth⟩
  rw [hpidb]
  exact BitVec.not_lt.mp fun hlt => hover (Or.inr hlt)

/-! ## Containment -/

/-- An entry of `q` is spent, or rings for elements of the buffer. -/
def Bounded (q : BitVec 8) (base : BitVec 64) (size : BitVec 32) (d : SQdata) : Prop :=
  d.sqIdx = q → d.sqProdIdx = 0#32 ∨
    (64 * d.sqProdIdx.toNat ≤ size.toNat ∧ d.sqBaseAddr = base)

variable {q : BitVec 8} {base : BitVec 64} {size : BitVec 32}

theorem robust_bounded : Robust (Bounded q base size) where
  default _ := Or.inl rfl
  head _ _ h := h
  finish _ _ _ := Or.inl rfl

/-- What holds while all calls stay in bounds. -/
structure Contained (q : BitVec 8) (base : BitVec 64) (size : BitVec 32) (s : Sys) : Prop where
  depth : 64 * s.qp.qdepth.toNat ≤ size.toNat
  written : ∀ v ∈ s.written, 64 * v.toNat ≤ size.toNat
  everywhere : Everywhere (Bounded q base size) s.hw
  fetching : Fetching s.hw

theorem Contained.post {s : Sys} {o : Outcome Posted} (h : Contained q base size s)
    (ho : ∀ r rest, o = .returned r rest →
      64 * r.1.sqPidb.toNat ≤ size.toNat ∧ r.1.qdepth = s.qp.qdepth) :
    Contained q base size (s.post o) := by
  cases o with
  | returned r rest =>
    obtain ⟨hpidb, hdepth⟩ := ho r rest rfl
    refine ⟨by rw [Sys.post, hdepth]; exact h.depth, fun v hv => ?_, h.everywhere, h.fetching⟩
    rcases List.mem_append.mp hv with hold | hnew
    · exact h.written v hold
    · rw [List.mem_singleton.mp hnew]
      exact hpidb
  | exited => exact h
  | waiting => exact h

theorem Contained.step {regs : QpRegs} {s : Sys} {e : Event} (h : Contained q regs.sqBa size s)
    (hfaithful : Faithful q regs s e) (hbound : InBounds size s e) :
    Contained q regs.sqBa size (s.step e) := by
  cases e with
  | postSend reads =>
    refine h.post fun r rest ho => ?_
    obtain ⟨hpidb, hdepth⟩ := rdmaPostSend_returned ho
    exact ⟨by rw [hpidb]; exact hbound, hdepth⟩
  | postBatchSend batchSize reads =>
    refine h.post fun r rest ho => ?_
    obtain ⟨hpidb, hdepth⟩ := rdmaPostBatchSend_returned ho
    have hle : r.1.sqPidb.toNat ≤ s.qp.qdepth.toNat := hpidb
    have hroom := h.depth
    exact ⟨by omega, hdepth⟩
  | cycle i =>
    refine ⟨h.depth, h.written,
      h.everywhere.step robust_bounded fun hrung hq => ?_, h.fetching.step⟩
    obtain ⟨hpi, hba⟩ := hfaithful hrung hq
    exact Or.inr ⟨h.written _ hpi, hba⟩

/-- An entry that rings for elements of the buffer fetches from it. -/
theorem Contained.inside {s : Sys} (h : Contained q base size s)
    (hfit : base.toNat % 2 ^ 38 + size.toNat ≤ 2 ^ 38) : Inside q base size s.hw := by
  intro hst hq
  obtain ⟨haddr, hlt⟩ := h.fetching.fetches hst
  rcases h.everywhere.output hq with hzero | ⟨hsize, hbase⟩
  · rw [hzero] at hlt
    exact absurd hlt BitVec.not_lt_zero
  · have hlt' : s.hw.sq.localidx.toNat < s.hw.sq.output.sqProdIdx.toNat := hlt
    have hsum := (wqeReadAddr_eq_iff base s.hw.sq.localidx).mpr (by omega)
    rw [haddr, hbase, hsum]
    omega

/-- The invariant holds in every state of a run whose calls stay in bounds. -/
theorem contained_run {qp : RdmaQp} {regs : QpRegs} {es : List Event}
    (hdepth : 64 * qp.qdepth.toNat ≤ size.toNat)
    (hfaithful : (driven qp).Guarded (Faithful q regs) (driven qp).reset es)
    (hbound : (driven qp).Guarded (InBounds size) (driven qp).reset es) :
    (driven qp).Always (Contained q regs.sqBa size) (driven qp).reset es := by
  have hreset : Contained q regs.sqBa size (driven qp).reset :=
    ⟨hdepth, nofun, everywhere_reset robust_bounded, fetching_reset⟩
  exact Machine.always_of_guarded (fun s e hs hok => hs.step hok.1 hok.2) hreset
    (hfaithful.and hbound)

/-! ## The result -/

/-- **The two sides of the send queue.**  The address on the read channel is the base plus
64 times the index iff the adder has no carry to lose; on every queue pair that was
allocated, `create_a_wqe` uses the same places of the buffer; and a run of calls that
return and of cycles fetches from the buffer only, if the buffer holds the depth of the
queue, does not cross a carry, and `rdma_post_send` stays in bounds. -/
theorem sendQueue_agrees (is : List Input) (paddr : BitVec 64 → BitVec 64) (dev : RdmaDev)
    (rnDev rnDev' : RnDev) (qdepth : BitVec 32) (loc : BufLocation) (qp : RdmaQp)
    (regs : QpRegs) (halloc : allocateRdmaQp paddr dev rnDev qdepth loc = some (qp, regs, rnDev'))
    (q : BitVec 8) (es : List Event) :
    ((wqManager.run is).ar.st = .valid →
      ((wqManager.run is).ar.rdAddr.toNat =
          (wqManager.run is).sq.output.sqBaseAddr.toNat +
            64 * (wqManager.run is).sq.localidx.toNat ↔
        (wqManager.run is).sq.output.sqBaseAddr.toNat % 2 ^ 38 +
          64 * (wqManager.run is).sq.localidx.toNat < 2 ^ 38)) ∧
    ((∀ a, isDeviceAddress (paddr a) = false) → Stores qp regs) ∧
    (64 * qdepth.toNat ≤ (sqSize dev qdepth).toNat →
      regs.sqBa.toNat % 2 ^ 38 + (sqSize dev qdepth).toNat ≤ 2 ^ 38 →
      (driven qp).Guarded (Faithful q regs) (driven qp).reset es →
      (driven qp).Guarded (InBounds (sqSize dev qdepth)) (driven qp).reset es →
      (driven qp).Always (fun s => Inside q regs.sqBa (sqSize dev qdepth) s.hw)
        (driven qp).reset es) := by
  refine ⟨fun hst => ?_, fun hpaddr => stores_of_allocate hpaddr halloc,
    fun hdepth hfit hfaithful hbound => ?_⟩
  · rw [(fetching_run is).rdAddr hst]
    exact wqeReadAddr_eq_iff _ _
  · have hqp : qp.qdepth = qdepth := by rw [(of_allocate halloc).2.1]
    have hinv := contained_run (by rwa [hqp]) hfaithful hbound
    exact hinv.mono fun s hs => hs.inside hfit

/-! ### Two elements -/

instance decidableReturns {α : Type} (o : Outcome α) : Decidable (Outcome.Returns o) :=
  match o with
  | .returned _ _ => isTrue trivial
  | .exited => isFalse id
  | .waiting => isFalse id

instance decidableFaithful (q : BitVec 8) (regs : QpRegs) (s : Sys) :
    ∀ e, Decidable (Faithful q regs s e)
  | .postSend reads => decidableReturns (rdmaPostSend s.qp reads)
  | .postBatchSend batchSize reads => decidableReturns (rdmaPostBatchSend s.qp batchSize reads)
  | .cycle _ => inferInstanceAs (Decidable (_ → _ → _ ∧ _))

instance (q : BitVec 8) (base : BitVec 64) (size : BitVec 32) (s : State) :
    Decidable (Inside q base size s) := inferInstanceAs (Decidable (_ → _ → _ ∧ _))

/-- A queue pair with queues for one element in device memory. -/
def oneDeep : RdmaQp where
  sq := ⟨0xa350000000000000, 0xa350000000000000, 64⟩
  sqPidb := 0
  sqCidb := 0
  cq := ⟨0xa350000000000040, 0xa350000000000040, 4⟩
  cqCidb := 0
  rq := ⟨0xa350000000000044, 0xa350000000000044, 512⟩
  rqCidb := 0
  rqPidb := 0
  qdepth := 1

def oneDeepRegs : QpRegs :=
  ⟨0xa350000000000000, 0xa350000000000040, 0xa350000000000044, qpConfig⟩

/-- Two elements, posted one after the other, the first one complete before the second. -/
def twoSends (sqBa : BitVec 64) : List Event :=
  [.postSend [1], .cycle { ring 1 1 0 with sqBa := sqBa }] ++
    (List.replicate 17 (serve 1 0) ++ acknowledge 1 :: List.replicate 8 Input.quiet).map
      Event.cycle ++
  [.postSend [2], .cycle { ring 1 2 1 with sqBa := sqBa }] ++
    List.replicate 8 (.cycle Input.quiet)

instance (size : BitVec 32) (s : Sys) : ∀ e, Decidable (InBounds size s e)
  | .postSend _ => inferInstanceAs (Decidable (_ ≤ _))
  | .postBatchSend _ _ => isTrue trivial
  | .cycle _ => isTrue trivial

/-- A queue of two elements holds both. -/
theorem sendQueue_agrees_twoSends :
    (driven Receive.twoDeep).Always
        (fun s => Inside 1 Receive.twoDeepRegs.sqBa (sqSize oneQp 2) s.hw)
        (driven Receive.twoDeep).reset (twoSends Receive.twoDeepRegs.sqBa) ∧
      ((driven Receive.twoDeep).run (twoSends Receive.twoDeepRegs.sqBa)).hw.ar.st = .valid ∧
      ((driven Receive.twoDeep).run (twoSends Receive.twoDeepRegs.sqBa)).hw.ar.rdAddr =
        Receive.twoDeepRegs.sqBa + 64 :=
  ⟨(sendQueue_agrees [] (fun _ => 0) oneQp ⟨0, 0, 0⟩ ⟨0, 0, 0x488⟩ 2 .devMem Receive.twoDeep
    Receive.twoDeepRegs rfl 1 (twoSends Receive.twoDeepRegs.sqBa)).2.2 (by decide) (by decide)
      (by decide +kernel) (by decide +kernel), by decide +kernel, by decide +kernel⟩

/-- In a queue of one element the second one is fetched from behind the buffer. -/
theorem second_send_outside :
    allocateRdmaQp id oneQp ⟨0, 0, 0⟩ 1 .devMem =
      some (oneDeep, oneDeepRegs, ⟨0, 0, 0x244⟩) ∧
    (driven oneDeep).Guarded (Faithful 1 oneDeepRegs) (driven oneDeep).reset
      (twoSends oneDeepRegs.sqBa) ∧
    ¬ Inside 1 oneDeepRegs.sqBa (sqSize oneQp 1)
      ((driven oneDeep).run (twoSends oneDeepRegs.sqBa)).hw :=
  ⟨rfl, by decide +kernel, by decide +kernel⟩

end SendQueue
end RecoNIC
