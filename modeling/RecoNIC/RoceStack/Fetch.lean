import RecoNIC.Arithmetic.SplitAdd
import RecoNIC.RoceStack.WqLanes

/-!
# Where the elements are fetched

The address that the `AR_*` machine puts on the bus is the base of the send queue plus 64
times the index of the element, by an adder on 32 of the 64 bits.  `fetches` says that in
every run the base and the index are those of the entry the `SQ_*` machine works on, and
that the index is behind the producer index of that entry.

Entries come from doorbells and travel: through the capture registers, two FIFOs, the
cache and the two machines.  On the way only the head changes, and the producer index may
be cleared.  `Everywhere.step` is the rule for what survives that: what is true of every
doorbell is true of every entry.
-/

namespace RecoNIC
namespace WqManager

open Synchronous

/-! ## What is true of every entry -/

/-- Neither a new head nor the end of a batch makes `P` false. -/
structure Robust (P : SQdata → Prop) : Prop where
  default : P default
  head : ∀ d h, P d → P { d with cqHeadIdx := h }
  finish : ∀ d, P d → P { d with sqProdIdx := 0 }

/-- Every place that holds an entry holds one with `P`. -/
structure Everywhere (P : SQdata → Prop) (s : State) : Prop where
  captured : s.sqFifoIf.st = .valid → P s.sqFifoIf.input
  fifo : ∀ d ∈ s.sqFifo.contents, P d
  batch : ∀ d ∈ s.sqFifoBatch.contents, P d
  cache : ∀ q, P (s.sqCache.ram q)
  doutb : P s.sqCache.doutb
  output : P s.sq.output
  ack : P s.ack.sqCDoutb

variable {P : SQdata → Prop} {s : State} {i : Input}

theorem everywhere_reset (hP : Robust P) : Everywhere P State.reset where
  captured h := nomatch h
  fifo _ hd := nomatch hd
  batch _ hd := nomatch hd
  cache _ := hP.default
  doutb := hP.default
  output := hP.default
  ack := hP.default

/-- What a FIFO holds after a clock edge, it held before or is what was written. -/
theorem forall_contents_step {f : Fifo SQdata 3} {rd wr : Bool} {d : SQdata}
    (h : ∀ e ∈ f.contents, P e) (hd : wr = true → P d) :
    ∀ e ∈ (f.step rd wr d).contents, P e := by
  intro e he
  rw [Fifo.contents_step, List.mem_append] at he
  rcases he with hold | hnew
  · cases rd
    · exact h e hold
    · exact h e (List.mem_of_mem_tail hold)
  · split_ifs at hnew with hwr
    · rw [Bool.and_eq_true] at hwr
      rw [List.mem_singleton.mp hnew]
      exact hd hwr.1
    · cases hnew

theorem Everywhere.captured_step (hbell : i.sqUpdated = true → P (State.captured i))
    (hst : (s.sqFifoStep i).st = .valid) : P (s.sqFifoStep i).input := by
  cases h : s.sqFifoIf.st with
  | idle =>
    simp only [State.sqFifoStep, h] at hst ⊢
    split_ifs at hst ⊢ with hrung
    · rw [Bool.and_eq_true] at hrung
      exact hbell hrung.1
    · cases h.symm.trans hst
  | valid => simp [State.sqFifoStep, h] at hst

/-- The `SQ_*` machine takes an entry from a FIFO, or gives the one it has a new head. -/
theorem Everywhere.output_step (h : Everywhere P s) (hP : Robust P) : P (s.sqStep i).output := by
  show P (s.sqNext i).output
  by_cases hidle : s.sq.st = .idle
  · simp only [State.sqNext, hidle]
    split_ifs with hfifo hbatch
    · exact h.fifo _ (by rw [Fifo.contents_eq_cons _ hfifo]; exact List.mem_cons_self)
    · exact h.batch _ (by rw [Fifo.contents_eq_cons _ hbatch]; exact List.mem_cons_self)
    · exact h.output
  · by_cases hread : s.sq.st = .readCache
    · simp only [State.sqNext, hread]
      split_ifs
      · exact hP.head _ _ h.output
      · exact h.output
    · rw [show (s.sqNext i).output = s.sq.output from s.output_sqStep i hidle hread]
      exact h.output

/-- The `ACK_*` machine latches what it has read with a new head, or ends a batch. -/
theorem Everywhere.ack_step (h : Everywhere P s) (hP : Robust P) :
    P (s.ackStep i).sqCDoutb := by
  cases hst : s.ack.st with
  | readCaches =>
    simp only [State.ackStep, hst]
    exact hP.head _ _ h.doutb
  | wbFifoCache =>
    simp only [State.ackStep, hst]
    split_ifs
    · exact hP.finish _ h.ack
    · exact h.ack
  | idle =>
    rcases hack : i.ack with _ | a <;> simpa [State.ackStep, hst, hack] using h.ack
  | writeCompletion | finish =>
    simp only [State.ackStep, hst]
    split_ifs <;> exact h.ack
  | _ => simpa [State.ackStep, hst] using h.ack

/-- **What is true of every doorbell is true of every entry.** -/
theorem Everywhere.step (h : Everywhere P s) (hP : Robust P)
    (hbell : i.sqUpdated = true → P (State.captured i)) : Everywhere P (s.step i) where
  captured := captured_step hbell
  fifo := forall_contents_step h.fifo fun hwr => h.captured (by simpa [State.sqFifoWr] using hwr)
  batch := forall_contents_step h.batch fun _ => h.ack
  cache q := by
    rcases s.sqCache_step i q with hsame | ⟨-, -, hnew⟩ | ⟨-, -, hnew⟩
    · rw [hsame]
      exact h.cache q
    · rw [hnew]
      exact h.output
    · rw [hnew]
      exact h.ack
  doutb := by
    show P (s.sqCache.step s.sqCacheA s.sqCacheB i.bLast).doutb
    rw [Bram.step]
    dsimp only
    split_ifs
    · exact h.cache _
    · exact h.doutb
  output := h.output_step hP
  ack := h.ack_step hP

/-! ## The address of an element -/

/-- The address of element `n` of the send queue at `base`, as the adder computes it. -/
def wqeReadAddr (base : BitVec 64) (n : BitVec 32) : BitVec 64 :=
  SplitAdd.addField 26 32 6 base n

/-- **When the adder adds.** -/
theorem wqeReadAddr_eq_iff (base : BitVec 64) (n : BitVec 32) :
    (wqeReadAddr base n).toNat = base.toNat + 64 * n.toNat ↔
      base.toNat % 2 ^ 38 + 64 * n.toNat < 2 ^ 38 := by
  have hiff := SplitAdd.toNat_addField_eq_iff (h := 26) (m := 32) (l := 6) base n
  rw [Nat.mul_comm 64]
  exact hiff

/-- What is being fetched. -/
structure Fetching (s : State) : Prop where
  coupled : Coupled s
  indexed : Indexed s
  /-- The element is behind the producer index. -/
  behind : s.sq.st = .waitQp → s.sq.output.cqHeadIdx < s.sq.output.sqProdIdx
  /-- The address on the bus is that of the element. -/
  rdAddr : s.ar.st = .valid → s.ar.rdAddr = wqeReadAddr s.sq.output.sqBaseAddr s.sq.localidx

theorem fetching_reset : Fetching State.reset := ⟨coupled_reset, nofun, nofun, nofun⟩

/-- The entry and the index stay while the `AR_*` machine works. -/
theorem Fetching.kept (h : Fetching s) (hbusy : s.ar.st ≠ .idle) :
    (s.step i).sq.output = s.sq.output ∧ (s.step i).sq.localidx = s.sq.localidx := by
  have hwait := (h.coupled.fetching hbusy).1
  exact ⟨s.output_sqStep i (by simp [hwait]) (by simp [hwait]),
    s.localidx_sqStep i (by rw [hwait]; rfl)⟩

theorem Fetching.step (h : Fetching s) : Fetching (s.step i) where
  coupled := h.coupled.step
  indexed := h.indexed.step i
  behind hst := by
    have hprev : s.sq.output.cqHeadIdx < s.sq.output.sqProdIdx ∧
        (s.sq.st = .ifReady ∨ s.sq.st = .waitQp) := by
      rcases (s.sqNext_st_eq_waitQp_iff i).mp hst with ⟨hready, hlt, -⟩ | ⟨hwait, -⟩
      · exact ⟨hlt, Or.inl hready⟩
      · exact ⟨h.behind hwait, Or.inr hwait⟩
    have hout : (s.step i).sq.output = s.sq.output := by
      rcases hprev.2 with hst | hst <;>
        exact s.output_sqStep i (by simp [hst]) (by simp [hst])
    rw [hout]
    exact hprev.1
  rdAddr hst := by
    change (s.arStep i).st = .valid at hst
    cases har : s.ar.st with
    | calcAddr =>
      obtain ⟨hout, hidx⟩ := h.kept (i := i) (by simp [har])
      rw [hout, hidx]
      show (s.arStep i).rdAddr = _
      simp only [State.arStep, har]
      rfl
    | valid =>
      obtain ⟨hout, hidx⟩ := h.kept (i := i) (by simp [har])
      rw [hout, hidx, ← h.rdAddr har]
      simp [State.step, State.arStep, har]
    | idle =>
      simp only [State.arStep, har] at hst
      split_ifs at hst
    | reading =>
      rcases hdata : i.rData with _ | ⟨rdata, rlast⟩
      · simp [State.arStep, har, hdata] at hst
      · cases rlast <;> simp [State.arStep, har, hdata] at hst
    | done =>
      simp only [State.arStep, har] at hst
      split_ifs at hst

/-- **What is fetched.**  While the `AR_*` machine has an address on the bus, it is the
address of the element at the head of the entry, and that is behind the producer index. -/
theorem Fetching.fetches (h : Fetching s) (hst : s.ar.st = .valid) :
    s.ar.rdAddr = wqeReadAddr s.sq.output.sqBaseAddr s.sq.localidx ∧
      s.sq.localidx < s.sq.output.sqProdIdx := by
  have hwait := (h.coupled.fetching (by simp [hst])).1
  refine ⟨h.rdAddr hst, ?_⟩
  rw [h.indexed (by rw [hwait]; rfl)]
  exact h.behind hwait

/-- The invariant holds in every state of every run. -/
theorem fetching_run (is : List Input) : Fetching (wqManager.run is) :=
  (Machine.always_of_step (fun _ _ h => h.step) fetching_reset is).last

end WqManager
end RecoNIC
