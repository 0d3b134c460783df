import RecoNIC.RoceStack.Handover

/-!
# What the work-queue manager has done

A ledger of the doorbells, the elements fetched and issued, the acknowledgements and
the heads reported, queue pair by queue pair, and what is true of every run: the
doorbell that is captured finds room in its FIFO, the index that is fetched and issued
is the head of the entry, and a busy entry carries the number of its queue pair.
-/

namespace RecoNIC
namespace WqManager

open Synchronous

/-! ## The ledger -/

/-- What has happened, queue pair by queue pair. -/
structure Ledger where
  /-- The producer index of the last doorbell. -/
  lastPi : BitVec 8 → BitVec 32
  /-- The indices of the elements fetched. -/
  fetched : BitVec 8 → List (BitVec 32)
  /-- The indices of the elements issued. -/
  issued : BitVec 8 → List (BitVec 32)
  /-- The elements issued and not yet acknowledged. -/
  unacked : BitVec 8 → Nat
  /-- The heads written back. -/
  heads : BitVec 8 → List (BitVec 32)

/-- The empty ledger. -/
def Ledger.empty : Ledger := ⟨fun _ => 0, fun _ => [], fun _ => [], fun _ => 0, fun _ => []⟩

namespace State

variable (s : State) (i : Input)

/-- The last packet of an element is handed over. -/
def issues : Bool := s.sq.st == .valid && i.sqReady && s.sq.last

/-- The queue pair whose acknowledgement is taken. -/
def accepts : Option (BitVec 8) :=
  if s.ack.st = .idle then i.ack.map fun a => a.qpNum.setWidth 8 else none

end State

/-- One cycle in the ledger. -/
def note (l : Ledger) (s : State) (i : Input) : Ledger where
  lastPi q := if i.sqUpdated ∧ i.qpIdx = q then i.sqPi else l.lastPi q
  fetched q :=
    if s.ar.st = .calcAddr ∧ s.sq.output.sqIdx = q then l.fetched q ++ [s.sq.localidx]
    else l.fetched q
  issued q :=
    if s.issues i ∧ s.sq.output.sqIdx = q then l.issued q ++ [s.sq.localidx] else l.issued q
  unacked q :=
    l.unacked q + (if s.issues i ∧ s.sq.output.sqIdx = q then 1 else 0) -
      (if s.accepts i = some q then 1 else 0)
  heads q :=
    match s.wbCqhead with
    | some (q', head) => if q' = q then l.heads q ++ [head] else l.heads q
    | none => l.heads q

/-- The work-queue manager with its ledger. -/
def ledgered : Machine (State × Ledger) Input := wqManager.watch Ledger.empty note

@[simp] theorem ledgered_step (s : State × Ledger) (i : Input) :
    ledgered.step s i = (s.1.step i, note s.2 s.1 i) := rfl

/-- The acknowledgement that is taken is for an issued element. -/
def AcksIssued (s : State × Ledger) (i : Input) : Prop :=
  ∀ q ∈ s.1.accepts i, 0 < s.2.unacked q

instance (s : State × Ledger) (i : Input) : Decidable (AcksIssued s i) :=
  match h : s.1.accepts i with
  | none => isTrue fun _ hq => absurd (h ▸ hq) nofun
  | some q => decidable_of_iff (0 < s.2.unacked q) ⟨fun hpos q' hq' => by
      obtain rfl : q = q' := Option.some.inj (h.symm.trans hq')
      exact hpos, fun hall => hall q h⟩

/-! ## The doorbell FIFO -/

/-- A captured doorbell finds room. -/
def Room (s : State) : Prop := s.sqFifoIf.st = .valid → s.sqFifo.readyWr = true

theorem Room.step {s : State} (i : Input) : Room (s.step i) := by
  intro hvalid
  have hst : s.sqFifoIf.st = .idle ∧ s.sqFifo.readyWr = true := by
    change (s.sqFifoStep i).st = .valid at hvalid
    cases hst : s.sqFifoIf.st with
    | idle =>
      refine ⟨rfl, ?_⟩
      by_contra hfull
      simp [State.sqFifoStep, hst, hfull] at hvalid
    | valid => simp [State.sqFifoStep, hst] at hvalid
  rw [Fifo.readyWr_iff]
  have hlen := (Fifo.readyWr_iff _).mp hst.2
  have hwr : s.sqFifoWr = false := by simp [State.sqFifoWr, hst.1]
  show (Fifo.contents (s.sqFifo.step s.sqFifoRd s.sqFifoWr s.sqFifoIf.input)).length < _
  rw [Fifo.contents_step, hwr]
  cases s.sqFifoRd
  · simpa using hlen
  · simp only [if_true, Bool.false_and, Bool.false_eq_true, if_false, List.append_nil,
      List.length_tail]
    omega

/-! ## The index of the element -/

/-- The `SQ_*` machine is between the fetch of an element and its last packet. -/
def SqState.working : SqState → Bool
  | .waitQp | .write | .send | .read | .valid => true
  | _ => false

/-- The index that is fetched and issued is the head of the entry. -/
def Indexed (s : State) : Prop := s.sq.st.working = true → s.sq.localidx = s.sq.output.cqHeadIdx

namespace SqIf

variable (s : SqIf) (wqe : BitVec 512)

@[simp] theorem kept_packet (opcode : BitVec 5) (last : Bool) (vaddr : BitVec 64)
    (len : BitVec 32) (paddr : BitVec 64) :
    (s.packet opcode last vaddr len paddr).output = s.output ∧
      (s.packet opcode last vaddr len paddr).localidx = s.localidx := ⟨rfl, rfl⟩

/-- A packet changes neither the entry nor the index. -/
@[simp] theorem kept_writeStep :
    (s.writeStep wqe).output = s.output ∧ (s.writeStep wqe).localidx = s.localidx := by
  unfold writeStep
  split_ifs <;> simp

@[simp] theorem kept_sendStep :
    (s.sendStep wqe).output = s.output ∧ (s.sendStep wqe).localidx = s.localidx := by
  unfold sendStep
  split_ifs <;> simp

@[simp] theorem kept_readStep :
    (s.readStep wqe).output = s.output ∧ (s.readStep wqe).localidx = s.localidx := ⟨rfl, rfl⟩

end SqIf

namespace State

variable (s : State) (i : Input)

/-- The entry changes when one is taken from a FIFO, and by what the cache says. -/
theorem output_sqStep (hidle : s.sq.st ≠ .idle) (hread : s.sq.st ≠ .readCache) :
    (s.sqStep i).output = s.sq.output := by
  show (s.sqNext i).output = _
  cases hst : s.sq.st with
  | idle => exact absurd hst hidle
  | readCache => exact absurd hst hread
  | ifReady | waitQp | valid =>
    simp only [sqNext, hst]
    split_ifs <;> rfl
  | _ => simp [sqNext, hst]

/-- While the element is worked on, its index stays. -/
theorem localidx_sqStep (hst : s.sq.st.working = true) :
    (s.sqStep i).localidx = s.sq.localidx := by
  show (s.sqNext i).localidx = _
  cases h : s.sq.st with
  | waitQp | valid =>
    simp only [sqNext, h]
    split_ifs <;> rfl
  | write | send | read => simp [sqNext, h]
  | _ => simp [h, SqState.working] at hst

/-- The work begins in `SQ_IF_READY`. -/
theorem working_sqStep (h : (s.sqStep i).st.working = true) :
    s.sq.st.working = true ∨
      (s.sq.st = .ifReady ∧ (s.sqStep i).st = .waitQp ∧
        (s.sqStep i).localidx = s.sq.output.cqHeadIdx) := by
  rw [st_sqStep] at h ⊢
  change _ ∨ _ ∧ _ ∧ (s.sqNext i).localidx = _
  cases hst : s.sq.st with
  | ifReady =>
    simp only [sqNext, hst] at h ⊢
    split_ifs at h ⊢ <;> simp [SqState.working] at h ⊢
  | waitQp | write | send | read | valid => simp [SqState.working]
  | idle =>
    simp only [sqNext, hst] at h
    split_ifs at h <;> simp [SqState.working, hst] at h
  | checkQueueBusy =>
    simp only [sqNext, hst] at h
    split_ifs at h <;> simp [SqState.working] at h
  | _ => simp [sqNext, hst, SqState.working] at h

end State

theorem Indexed.step {s : State} (h : Indexed s) (i : Input) : Indexed (s.step i) := by
  intro hst
  show (s.sqStep i).localidx = (s.sqStep i).output.cqHeadIdx
  rcases s.working_sqStep i hst with hold | ⟨hready, -, hidx⟩
  · rw [s.localidx_sqStep i hold, s.output_sqStep i, h hold]
    · rintro heq
      simp [heq, SqState.working] at hold
    · rintro heq
      simp [heq, SqState.working] at hold
  · rw [hidx, s.output_sqStep i (by simp [hready]) (by simp [hready])]

/-! ## The number in an entry -/

namespace State

variable (s : State) (i : Input) (q : BitVec 8)

theorem writes_sqCacheA :
    s.sqCacheA.writes q = true ↔ s.sq.st = .checkQueueBusy ∧ s.sq.output.sqIdx = q := by
  by_cases hst : s.sq.st = .checkQueueBusy <;> simp [Access.writes, sqCacheA, hst]

theorem writes_sqCacheB :
    s.sqCacheB.writes q = true ↔ s.ack.st = .finish ∧ s.ackQp = q := by
  by_cases hst : s.ack.st = .finish <;> simp [Access.writes, sqCacheB, hst]

/-- An entry of the cache stays, or one of the two machines writes it. -/
theorem sqCache_step :
    (s.step i).sqCache.ram q = s.sqCache.ram q ∨
      (s.sq.st = .checkQueueBusy ∧ s.sq.output.sqIdx = q ∧
        (s.step i).sqCache.ram q = s.sq.output) ∨
      (s.ack.st = .finish ∧ s.ackQp = q ∧ (s.step i).sqCache.ram q = s.ack.sqCDoutb) := by
  by_cases ha : s.sqCacheA.writes q = true <;> by_cases hb : s.sqCacheB.writes q = true
  · have hboth := s.sqCache.ram_step_of_writes_both i.bLast ha hb
    rw [writes_sqCacheA] at ha
    rw [writes_sqCacheB] at hb
    cases hl : i.bLast with
    | false => exact Or.inr (Or.inl ⟨ha.1, ha.2, hboth.trans (by rw [hl]; rfl)⟩)
    | true => exact Or.inr (Or.inr ⟨hb.1, hb.2, hboth.trans (by rw [hl]; rfl)⟩)
  · have hA := s.sqCache.ram_step_of_writes_a i.bLast ha
      (Bool.eq_false_iff.mpr hb)
    rw [writes_sqCacheA] at ha
    exact Or.inr (Or.inl ⟨ha.1, ha.2, hA⟩)
  · have hB := s.sqCache.ram_step_of_writes_b i.bLast
      (Bool.eq_false_iff.mpr ha) hb
    rw [writes_sqCacheB] at hb
    exact Or.inr (Or.inr ⟨hb.1, hb.2, hB⟩)
  · exact Or.inl (s.sqCache.ram_step_of_not_writes _ (Bool.eq_false_iff.mpr ha)
      (Bool.eq_false_iff.mpr hb))

end State

/-! ### What the second machine works on -/

/-- The `ACK_*` machine has latched an entry. -/
def AckState.latched : AckState → Bool
  | .updateCqhead | .writeCompletion | .wbFifoCache | .finish => true
  | _ => false

namespace State

variable (s : State) (i : Input)

/-- The `ACK_*` machine takes no other acknowledgement until it is idle again. -/
theorem currAck_ackStep (hst : s.ack.st ≠ .idle) : (s.ackStep i).currAck = s.ack.currAck := by
  cases h : s.ack.st with
  | idle => exact absurd h hst
  | writeCompletion | finish =>
    simp only [ackStep, h]
    split_ifs <;> rfl
  | _ => simp [ackStep, h]

/-- It latches the entry it has read, and keeps its number; its producer index stays, or is
cleared. -/
theorem latched_ackStep (h : (s.ackStep i).st.latched = true) :
    (s.ack.st.latched = true ∧ (s.ackStep i).sqCDoutb.sqIdx = s.ack.sqCDoutb.sqIdx ∧
        ((s.ackStep i).sqCDoutb.sqProdIdx ≠ 0#32 → s.ack.sqCDoutb.sqProdIdx ≠ 0#32)) ∨
      (s.ack.st = .readCaches ∧ (s.ackStep i).sqCDoutb.sqIdx = s.sqCache.doutb.sqIdx ∧
        (s.ackStep i).sqCDoutb.sqProdIdx = s.sqCache.doutb.sqProdIdx) := by
  cases hst : s.ack.st with
  | idle => cases ha : i.ack <;> simp [ackStep, hst, ha, AckState.latched] at h
  | getCaches => simp [ackStep, hst, AckState.latched] at h
  | readCaches => exact Or.inr ⟨rfl, by simp [ackStep, hst]⟩
  | updateCqhead => exact Or.inl ⟨rfl, by simp [ackStep, hst]⟩
  | wbFifoCache =>
    refine Or.inl ⟨rfl, ?_⟩
    simp only [ackStep, hst]
    split_ifs <;> simp
  | writeCompletion | finish =>
    refine Or.inl ⟨rfl, ?_⟩
    simp only [ackStep, hst]
    split_ifs <;> simp

/-- The read of the second port has just been made when it is looked at. -/
theorem readCaches_ackStep (h : (s.ackStep i).st = .readCaches) :
    s.ack.st = .getCaches ∧ (s.ackStep i).currAck = s.ack.currAck ∧
      (s.step i).sqCache.doutb = s.sqCache.ram s.ackQp := by
  have hst : s.ack.st = .getCaches := by
    cases hst : s.ack.st with
    | getCaches => rfl
    | idle => cases ha : i.ack <;> simp [ackStep, hst, ha] at h
    | writeCompletion | finish =>
      simp only [ackStep, hst] at h
      split_ifs at h
      all_goals simp [hst] at h
    | updateCqhead =>
      simp only [ackStep, hst] at h
      split_ifs at h
    | _ => simp [ackStep, hst] at h
  exact ⟨hst, by simp [ackStep, hst], by simp [step, Bram.step, sqCacheB, hst]⟩

end State

/-- A busy entry carries the number of its queue pair, in the cache and in the hands of the
`ACK_*` machine.  An entry that no doorbell has written carries no number. -/
structure Numbered (s : State) : Prop where
  cache : ∀ q, (s.sqCache.ram q).sqProdIdx ≠ 0#32 → (s.sqCache.ram q).sqIdx = q
  doutb : s.ack.st = .readCaches → s.sqCache.doutb.sqProdIdx ≠ 0#32 →
    s.sqCache.doutb.sqIdx = s.ackQp
  latched : s.ack.st.latched = true → s.ack.sqCDoutb.sqProdIdx ≠ 0#32 →
    s.ack.sqCDoutb.sqIdx = s.ackQp

theorem Numbered.step {s : State} (h : Numbered s) (i : Input) : Numbered (s.step i) where
  cache q hq := by
    rcases s.sqCache_step i q with hr | ⟨-, hidx, hr⟩ | ⟨hst, hidx, hr⟩
    · rw [hr] at hq ⊢
      exact h.cache q hq
    · rw [hr]
      exact hidx
    · rw [hr] at hq ⊢
      rw [h.latched (by simp [hst, AckState.latched]) hq]
      exact hidx
  doutb hst hprod := by
    obtain ⟨hget, hack, hdoutb⟩ := s.readCaches_ackStep i hst
    show (s.step i).sqCache.doutb.sqIdx = (s.ackStep i).currAck.qpNum.setWidth 8
    rw [hdoutb] at hprod ⊢
    rw [hack]
    exact h.cache _ hprod
  latched hst hprod := by
    show (s.ackStep i).sqCDoutb.sqIdx = (s.ackStep i).currAck.qpNum.setWidth 8
    change (s.ackStep i).sqCDoutb.sqProdIdx ≠ 0#32 at hprod
    rcases s.latched_ackStep i hst with ⟨hold, hidx, hkeep⟩ | ⟨hold, hidx, hkeep⟩
    · rw [hidx, s.currAck_ackStep i (fun heq => by simp [heq, AckState.latched] at hold)]
      exact h.latched hold (hkeep hprod)
    · rw [hidx, s.currAck_ackStep i (by simp [hold])]
      exact h.doutb hold (hkeep ▸ hprod)

theorem numbered_reset : Numbered State.reset where
  cache _ hq := absurd rfl hq
  doutb h := nomatch h
  latched h := nomatch h

/-! ## All together -/

/-- What holds in every run. -/
structure Sound (s : State × Ledger) : Prop where
  coupled : Coupled s.1
  room : Room s.1
  indexed : Indexed s.1
  numbered : Numbered s.1

theorem sound_reset : Sound ledgered.reset := ⟨coupled_reset, nofun, nofun, numbered_reset⟩

theorem Sound.step {s : State × Ledger} (h : Sound s) (i : Input) : Sound (ledgered.step s i) :=
  ⟨h.coupled.step, Room.step i, h.indexed.step i, h.numbered.step i⟩

end WqManager
end RecoNIC
