import RecoNIC.Arithmetic.ByteLanes
import RecoNIC.Arithmetic.SplitAdd
import RecoNIC.RoceStack.WqLedger

/-!
# Writing a completion-queue entry

When an element is acknowledged and its queue pair wants entries, the write master
stores one word in the completion queue: the work-request id, the opcode, and a zero
byte.  The word comes from the completion-queue cache, which the `SQ_*` machine fills
after the last request of an element; the address is the base plus the new head, by an
adder on 32 of the 64 bits; data and strobes always use the lowest four lanes.

The lanes are the problem: they mean the first four bytes of the 64-byte block that the
address is in, whatever its low six bits say.  `stored_iff` is the exact condition under
which the entry goes where it belongs.
-/

namespace RecoNIC
namespace WqManager

open Synchronous ByteLanes

/-! ## The entry -/

/-- The entry of an element. -/
def cqe (w : BitVec 512) : BitVec 32 := 0#8 ++ wqeOpcode w ++ w.setWidth 16

/-- The bytes the entry is to have in memory. -/
def cqeBytes (w : BitVec 512) : List (BitVec 8) :=
  [w.extractLsb' 0 8, w.extractLsb' 8 8, wqeOpcode w, 0#8]

theorem length_cqeBytes (w : BitVec 512) : (cqeBytes w).length = 4 := rfl

theorem getLsbD_cqe (w : BitVec 512) (j : Nat) :
    (cqe w).getLsbD j =
      if j < 16 then (w.setWidth 16).getLsbD j else (wqeOpcode w).getLsbD (j - 16) := by
  have happ : (cqe w).getLsbD j =
      if j < 16 then (w.setWidth 16).getLsbD j else (0#8 ++ wqeOpcode w).getLsbD (j - 16) :=
    BitVec.getLsbD_append
  rw [happ, BitVec.getLsbD_append]
  split_ifs <;> simp_all

theorem wordBytes_cqe (w : BitVec 512) : wordBytes (cqe w) = cqeBytes w := by
  simp only [wordBytes, cqeBytes, List.cons.injEq, and_true]
  refine ⟨?_, ?_, ?_, ?_⟩ <;> ext i hi
  · simp [getLsbD_cqe, show i < 16 by omega]
  · simp [getLsbD_cqe, show 8 + i < 16 by omega]
  · simp [getLsbD_cqe, BitVec.getLsbD_eq_getElem hi]
  · simp [getLsbD_cqe, show ¬ 24 + i < 16 by omega,
      BitVec.getLsbD_of_ge (wqeOpcode w) (24 + i - 16) (by omega)]

/-! ## The write master -/

/-- `m_axi_qp_get_wqe_wstrb_o`. -/
def wstrb : BitVec 64 := 0xF

namespace State

variable (s : State) (i : Input)

/-- `m_axi_qp_get_wqe_wdata_o`. -/
def wdata : BitVec 512 := s.ack.cqCDoutb.setWidth 512

/-- The base of the completion queue, as the entry of the queue pair has it. -/
def cqBase : BitVec 64 := s.ack.sqCDoutb.cqBaseAddr

/-- One less than the number of the completion. -/
def completed : BitVec 32 := s.ack.sqCDoutb.cqHeadIdx - 1

/-- The completion-queue cache once the first port has written. -/
def cqNow (q : BitVec 8) : BitVec 32 := s.cqCacheA.apply s.cqCache.ram q

theorem ram_cqCache_step (q : BitVec 8) : (s.step i).cqCache.ram q = s.cqNow q := by
  have hb : ∀ ram : BitVec 8 → BitVec 32, s.cqCacheB.apply ram = ram := by
    intro ram
    funext k
    simp [Access.apply, Access.writes, cqCacheB]
  show (s.cqCache.step s.cqCacheA s.cqCacheB i.bLast).ram q = _
  rw [Bram.step, hb, hb]
  cases i.bLast <;> rfl

theorem cqNow_of_writeCqCache (hst : s.sq.st = .writeCqCache) (q : BitVec 8) :
    s.cqNow q = if s.sq.output.sqIdx = q then s.sq.cqReg else s.cqCache.ram q := by
  simp [cqNow, Access.apply, Access.writes, cqCacheA, hst]

theorem cqNow_of_ne (hst : s.sq.st ≠ .writeCqCache) (q : BitVec 8) :
    s.cqNow q = s.cqCache.ram q := by
  simp [cqNow, Access.apply, Access.writes, cqCacheA, hst]

/-- The cache is written after the last request of an element. -/
theorem writeCqCache_iff : (s.step i).sq.st = .writeCqCache ↔ s.issues i = true := by
  show (s.sqNext i).st = _ ↔ _
  cases hst : s.sq.st with
  | valid =>
    simp only [sqNext, issues, hst]
    split_ifs <;> simp [*]
  | write | send | read => simp [sqNext, issues, hst]
  | idle | checkQueueBusy | ifReady | waitQp =>
    simp only [sqNext, issues, hst]
    split_ifs <;> simp [hst]
  | _ => simp [sqNext, issues, hst]

theorem cqReg_of_issues (h : s.issues i = true) :
    (s.step i).sq.cqReg = cqe s.ar.wqe ∧ (s.step i).sq.output = s.sq.output := by
  simp only [issues, Bool.and_eq_true, beq_iff_eq] at h
  simp [step, sqStep, sqNext, h, cqe]

end State

/-! ## The ledger -/

/-- The elements whose completions the write master is concerned with. -/
structure Completions where
  /-- Issued and not yet acknowledged, the oldest first. -/
  unacked : BitVec 8 → List (BitVec 512)
  /-- The last one issued. -/
  last : BitVec 8 → Option (BitVec 512)
  /-- The one that the acknowledgement being worked on is for, -/
  completing : Option (BitVec 512)
  /-- and the last one of its queue pair when that was taken. -/
  newest : Option (BitVec 512)
  /-- The last address the bus has taken. -/
  awaddr : BitVec 64

/-- One cycle of the ledger. -/
def Completions.note (c : Completions) (s : State) (i : Input) : Completions where
  unacked q :=
    (if s.accepts i = some q then (c.unacked q).tail else c.unacked q) ++
      (if s.issues i ∧ s.sq.output.sqIdx = q then [s.ar.wqe] else [])
  last q := if s.issues i ∧ s.sq.output.sqIdx = q then some s.ar.wqe else c.last q
  completing :=
    match s.accepts i with
    | some q => (c.unacked q).head?
    | none => c.completing
  newest :=
    match s.accepts i with
    | some q => c.last q
    | none => c.newest
  awaddr := if s.aw.st = .valid ∧ i.awReady then s.aw.wrAddr else c.awaddr

/-- The work-queue manager with this ledger. -/
def completions : Machine (State × Completions) Input :=
  wqManager.watch ⟨fun _ => [], fun _ => none, none, none, 0⟩ Completions.note

@[simp] theorem completions_step (x : State × Completions) (i : Input) :
    completions.step x i = (x.1.step i, x.2.note x.1 i) := rfl

/-! ## The invariant -/

/-- What the entry, its address and the two ledgers have to do with each other. -/
structure Delivering (x : State × Completions) : Prop where
  /-- The cache holds the entry of the last element issued, or is about to. -/
  cache : ∀ q, ∀ w ∈ x.2.last q, x.1.cqNow q = cqe w
  unacked : ∀ q, x.2.unacked q ≠ [] → (x.2.last q).isSome = true
  newest : x.2.completing.isSome = true → x.2.newest.isSome = true
  /-- The entry on its way to the data wires. -/
  getCaches : x.1.ack.st = .getCaches → ∀ w ∈ x.2.newest, x.1.cqCache.ram x.1.ackQp = cqe w
  readCaches : x.1.ack.st = .readCaches → ∀ w ∈ x.2.newest, x.1.cqCache.doutb = cqe w
  loaded : x.1.ack.st = .updateCqhead ∨ x.1.ack.st = .writeCompletion →
    ∀ w ∈ x.2.newest, x.1.ack.cqCDoutb = cqe w
  /-- The write master works while the `ACK_*` machine waits for it. -/
  waiting : x.1.aw.st ≠ .idle → x.1.ack.st = .writeCompletion
  wrAddr : x.1.aw.st = .valid ∨ x.1.aw.st = .writing →
    x.1.aw.wrAddr = SplitAdd.addField 30 32 2 x.1.cqBase x.1.completed
  awaddr : x.1.aw.st = .writing → x.2.awaddr = x.1.aw.wrAddr

theorem delivering_reset : Delivering completions.reset where
  cache _ _ hw := nomatch hw
  unacked _ h := absurd rfl h
  newest h := nomatch h
  getCaches h := nomatch h
  readCaches h := nomatch h
  loaded h := by rcases h with h | h <;> cases h
  waiting h := absurd rfl h
  wrAddr h := by rcases h with h | h <;> cases h
  awaddr h := nomatch h

section Step

variable {x : State × Completions} {i : Input}

theorem accepts_of_ne (hst : x.1.ack.st ≠ .idle) : x.1.accepts i = none := by
  simp [State.accepts, hst]

/-- Where the `ACK_*` machine comes from, and what it brings along. -/
theorem ackStep_cases :
    match (x.1.ackStep i).st with
    | .getCaches => x.1.accepts i = some (x.1.step i).ackQp
    | .readCaches => x.1.ack.st = .getCaches
    | .updateCqhead =>
      x.1.ack.st = .readCaches ∧ (x.1.ackStep i).cqCDoutb = x.1.cqCache.doutb
    | .writeCompletion =>
      (x.1.ack.st = .updateCqhead ∨ x.1.ack.st = .writeCompletion) ∧
        (x.1.ackStep i).cqCDoutb = x.1.ack.cqCDoutb
    | _ => True := by
  cases hst : x.1.ack.st with
  | idle =>
    rcases hack : i.ack with _ | a
    · simp [State.ackStep, hst, hack]
    · simp [State.accepts, State.ackQp, State.step, State.ackStep, hst, hack]
  | updateCqhead =>
    simp only [State.ackStep, hst]
    split_ifs <;> simp
  | writeCompletion =>
    cases hdone : x.1.completionWritten <;> simp [State.ackStep, hst, hdone]
  | finish =>
    by_cases hzero : x.1.ack.sqCDoutb.sqProdIdx = 0#32 <;>
      cases hroom : x.1.sqFifoBatch.readyWr <;> simp [State.ackStep, hst, hzero, hroom]
  | _ => simp [State.ackStep, hst]

/-- The entry of the queue pair does not change while the write master works. -/
theorem sqCDoutb_ackStep (hst : x.1.ack.st = .writeCompletion) :
    (x.1.ackStep i).sqCDoutb = x.1.ack.sqCDoutb := by
  simp only [State.ackStep, hst]
  split_ifs <;> rfl

theorem Delivering.cache_step (h : Delivering x) (q : BitVec 8) :
    ∀ w ∈ (x.2.note x.1 i).last q, (x.1.step i).cqNow q = cqe w := by
  intro w hw
  by_cases hissue : x.1.issues i = true
  · obtain ⟨hreg, hout⟩ := x.1.cqReg_of_issues i hissue
    rw [State.cqNow_of_writeCqCache _ ((x.1.writeCqCache_iff i).mpr hissue), hout]
    by_cases hq : x.1.sq.output.sqIdx = q
    · rw [if_pos hq, hreg]
      simp only [Completions.note, hissue, hq, and_self, if_true, Option.mem_def,
        Option.some.injEq] at hw
      rw [hw]
    · rw [if_neg hq, State.ram_cqCache_step]
      simp only [Completions.note, hq, and_false, if_false] at hw
      exact h.cache q w hw
  · rw [State.cqNow_of_ne _ (mt (x.1.writeCqCache_iff i).mp hissue), State.ram_cqCache_step]
    simp only [Completions.note, hissue, Bool.false_eq_true, false_and, if_false] at hw
    exact h.cache q w hw

theorem Delivering.unacked_step (h : Delivering x) (q : BitVec 8)
    (hne : (x.2.note x.1 i).unacked q ≠ []) : ((x.2.note x.1 i).last q).isSome = true := by
  by_cases hissue : x.1.issues i = true ∧ x.1.sq.output.sqIdx = q
  · simp [Completions.note, hissue]
  · simp only [Completions.note, if_neg hissue, List.append_nil] at hne ⊢
    refine h.unacked q ?_
    intro hnil
    rw [hnil] at hne
    split_ifs at hne <;> exact hne rfl

theorem Delivering.newest_step (h : Delivering x)
    (hsome : (x.2.note x.1 i).completing.isSome = true) :
    (x.2.note x.1 i).newest.isSome = true := by
  rcases hacc : x.1.accepts i with _ | q
  · simp only [Completions.note, hacc] at hsome ⊢
    exact h.newest hsome
  · simp only [Completions.note, hacc] at hsome ⊢
    refine h.unacked q ?_
    intro hnil
    simp [hnil] at hsome

theorem note_newest (hst : x.1.ack.st ≠ .idle) :
    (x.2.note x.1 i).newest = x.2.newest := by
  simp [Completions.note, accepts_of_ne hst]

/-- The write master starts from `ACK_UPDATE_CQHEAD` and ends with `ACK_WRITE_COMPLETION`. -/
theorem Delivering.waiting_step (h : Delivering x) (haw : (x.1.awStep i).st ≠ .idle) :
    (x.1.ackStep i).st = .writeCompletion := by
  by_cases hidle : x.1.aw.st = .idle
  · have hwrite : x.1.writeCompletion = true := by
      by_contra hno
      simp [State.awStep, hidle, hno] at haw
    simp only [State.writeCompletion, Bool.and_eq_true, beq_iff_eq] at hwrite
    simp [State.ackStep, hwrite]
  · have hdone : x.1.completionWritten = false := by
      rw [State.completionWritten, beq_eq_false_iff_ne]
      intro hdone
      simp [State.awStep, hdone] at haw
    simp [State.ackStep, h.waiting hidle, hdone]

/-- The address is computed once, and the bus takes it before it takes the data. -/
theorem Delivering.wrAddr_step (h : Delivering x)
    (haw : (x.1.awStep i).st = .valid ∨ (x.1.awStep i).st = .writing) :
    x.1.aw.st ≠ .idle ∧
      (x.1.awStep i).wrAddr = SplitAdd.addField 30 32 2 x.1.cqBase x.1.completed ∧
      ((x.1.awStep i).st = .writing →
        (x.2.note x.1 i).awaddr = (x.1.awStep i).wrAddr) := by
  cases hst : x.1.aw.st with
  | calcAddr => exact ⟨nofun, by simp only [State.awStep, hst]; rfl, by simp [State.awStep, hst]⟩
  | valid =>
    have hwr := h.wrAddr (Or.inl hst)
    cases hready : i.awReady <;>
      simp [State.awStep, Completions.note, hst, hready, hwr]
  | writing =>
    have hwr := h.wrAddr (Or.inr hst)
    have hbus := h.awaddr hst
    cases hready : i.wReady <;>
      simp [State.awStep, Completions.note, hst, hready, hwr, hbus] at haw ⊢
  | idle =>
    simp only [State.awStep, hst] at haw
    split_ifs at haw <;> simp [hst] at haw
  | bresp =>
    simp only [State.awStep, hst] at haw
    split_ifs at haw <;> simp [hst] at haw
  | done => simp [State.awStep, hst] at haw

/-- **One cycle keeps the invariant.** -/
theorem Delivering.step (h : Delivering x) : Delivering (completions.step x i) where
  cache := h.cache_step
  unacked := h.unacked_step
  newest := h.newest_step
  getCaches hst w hw := by
    have hcases := ackStep_cases (x := x) (i := i)
    rw [show (x.1.ackStep i).st = .getCaches from hst] at hcases
    simp only [completions_step, Completions.note, hcases] at hw
    exact (x.1.ram_cqCache_step i _).trans (h.cache _ w hw)
  readCaches hst w hw := by
    have hcases := ackStep_cases (x := x) (i := i)
    rw [show (x.1.ackStep i).st = .readCaches from hst] at hcases
    simp only [completions_step, note_newest (show x.1.ack.st ≠ .idle by simp [hcases])] at hw
    have hread : (x.1.step i).cqCache.doutb = x.1.cqCache.ram x.1.ackQp := by
      simp [State.step, Bram.step, State.cqCacheB, hcases]
    exact hread.trans (h.getCaches hcases w hw)
  loaded hst w hw := by
    have hcases := ackStep_cases (x := x) (i := i)
    rcases hst with hst | hst
    · rw [show (x.1.ackStep i).st = .updateCqhead from hst] at hcases
      simp only [completions_step,
        note_newest (show x.1.ack.st ≠ .idle by simp [hcases.1])] at hw
      exact hcases.2.trans (h.readCaches hcases.1 w hw)
    · rw [show (x.1.ackStep i).st = .writeCompletion from hst] at hcases
      have hne : x.1.ack.st ≠ .idle := by
        rcases hcases.1 with h | h <;> simp [h]
      simp only [completions_step, note_newest hne] at hw
      exact hcases.2.trans (h.loaded hcases.1 w hw)
  waiting := h.waiting_step
  wrAddr haw := by
    obtain ⟨hne, hwr, -⟩ := h.wrAddr_step haw
    have hsame := sqCDoutb_ackStep (i := i) (h.waiting hne)
    have hbase : (x.1.step i).cqBase = x.1.cqBase := congrArg SQdata.cqBaseAddr hsame
    have hdone : (x.1.step i).completed = x.1.completed :=
      congrArg (fun d : SQdata => d.cqHeadIdx - 1) hsame
    show (x.1.awStep i).wrAddr =
      SplitAdd.addField 30 32 2 (x.1.step i).cqBase (x.1.step i).completed
    rw [hwr, hbase, hdone]
  awaddr haw := (h.wrAddr_step (Or.inr haw)).2.2 haw

end Step

/-- The invariant holds in every state of every run. -/
theorem delivering_run (is : List Input) : Delivering (completions.run is) :=
  (Machine.always_of_step (fun _ _ h => h.step) delivering_reset is).last

/-! ## The result -/

/-- Where the entry belongs. -/
def State.slot (s : State) : Nat := s.cqBase.toNat + 4 * s.completed.toNat

/-- The store that the bus makes puts the entry of `w` in its place and nothing anywhere
else, whatever the memory holds. -/
def Stored (x : State × Completions) (w : BitVec 512) : Prop :=
  ∀ mem, storeLanes mem x.2.awaddr x.1.wdata wstrb =
    storeBytes mem x.1.slot (cqeBytes w)

/-- When it does. -/
structure Placeable (x : State × Completions) (w : BitVec 512) : Prop where
  /-- The slot is the first of a block of 64 bytes. -/
  slot : x.1.slot % 64 = 0
  /-- The adder does not lose a carry. -/
  carry : x.1.cqBase.toNat % 2 ^ 34 + 4 * x.1.completed.toNat < 2 ^ 34
  /-- The element is the last one issued on its queue pair, or has the same entry. -/
  entry : ∀ v ∈ x.2.newest, cqeBytes v = cqeBytes w

theorem block_addField_eq_iff (base : BitVec 64) (n : BitVec 32) :
    block (SplitAdd.addField 30 32 2 base n) = base.toNat + 4 * n.toNat ↔
      (base.toNat + 4 * n.toNat) % 64 = 0 ∧ base.toNat % 2 ^ 34 + 4 * n.toNat < 2 ^ 34 := by
  have hlow : SplitAdd.low (h := 30) (m := 32) (l := 2) base = base.toNat % 2 ^ 34 := rfl
  by_cases hcarry : base.toNat % 2 ^ 34 + 4 * n.toNat < 2 ^ 34
  · have hsum := SplitAdd.toNat_addField_of_lt (h := 30) (m := 32) (l := 2) base n
      (by rw [hlow]; omega)
    rw [block, hsum]
    omega
  · have hsum := SplitAdd.toNat_addField_of_le (h := 30) (m := 32) (l := 2) base n
      (by rw [hlow]; omega)
    rw [block]
    omega

/-- **Where a completion entry goes.**  In every run, while the write master has its data
on the bus for the completion of `w`, the store puts the entry of `w` in its slot and
touches no other byte iff the slot is the first of a 64-byte block, no carry leaves the
adder, and `w` is the last element issued on its queue pair or looks like it. -/
theorem stored_iff (is : List Input) (w : BitVec 512)
    (hwriting : (completions.run is).1.aw.st = .writing)
    (hw : (completions.run is).2.completing = some w) :
    Stored (completions.run is) w ↔ Placeable (completions.run is) w := by
  have h := delivering_run is
  generalize completions.run is = x at h hwriting hw
  have hack := h.waiting (by rw [hwriting]; nofun)
  obtain ⟨v, hv⟩ := Option.isSome_iff_exists.mp (h.newest (by rw [hw]; rfl))
  have hdata : x.1.wdata = (cqe v).setWidth 512 := by
    rw [State.wdata, h.loaded (Or.inr hack) v hv]
  have haddr : x.2.awaddr = SplitAdd.addField 30 32 2 x.1.cqBase x.1.completed :=
    (h.awaddr hwriting).trans (h.wrAddr (Or.inr hwriting))
  have hstore : Stored x w ↔
      ∀ mem, storeBytes mem (block x.2.awaddr) (cqeBytes v) =
        storeBytes mem x.1.slot (cqeBytes w) := by
    rw [Stored, hdata]
    refine forall_congr' fun mem => ?_
    rw [← wordBytes_cqe v, ← storeLanes_low]
    rfl
  have hlen : (cqeBytes v).length = (cqeBytes w).length := by
    rw [length_cqeBytes, length_cqeBytes]
  have hfit : block x.2.awaddr + (cqeBytes v).length ≤ 2 ^ 64 := by
    have hlt := x.2.awaddr.isLt
    rw [length_cqeBytes, block]
    omega
  rw [hstore, storeBytes_eq_iff hlen (by rw [length_cqeBytes]; decide) hfit, haddr, State.slot,
    block_addField_eq_iff]
  constructor
  · rintro ⟨⟨hslot, hcarry⟩, hentry⟩
    refine ⟨hslot, hcarry, fun v' hv' => ?_⟩
    rw [hv] at hv'
    obtain rfl := Option.some.inj hv'
    exact hentry
  · rintro ⟨hslot, hcarry, hentry⟩
    exact ⟨⟨hslot, hcarry⟩, hentry v hv⟩

/-- An element of queue pair 1 with work-request id 7, completion queue at `0x1000`, is
issued and acknowledged when `head` elements are complete; the entry is on the bus. -/
def oneCompletion (head : BitVec 32) : List Input :=
  { ring 1 (head + 1) head with cqBa := 0x1000, qpConf := 0x21 } ::
    List.replicate 17 (serve 1 7#512) ++ acknowledge 1 :: List.replicate 5 Input.quiet

/-- The first entry of the queue is well placed. -/
theorem stored_first : Stored (completions.run (oneCompletion 0)) 7#512 := by
  have hnewest : (completions.run (oneCompletion 0)).2.newest = some 7#512 := by decide +kernel
  refine (stored_iff (oneCompletion 0) 7#512 (by decide +kernel) (by decide +kernel)).mpr
    ⟨by decide +kernel, by decide +kernel, fun v hv => ?_⟩
  rw [hnewest] at hv
  rw [Option.mem_some_iff.mp hv]

/-- The second one is written over the first. -/
theorem second_over_first :
    (completions.run (oneCompletion 1)).1.aw.st = .writing ∧
      (completions.run (oneCompletion 1)).2.completing = some 7#512 ∧
      (completions.run (oneCompletion 1)).1.slot = 0x1004 ∧
      ¬ Stored (completions.run (oneCompletion 1)) 7#512 := by
  refine ⟨by decide +kernel, by decide +kernel, by decide +kernel, fun hstored => ?_⟩
  -- the byte at the base of the queue is not part of the second entry
  have hbyte := congrFun (hstored fun _ => 0xFF) 0x1000#64
  revert hbyte
  decide +kernel

end WqManager
end RecoNIC
