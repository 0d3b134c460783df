import RecoNIC.RoceStack.RdmaFlow

/-!
# Credit windows

What the flow control promises to a queue pair and a kind of request --- reads, or
writes and sends: a window of sixteen, an entry of the table of its own, and that a
request is held back exactly while the window is full.

The ledger counts, for each queue pair and kind, the requests let through and not
yet acknowledged, and it keeps for every lookup the entry that is read and the
entry that is updated.  The read goes to entry 0 whoever asks, since the address
wires are back at zero when the RAM is read for good; the update goes to the entry
of `pid` and `vfid`, which a request leaves zero and an acknowledgement fills with
bits of the queue-pair number.  So the promise is kept for one queue pair alone:
`windows_iff` says that a run keeps it iff all its lookups are of writes or sends
of one queue pair, and its acknowledgements have a number whose low seven bits are
zero.
-/

namespace RecoNIC
namespace RdmaFlow

open Synchronous

/-! ## The ledger -/

/-- A queue pair, and whether the requests are reads. -/
abbrev Key := BitVec 16 × Bool

/-- The key of an acknowledgement. -/
def ackKey (w : BitVec 64) : Key :=
  ((rdmaAck w).ack.qpNum, isOpcodeRdResp (rdmaAck w).ack.opcode)

/-- The key of a request. -/
def reqKey (r : WqRequest) : Key := (r.dreq.req1.qpn, isOpcodeRdReq r.dreq.req1.opcode)

/-- One lookup: on whose behalf, which entry is read and which one updated. -/
structure Use where
  key : Key
  read : BitVec 8
  write : BitVec 8
  deriving DecidableEq

/-- What was let through and not acknowledged, whose lookup is under way, and the
lookups so far. -/
structure Ledger where
  outstanding : Key → Nat
  current : Key
  uses : List Use

/-- The empty ledger. -/
def Ledger.empty : Ledger := ⟨fun _ => 0, (0, false), []⟩

/-- The key of what `ST_IDLE` begins. -/
def beginsKey (s : Flow) (i : Input) : Option Key :=
  match i.ack with
  | some w => some (ackKey w)
  | none => s.sReq.map reqKey

/-- One cycle in the ledger. -/
def note (l : Ledger) (s : Flow) (i : Input) : Ledger :=
  match s.st with
  | .idle => { l with current := (beginsKey s i).getD l.current }
  | .ackLupWait | .reqLupWait =>
    { l with uses := l.uses ++ [⟨l.current, s.ssnAddr i, s.addr⟩] }
  | .ackLup =>
    { l with
      outstanding := Function.update l.outstanding l.current (l.outstanding l.current - 1) }
  | .reqLup =>
    if s.accepts then
      { l with
        outstanding := Function.update l.outstanding l.current (l.outstanding l.current + 1) }
    else l

/-- The flow control with its ledger. -/
def ledgered : Machine (Flow × Ledger) Input := flow.watch Ledger.empty note

@[simp] theorem ledgered_step (s : Flow × Ledger) (i : Input) :
    ledgered.step s i = (step s.1 i, note s.2 s.1 i) := rfl

/-! ## The promise -/

/-- Every lookup reads the entry it updates, and two lookups share an entry iff they
are on behalf of the same queue pair and kind. -/
def OwnEntries (uses : List Use) : Prop :=
  (∀ u ∈ uses, u.read = u.write) ∧ ∀ u ∈ uses, ∀ v ∈ uses, u.write = v.write ↔ u.key = v.key

/-- A request is held back iff its window is full. -/
def HeldIffFull (s : Flow × Ledger) : Prop :=
  s.1.st = .reqLup → (s.1.accepts = false ↔ s.2.outstanding s.2.current = nOst)

/-- The windows are kept apart and work. -/
structure Windows (s : Flow × Ledger) : Prop where
  entries : OwnEntries s.2.uses
  held : HeldIffFull s

/-- Acknowledgements are for requests that were let through. -/
def AcksIssued (s : Flow × Ledger) (i : Input) : Prop :=
  s.1.st = .idle → ∀ w ∈ i.ack, 0 < s.2.outstanding (ackKey w)

instance (s : Flow × Ledger) (i : Input) : Decidable (AcksIssued s i) :=
  match h : i.ack with
  | none => isTrue fun _ w hw => by simp [h] at hw
  | some w => decidable_of_iff (s.1.st = .idle → 0 < s.2.outstanding (ackKey w))
      (by simp [AcksIssued, h])

/-- The lookup that begins is of a write or send, of the queue pair of all lookups
before, and, if it is of an acknowledgement, the low seven bits of the number are
zero. -/
def Alone (s : Flow × Ledger) (_ : Input) : Prop :=
  s.1.st = .ackLupWait ∨ s.1.st = .reqLupWait →
    s.2.current.2 = false ∧ (s.1.st = .ackLupWait → s.2.current.1.setWidth 7 = 0#7) ∧
      ∀ u ∈ s.2.uses, u.key.1 = s.2.current.1

/-! ## The entry of one queue pair -/

/-- The word of an entry with `n` requests outstanding. -/
structure Table (w : BitVec 16) (n : Nat) : Prop where
  le : n ≤ nOst
  flag : issued w = decide (0 < n)
  distance : (head w).toNat = ((tail w).toNat + n) % nOst

theorem table_zero : Table 0 0 := ⟨by decide, by decide, by decide⟩

/-- The pointers meet on a full window, and on an empty one the flag is down. -/
theorem Table.accepts_iff {s : Flow} {n : Nat} (h : Table s.dataReg n) :
    s.accepts = false ↔ n = nOst := by
  have hle := h.le
  have hhead := h.distance
  have htail := (tail s.dataReg).isLt
  have hmeet : head s.dataReg = tail s.dataReg ↔ n % nOst = 0 := by
    rw [← BitVec.toNat_inj, hhead]
    unfold nOst at hle ⊢
    omega
  simp only [Flow.accepts, h.flag, Bool.or_eq_false_iff, Bool.not_eq_false', decide_eq_true_eq,
    bne_eq_false_iff_eq, hmeet]
  unfold nOst at hle ⊢
  omega

/-- A request that passes. -/
theorem Table.request {w : BitVec 16} {n : Nat} (h : Table w n) (hn : n ≠ nOst) :
    Table (entry true (head w + 1) (tail w)) (n + 1) := by
  have hle := h.le
  have hhead := h.distance
  refine ⟨by omega, by simp, ?_⟩
  simp only [head_entry, tail_entry, BitVec.toNat_add, hhead]
  unfold nOst
  simp
  omega

/-- An acknowledgement. -/
theorem Table.ack {w : BitVec 16} {n : Nat} (h : Table w n) (hn : 0 < n) :
    Table (entry (if head w = tail w + 1 then false else issued w)
      (head w) (tail w + 1)) (n - 1) := by
  have hle := h.le
  have hhead := h.distance
  have htail := (tail w).isLt
  have hlast : head w = tail w + 1 ↔ n = 1 := by
    rw [← BitVec.toNat_inj, BitVec.toNat_add, hhead]
    unfold nOst at hle ⊢
    simp
    omega
  refine ⟨by omega, ?_, ?_⟩
  · rw [issued_entry, h.flag]
    simp only [hlast]
    split_ifs with h1
    · simp [h1]
    · simp
      omega
  · simp only [head_entry, tail_entry, BitVec.toNat_add, hhead]
    unfold nOst at hle ⊢
    simp
    omega

/-- The entry of an acknowledgement is cut out of its key. -/
theorem ackAddr_eq (w : BitVec 64) :
    ackAddr (rdmaAck w) = BitVec.ofBool (ackKey w).2 ++ (ackKey w).1.setWidth 7 := by
  have hlow : ((w.extractLsb' 38 4).setWidth 1 ++ w.extractLsb' 32 6 : BitVec 7) =
      (w.extractLsb' 32 16).setWidth 7 := by
    ext i hi
    simp only [BitVec.getElem_append, BitVec.getElem_setWidth, BitVec.getLsbD_extractLsb',
      BitVec.getElem_extractLsb']
    split_ifs with h6
    · simp [show i < 16 by omega]
    · have : i = 6 := by omega
      subst this
      simp
  exact congrArg (BitVec.ofBool _ ++ ·) hlow

/-- The entry of a request depends on its kind alone. -/
theorem reqAddr_eq (r : WqRequest) : reqAddr r.dreq = BitVec.ofBool (reqKey r).2 ++ 0#7 := by
  rw [reqAddr, r.pid_eq, r.vfid_eq]
  rfl

theorem ofBool_append_eq_zero (b : Bool) (x : BitVec 7) :
    BitVec.ofBool b ++ x = 0#8 ↔ b = false ∧ x = 0#7 := by
  revert b x
  decide

/-! ## The invariant -/

/-- What is kept as long as the flow control serves one queue pair: all lookups use
the entry 0, and the entry counts for their key. -/
structure Inv (s : Flow × Ledger) : Prop where
  uses : ∀ u ∈ s.2.uses, u.read = 0#8 ∧ u.write = 0#8 ∧ u.key.2 = false
  same : ∀ u ∈ s.2.uses, ∀ v ∈ s.2.uses, u.key = v.key
  table : ∀ u ∈ s.2.uses, Table (s.1.ram 0) (s.2.outstanding u.key)
  fresh : s.2.uses = [] → Table (s.1.ram 0) 0
  others : ∀ k, s.2.outstanding k ≠ 0 → ∃ u ∈ s.2.uses, u.key = k
  ackWait : s.1.st = .ackLupWait →
    s.1.addr = BitVec.ofBool s.2.current.2 ++ s.2.current.1.setWidth 7
  reqWait : s.1.st = .reqLupWait → s.1.addr = BitVec.ofBool s.2.current.2 ++ 0#7
  acked : s.1.st = .ackLupWait ∨ s.1.st = .ackLup → 0 < s.2.outstanding s.2.current
  requested : s.1.st = .reqLupWait ∨ s.1.st = .reqLup →
    ∃ r, s.1.sReq = some r ∧ reqKey r = s.2.current
  lup : s.1.st = .ackLup ∨ s.1.st = .reqLup →
    s.1.addr = 0#8 ∧ s.1.dataReg = s.1.ram 0 ∧ ⟨s.2.current, 0, 0⟩ ∈ s.2.uses

section Step

variable {s : Flow × Ledger} {i : Input}

theorem Inv.windows (h : Inv s) : Windows s := by
  refine ⟨⟨fun u hu => ?_, fun u hu v hv => ?_⟩, fun hst => ?_⟩
  · obtain ⟨hr, hw, -⟩ := h.uses u hu
    rw [hr, hw]
  · rw [(h.uses u hu).2.1, (h.uses v hv).2.1]
    exact iff_of_true rfl (h.same u hu v hv)
  · obtain ⟨-, hdata, huse⟩ := h.lup (Or.inr hst)
    have htable := h.table _ huse
    rw [← hdata] at htable
    exact htable.accepts_iff

/-- When all lookups were for one key, the entry at address 0 is that of the key. -/
theorem Inv.table_current (h : Inv s) (hkey : ∀ u ∈ s.2.uses, u.key = s.2.current) :
    Table (s.1.ram 0) (s.2.outstanding s.2.current) := by
  rcases hu : s.2.uses with _ | ⟨u, us⟩
  · have hzero : s.2.outstanding s.2.current = 0 := by
      by_contra hne
      obtain ⟨u, hmem, -⟩ := h.others _ hne
      rw [hu] at hmem
      exact List.not_mem_nil hmem
    rw [hzero]
    exact h.fresh hu
  · have hmem : u ∈ s.2.uses := by rw [hu]; exact List.mem_cons_self
    rw [← hkey u hmem]
    exact h.table u hmem

/-- The lookup that begins joins the others. -/
theorem Inv.join {s' : Flow × Ledger} (h : Inv s)
    (huses : s'.2.uses = s.2.uses ++ [⟨s.2.current, 0, 0⟩])
    (hram : s'.1.ram = s.1.ram) (hout : s'.2.outstanding = s.2.outstanding)
    (hkind : s.2.current.2 = false) (hqp : ∀ u ∈ s.2.uses, u.key.1 = s.2.current.1)
    (hst : s'.1.st = .ackLup ∨ s'.1.st = .reqLup)
    (hacked : s'.1.st = .ackLup → 0 < s.2.outstanding s.2.current)
    (hreq : s'.1.st = .reqLup → ∃ r, s'.1.sReq = some r ∧ reqKey r = s.2.current)
    (hcur : s'.2.current = s.2.current) (haddr : s'.1.addr = 0#8)
    (hdata : s'.1.dataReg = s.1.ram 0) : Inv s' := by
  have hkey : ∀ u ∈ s.2.uses, u.key = s.2.current := fun u hu =>
    Prod.ext (hqp u hu) ((h.uses u hu).2.2.trans hkind.symm)
  have hall : ∀ u ∈ s'.2.uses, u.key = s.2.current := by
    intro u hu
    rw [huses] at hu
    rcases List.mem_append.mp hu with hu | hu
    · exact hkey u hu
    · rw [List.mem_singleton.mp hu]
  have htable := h.table_current hkey
  constructor
  case uses =>
    intro u hu
    rw [huses] at hu
    rcases List.mem_append.mp hu with hu | hu
    · exact h.uses u hu
    · rw [List.mem_singleton.mp hu]
      exact ⟨rfl, rfl, hkind⟩
  case same =>
    exact fun u hu v hv => (hall u hu).trans (hall v hv).symm
  case table =>
    intro u hu
    rw [hram, hout, hall u hu]
    exact htable
  case fresh =>
    intro hno
    simp [huses] at hno
  case others =>
    intro k hk
    rw [hout] at hk
    obtain ⟨u, hu, hk⟩ := h.others k hk
    exact ⟨u, by rw [huses]; exact List.mem_append_left _ hu, hk⟩
  case ackWait =>
    intro hno
    rcases hst with hst | hst <;> rw [hst] at hno <;> cases hno
  case reqWait =>
    intro hno
    rcases hst with hst | hst <;> rw [hst] at hno <;> cases hno
  case acked =>
    rintro (hno | hst')
    · rcases hst with hst | hst <;> rw [hst] at hno <;> cases hno
    · rw [hout, hcur]
      exact hacked hst'
  case requested =>
    rintro (hno | hst')
    · rcases hst with hst | hst <;> rw [hst] at hno <;> cases hno
    · rw [hcur]
      exact hreq hst'
  case lup =>
    intro _
    refine ⟨haddr, by rw [hdata, hram], ?_⟩
    rw [huses, hcur]
    exact List.mem_append_right _ List.mem_cons_self

/-- A lookup ends, and the machine is idle again. -/
theorem Inv.finish {s' : Flow × Ledger} {n : Nat} (h : Inv s)
    (hst : s'.1.st = .idle) (huse : ⟨s.2.current, 0, 0⟩ ∈ s.2.uses)
    (huses : s'.2.uses = s.2.uses)
    (hout : s'.2.outstanding = Function.update s.2.outstanding s.2.current n)
    (htable : Table (s'.1.ram 0) n) : Inv s' := by
  have hkey : ∀ u ∈ s.2.uses, u.key = s.2.current := fun u hu => h.same u hu _ huse
  refine ⟨by rw [huses]; exact h.uses, by rw [huses]; exact h.same, ?_, ?_, ?_, ?_, ?_, ?_, ?_, ?_⟩
  · intro u hu
    rw [huses] at hu
    rw [hout, hkey u hu, Function.update_self]
    exact htable
  · intro hno
    rw [huses] at hno
    rw [hno] at huse
    exact absurd huse List.not_mem_nil
  · intro k hk
    rw [huses]
    by_cases hkc : k = s.2.current
    · exact ⟨_, huse, hkc.symm⟩
    · rw [hout, Function.update_of_ne hkc] at hk
      exact h.others k hk
  all_goals
    intro hno
    simp [hst] at hno

/-- A cycle of `ST_IDLE` touches neither the table nor the counts. -/
theorem Inv.of_idle {s' : Flow × Ledger} (h : Inv s) (huses : s'.2.uses = s.2.uses)
    (hram : s'.1.ram = s.1.ram) (hout : s'.2.outstanding = s.2.outstanding)
    (hlup : s'.1.st ≠ .ackLup ∧ s'.1.st ≠ .reqLup)
    (hack : s'.1.st = .ackLupWait →
      s'.1.addr = BitVec.ofBool s'.2.current.2 ++ s'.2.current.1.setWidth 7 ∧
        0 < s.2.outstanding s'.2.current)
    (hreq : s'.1.st = .reqLupWait → s'.1.addr = BitVec.ofBool s'.2.current.2 ++ 0#7 ∧
      ∃ r, s'.1.sReq = some r ∧ reqKey r = s'.2.current) : Inv s' where
  uses := by rw [huses]; exact h.uses
  same := by rw [huses]; exact h.same
  table := by rw [huses, hram, hout]; exact h.table
  fresh := by rw [huses, hram]; exact h.fresh
  others := by rw [huses, hout]; exact h.others
  ackWait hst := (hack hst).1
  reqWait hst := (hreq hst).1
  acked hst := by
    rw [hout]
    rcases hst with hst | hst
    · exact (hack hst).2
    · exact absurd hst hlup.1
  requested hst := by
    rcases hst with hst | hst
    · exact (hreq hst).2
    · exact absurd hst hlup.2
  lup hst := by
    rcases hst with hst | hst
    · exact absurd hst hlup.1
    · exact absurd hst hlup.2

/-- What begins in `ST_IDLE`: the lookup of an acknowledgement, the lookup of a request that
can be sent on, or nothing. -/
theorem begins_cases (s : Flow) (i : Input) :
    (∃ w, i.ack = some w ∧ s.begins i = some (.ackLupWait, ackAddr (rdmaAck w))) ∨
      (∃ r, i.ack = none ∧ s.sReq = some r ∧ s.begins i = some (.reqLupWait, reqAddr r.dreq)) ∨
      s.begins i = none := by
  cases ha : i.ack with
  | some w => exact Or.inl ⟨w, rfl, by simp [Flow.begins, ha]⟩
  | none =>
    right
    cases hr : s.sReq with
    | none => exact Or.inr (by simp [Flow.begins, ha, hr])
    | some r =>
      cases ho : s.reqOutReady with
      | false => exact Or.inr (by simp [Flow.begins, ha, hr, ho])
      | true => exact Or.inl ⟨r, rfl, rfl, by simp [Flow.begins, ha, hr, ho]⟩

theorem Inv.step_idle (h : Inv s) (henv : AcksIssued s i) (hst : s.1.st = .idle) :
    Inv (step s.1 i, note s.2 s.1 i) := by
  have hram : (RdmaFlow.step s.1 i).ram = s.1.ram := by
    simp [RdmaFlow.step, Flow.ssnWrite, hst]
  have hnext : (RdmaFlow.step s.1 i).st = ((s.1.begins i).map Prod.fst).getD .idle := by
    simp [RdmaFlow.step, hst]
  refine h.of_idle (by simp [note, hst]) hram (by simp [note, hst]) ?_ ?_ ?_
  · rcases begins_cases s.1 i with ⟨w, -, hb⟩ | ⟨r, -, -, hb⟩ | hb <;> simp [hnext, hb]
  · rcases begins_cases s.1 i with ⟨w, ha, hb⟩ | ⟨r, -, -, hb⟩ | hb
    · intro _
      have hcur : (note s.2 s.1 i).current = ackKey w := by simp [note, hst, beginsKey, ha]
      have haddr : (RdmaFlow.step s.1 i).addr = ackAddr (rdmaAck w) := by
        simp [RdmaFlow.step, hst, hb]
      refine ⟨?_, ?_⟩
      · show (RdmaFlow.step s.1 i).addr = _
        rw [haddr, ackAddr_eq, hcur]
      · rw [hcur]
        exact henv hst w ha
    · simp [hnext, hb]
    · simp [hnext, hb]
  · rcases begins_cases s.1 i with ⟨w, -, hb⟩ | ⟨r, ha, hr, hb⟩ | hb
    · simp [hnext, hb]
    · intro _
      have hcur : (note s.2 s.1 i).current = reqKey r := by
        simp [note, hst, beginsKey, ha, hr]
      have haddr : (RdmaFlow.step s.1 i).addr = reqAddr r.dreq := by
        simp [RdmaFlow.step, hst, hb]
      refine ⟨?_, r, by simp [RdmaFlow.step, Flow.takesReq, hst, hr], hcur.symm⟩
      show (RdmaFlow.step s.1 i).addr = _
      rw [haddr, reqAddr_eq, hcur]
    · simp [hnext, hb]

/-- The lookup of a request ends: it is let through, or it waits for its window. -/
theorem Inv.step_reqLup (h : Inv s) (hst : s.1.st = .reqLup) :
    Inv (step s.1 i, note s.2 s.1 i) := by
  obtain ⟨haddr, hdata, huse⟩ := h.lup (Or.inr hst)
  cases hacc : s.1.accepts with
  | true =>
    refine h.finish (n := s.2.outstanding s.2.current + 1) ?_ huse ?_ ?_ ?_
    · simp [RdmaFlow.step, hst]
    · simp [note, hst, hacc]
    · simp [note, hst, hacc]
    · have hne : s.2.outstanding s.2.current ≠ nOst := by
        intro hfull
        have := (h.windows.held hst).mpr hfull
        simp [hacc] at this
      have htable := (h.table _ huse).request hne
      simpa [RdmaFlow.step, Flow.ssnWrite, Flow.ssnAddr, hst, hacc, haddr, hdata] using htable
  | false =>
    refine h.finish (n := s.2.outstanding s.2.current) ?_ huse ?_ ?_ ?_
    · simp [RdmaFlow.step, hst]
    · simp [note, hst, hacc]
    · simp [note, hst, hacc]
    · simpa [RdmaFlow.step, Flow.ssnWrite, hst, hacc] using h.table _ huse

/-- **One cycle.** -/
theorem Inv.step (h : Inv s) (henv : AcksIssued s i) (halone : Alone s i) :
    Inv (ledgered.step s i) := by
  rw [ledgered_step]
  cases hst : s.1.st with
  | idle => exact h.step_idle henv hst
  | ackLupWait =>
    obtain ⟨hkind, hlow, hqp⟩ := halone (Or.inl hst)
    have haddr : s.1.addr = 0#8 := by
      rw [h.ackWait hst, ofBool_append_eq_zero]
      exact ⟨hkind, hlow hst⟩
    refine h.join ?_ ?_ ?_ hkind hqp ?_ ?_ ?_ ?_ ?_ ?_
    · simp [note, hst, Flow.ssnAddr, haddr]
    · simp [RdmaFlow.step, Flow.ssnWrite, hst]
    · simp [note, hst]
    · simp [RdmaFlow.step, hst]
    · exact fun _ => h.acked (Or.inl hst)
    · simp [RdmaFlow.step, hst]
    · simp [note, hst]
    · simp [RdmaFlow.step, hst, haddr]
    · simp [RdmaFlow.step, Flow.ssnAddr, hst]
  | reqLupWait =>
    obtain ⟨hkind, -, hqp⟩ := halone (Or.inr hst)
    have haddr : s.1.addr = 0#8 := by
      rw [h.reqWait hst, ofBool_append_eq_zero]
      exact ⟨hkind, rfl⟩
    obtain ⟨r, hr, hkey⟩ := h.requested (Or.inl hst)
    refine h.join ?_ ?_ ?_ hkind hqp ?_ ?_ ?_ ?_ ?_ ?_
    · simp [note, hst, Flow.ssnAddr, haddr]
    · simp [RdmaFlow.step, Flow.ssnWrite, hst]
    · simp [note, hst]
    · simp [RdmaFlow.step, hst]
    · simp [RdmaFlow.step, hst]
    · exact fun _ => ⟨r, by simp [RdmaFlow.step, hr, Flow.takesReq, hst], hkey⟩
    · simp [note, hst]
    · simp [RdmaFlow.step, hst, haddr]
    · simp [RdmaFlow.step, Flow.ssnAddr, hst]
  | ackLup =>
    obtain ⟨haddr, hdata, huse⟩ := h.lup (Or.inl hst)
    refine h.finish (n := s.2.outstanding s.2.current - 1) ?_ huse ?_ ?_ ?_
    · simp [RdmaFlow.step, hst]
    · simp [note, hst]
    · simp [note, hst]
    · have htable := (h.table _ huse).ack (h.acked (Or.inr hst))
      simpa [RdmaFlow.step, Flow.ssnWrite, Flow.ssnAddr, hst, haddr, hdata] using htable
  | reqLup => exact h.step_reqLup hst

/-- A lookup that does not belong breaks the promise as soon as it is under way. -/
theorem Inv.lost (h : Inv s) (halone : ¬ Alone s i) : ¬ Windows (ledgered.step s i) := by
  rw [ledgered_step]
  rintro ⟨⟨hread, hshare⟩, -⟩
  refine halone fun hst => ?_
  have huses : (note s.2 s.1 i).uses = s.2.uses ++ [⟨s.2.current, 0, s.1.addr⟩] := by
    rcases hst with hst | hst <;> simp [note, hst, Flow.ssnAddr]
  have hnew : ⟨s.2.current, 0, s.1.addr⟩ ∈ (note s.2 s.1 i).uses := by
    rw [huses]
    exact List.mem_append_right _ List.mem_cons_self
  have haddr : s.1.addr = 0#8 := (hread _ hnew).symm
  have hkind : s.2.current.2 = false := by
    rcases hst with hst | hst
    · rw [h.ackWait hst, ofBool_append_eq_zero] at haddr
      exact haddr.1
    · rw [h.reqWait hst, ofBool_append_eq_zero] at haddr
      exact haddr.1
  refine ⟨hkind, fun hack => ?_, fun u hu => ?_⟩
  · rw [h.ackWait hack, ofBool_append_eq_zero] at haddr
    exact haddr.2
  · have hold : u ∈ (note s.2 s.1 i).uses := by
      rw [huses]
      exact List.mem_append_left _ hu
    have hwrite : u.write = s.1.addr := (h.uses u hu).2.1.trans haddr.symm
    exact congrArg Prod.fst ((hshare u hold _ hnew).mp hwrite)

end Step

theorem inv_reset : Inv ledgered.reset where
  uses _ hu := absurd hu List.not_mem_nil
  same _ hu := absurd hu List.not_mem_nil
  table _ hu := absurd hu List.not_mem_nil
  fresh _ := table_zero
  others _ hk := absurd rfl hk
  ackWait h := nomatch h
  reqWait h := nomatch h
  acked h := by rcases h with h | h <;> cases h
  requested h := by rcases h with h | h <;> cases h
  lup h := by rcases h with h | h <;> cases h

/-- **When the windows work.**  In a run whose acknowledgements are for requests that
were let through, every queue pair and kind has its own entry and its own window
of sixteen iff all lookups are of writes or sends of one queue pair, whose number
ends in seven zero bits if anything is acknowledged. -/
theorem windows_iff (is : List Input) (henv : ledgered.Guarded AcksIssued ledgered.reset is) :
    ledgered.Always Windows ledgered.reset is ↔ ledgered.Guarded Alone ledgered.reset is :=
  Machine.always_iff_guarded (fun _ hs => hs.windows) (fun _ _ hs he ha => hs.step he ha)
    (fun _ _ hs _ ha => hs.lost ha) inv_reset henv

/-! ## A queue pair that is locked out -/

/-- A write of one packet for the queue pair `qp`. -/
def writeRequest (qp : BitVec 16) : WqRequest where
  dreq := { req1 := { (default : Req) with opcode := rcRdmaWriteOnly, qpn := qp }, req2 := default }
  pid_eq := rfl
  vfid_eq := rfl

/-- A cycle in which nothing arrives and the queues are drained. -/
def Input.quiet : Input := ⟨none, none, true, true⟩

/-- The cycles of a request. -/
def sendWrite (qp : BitVec 16) : List Input :=
  { Input.quiet with newReq := some (writeRequest qp) } :: List.replicate 3 Input.quiet

/-- The cycles of an acknowledgement, with the opcode of an `ACK` packet. -/
def ackWrite (qp : BitVec 16) : List Input :=
  { Input.quiet with ack := some (0#16 ++ qp ++ 0#27 ++ 0x11#5) } :: List.replicate 2 Input.quiet

/-- Sixteen writes of queue pair 1, each acknowledged before the next. -/
def sixteenWrites : List Input :=
  (List.replicate 16 (sendWrite 1 ++ ackWrite 1)).flatten

theorem windows_iff_sixteenWrites :
    ledgered.Always Windows ledgered.reset sixteenWrites ↔
      ledgered.Guarded Alone ledgered.reset sixteenWrites :=
  windows_iff sixteenWrites (by decide +kernel)

/-- **The seventeenth write of queue pair 1 is held back** although all sixteen before it
have been acknowledged. -/
theorem seventeenth_write_held :
    ledgered.Guarded AcksIssued ledgered.reset (sixteenWrites ++ sendWrite 1) ∧
    ∃ s, s = ledgered.run (sixteenWrites ++ (sendWrite 1).take 3) ∧ s.1.st = .reqLup ∧
      s.1.accepts = false ∧ s.2.current = (1, false) ∧ s.2.outstanding s.2.current = 0 ∧
      ¬ Windows s := by
  refine ⟨by decide +kernel, _, rfl, by decide +kernel, by decide +kernel, by decide +kernel,
    by decide +kernel, fun hwindows => ?_⟩
  have hfull := (hwindows.held (by decide +kernel)).mp (by decide +kernel)
  revert hfull
  decide +kernel

end RdmaFlow
end RecoNIC
