import RecoNIC.Arithmetic.SlotMap
import RecoNIC.Synchronous.Machine

/-!
# The packet matcher

`packet_matcher.sv` has a table of 32 slots.  The first beat of a packet looks the packet up
by its sender, `pktid_ext` and `idx_ext`; in a cycle without a beat a request from
`table_config_req_fifo` may change the table.  A new entry goes to the slot at `table_ptr`,
which then moves on by one, and a request to delete an entry leaves a slot with all bits set.

The comparisons with all slots are one-hot vectors, and the `case` over such a vector has one
arm for no bit, one for each bit, and a default.  Here this is the list of the slots that
match.  The arms for the 32 bits differ only in the slot.
-/

namespace RecoNIC
namespace PacketMatcher

open SlotMap Synchronous

/-! ## The source -/

/-- What a table entry is found by. -/
structure Key where
  sfa : BitVec 32
  pktidExt : BitVec 2
  idxExt : BitVec 5
  deriving DecidableEq

/-- The key of a slot that has been deleted or never written. -/
def Key.unused : Key := ⟨0xffffffff, 0b11, 0b11111⟩

/-- A word of `table_config_req_fifo`. -/
structure Request where
  key : Key
  startAddr : BitVec 32
  configOp : BitVec 8
  deriving DecidableEq

/-- `TABLE_OP_WRITE`. -/
def tableOpWrite : BitVec 8 := 2

/-- `TABLE_OP_DELETE`. -/
def tableOpDelete : BitVec 8 := 3

/-- The fields of `metadata_in`. -/
structure Metadata where
  index : BitVec 32
  sfa : BitVec 32
  dfa : BitVec 32
  pktidExt : BitVec 2
  idxExt : BitVec 5
  pktType : BitVec 8
  pktlen : BitVec 16
  remoteOffs : BitVec 56
  returnCode : BitVec 6
  ptlList : BitVec 2
  responseLen : BitVec 12
  deriving DecidableEq

namespace Metadata

/-- The fields of a word of `METADATA_WIDTH_IN` bits. -/
def ofWord (w : BitVec 203) : Metadata where
  index := w.extractLsb' 171 32
  sfa := w.extractLsb' 139 32
  dfa := w.extractLsb' 107 32
  pktidExt := w.extractLsb' 105 2
  idxExt := w.extractLsb' 100 5
  pktType := w.extractLsb' 92 8
  pktlen := w.extractLsb' 76 16
  remoteOffs := w.extractLsb' 20 56
  returnCode := w.extractLsb' 14 6
  ptlList := w.extractLsb' 12 2
  responseLen := w.extractLsb' 0 12

/-- All fields are zero. -/
def zero : Metadata := ⟨0, 0, 0, 0, 0, 0, 0, 0, 0, 0, 0⟩

/-- What the table is searched for. -/
def key (m : Metadata) : Key := ⟨m.sfa, m.pktidExt, m.idxExt⟩

end Metadata

/-- The registers behind `metadata_out`: the metadata, and `meta_out_start_addr`. -/
structure MetadataOut where
  metadata : Metadata
  startAddr : BitVec 32
  deriving DecidableEq

/-- What is sent out for a packet that is not in the table. -/
def MetadataOut.zero : MetadataOut := ⟨Metadata.zero, 0⟩

/-- `table_sfa`, `table_pktid_ext`, `table_idx_ext` and `table_value`, and `table_ptr`. -/
structure Table where
  entries : Slots Key (BitVec 32) 32
  tablePtr : Fin 32

namespace Table

/-- After reset. -/
def reset : Table := ⟨fun _ => (Key.unused, 0xffffffff), 0⟩

/-- A new entry in the slot at `table_ptr`. -/
def insert (t : Table) (r : Request) : Table where
  entries := Function.update t.entries t.tablePtr (r.key, r.startAddr)
  tablePtr := t.tablePtr + 1

/-- What a request does in a cycle without a beat: the `case` over
`table_lookup_from_config`. -/
def configure (t : Table) (r : Request) : Table :=
  match holders t.entries r.key with
  | [] => if r.configOp = tableOpWrite then t.insert r else t
  | [i] =>
    if r.configOp = tableOpWrite then
      { t with entries := Function.update t.entries i ((t.entries i).1, r.startAddr) }
    else if r.configOp = tableOpDelete then
      { t with entries := Function.update t.entries i (Key.unused, 0xffffffff) }
    else t
  | _ => t

end Table

/-- `lookup_state`. -/
inductive LookupState
  | tableLookup
  | waitTlast
  deriving DecidableEq

/-- The inputs of one cycle that come with packets. -/
structure PacketIn where
  tready : Bool
  tvalid : Bool
  tlast : Bool
  metadataIn : BitVec 203
  metadataInValid : Bool

namespace PacketIn

variable (p : PacketIn)

/-- `s_axis_tready && s_axis_tvalid`. -/
def beat : Bool := p.tready && p.tvalid

/-- The fields of `metadata_in`. -/
def metaIn : Metadata := Metadata.ofWord p.metadataIn

/-- `table_lookup_from_pkt`. -/
def tableLookupFromPkt (t : Table) : List (Fin 32) :=
  if p.metadataInValid then holders t.entries p.metaIn.key else []

/-- What the first beat of a packet does: the `case` over `table_lookup_from_pkt`.  The request
is the one that the FIFO shows. -/
def tableLookup (t : Table) (request : Option Request) : Table × MetadataOut :=
  match p.tableLookupFromPkt t with
  | [] =>
    match request with
    | none => (t, MetadataOut.zero)
    | some r =>
      if !(p.metadataInValid && decide (p.metaIn.key = r.key)) then (t, MetadataOut.zero)
      else if r.configOp = tableOpWrite then (t.insert r, ⟨p.metaIn, r.startAddr⟩)
      else (t, ⟨p.metaIn, 0⟩)
  | [i] => (t, ⟨p.metaIn, (t.entries i).2⟩)
  | _ => (t, ⟨p.metaIn, 0⟩)

end PacketIn

/-- The registers that the state machine of the table writes. -/
structure State where
  table : Table
  lookupState : LookupState
  metaOut : MetadataOut

namespace State

/-- After reset. -/
def reset : State := ⟨Table.reset, .tableLookup, MetadataOut.zero⟩

/-- One clock edge.  The request is the one that the FIFO shows. -/
def step (s : State) (p : PacketIn) (request : Option Request) : State :=
  if p.beat then
    let after := if p.tlast then LookupState.tableLookup else LookupState.waitTlast
    match s.lookupState with
    | .tableLookup =>
      let x := p.tableLookup s.table request
      ⟨x.1, after, x.2⟩
    | .waitTlast => ⟨s.table, after, ⟨p.metaIn, 0⟩⟩
  else
    match request with
    | none => s
    | some r => { s with table := s.table.configure r }

/-- The state machine does what the request says: there is no beat, or the packet that begins
has the key of the request, is not in the table, and the request writes. -/
def Takes (s : State) (p : PacketIn) (r : Request) : Prop :=
  p.beat = false ∨ s.lookupState = .tableLookup ∧ p.metadataInValid = true ∧
    p.metaIn.key = r.key ∧ holders s.table.entries r.key = [] ∧ r.configOp = tableOpWrite

instance (s : State) (p : PacketIn) (r : Request) : Decidable (s.Takes p r) :=
  inferInstanceAs (Decidable (_ ∨ _ ∧ _ ∧ _ ∧ _ ∧ _))

/-- The request that is done in a cycle. -/
def applied (s : State) (p : PacketIn) (request : Option Request) : Option Request :=
  request.filter fun r => s.Takes p r

end State

/-! ## One cycle -/

namespace Table

variable {t : Table} {r : Request}

theorem configure_of_holders_nil (h : holders t.entries r.key = []) :
    t.configure r = if r.configOp = tableOpWrite then t.insert r else t := by
  rw [configure, h]

/-- A write of a key that is not in the table. -/
theorem configure_insert (h : holders t.entries r.key = []) (hop : r.configOp = tableOpWrite) :
    t.configure r = t.insert r := by
  rw [configure_of_holders_nil h, if_pos hop]

end Table

namespace PacketIn

variable {p : PacketIn} {t : Table}

theorem tableLookupFromPkt_of_valid (h : p.metadataInValid = true) :
    p.tableLookupFromPkt t = holders t.entries p.metaIn.key :=
  if_pos h

theorem tableLookup_of_hit {i : Fin 32} (h : p.tableLookupFromPkt t = [i])
    (request : Option Request) :
    p.tableLookup t request = (t, ⟨p.metaIn, (t.entries i).2⟩) := by
  simp only [tableLookup, h]

/-- Nobody asks for the key of the packet, and it is not in the table. -/
theorem tableLookup_of_miss {request : Option Request} (h : p.tableLookupFromPkt t = [])
    (hother : ∀ r ∈ request, p.metadataInValid = true → p.metaIn.key ≠ r.key) :
    p.tableLookup t request = (t, MetadataOut.zero) := by
  simp only [tableLookup, h]
  cases request with
  | none => rfl
  | some r =>
    have hne : (p.metadataInValid && decide (p.metaIn.key = r.key)) = false := by
      rw [Bool.and_eq_false_imp]
      exact fun hvalid => decide_eq_false (hother r rfl hvalid)
    simp only [hne, Bool.not_false, if_true]

/-- The request that is shown has the key of the packet, which is not in the table. -/
theorem tableLookup_of_same {r : Request} (h : p.tableLookupFromPkt t = [])
    (hvalid : p.metadataInValid = true) (hkey : p.metaIn.key = r.key) :
    p.tableLookup t (some r) =
      if r.configOp = tableOpWrite then (t.insert r, ⟨p.metaIn, r.startAddr⟩)
      else (t, ⟨p.metaIn, 0⟩) := by
  simp only [tableLookup, h, hvalid, hkey, decide_true, Bool.and_self, Bool.not_true,
    Bool.false_eq_true, if_false]

/-- A packet that is in the table leaves it as it is. -/
theorem fst_tableLookup_of_hit (h : p.tableLookupFromPkt t ≠ []) (request : Option Request) :
    (p.tableLookup t request).1 = t := by
  unfold tableLookup
  split
  · exact absurd ‹_› h
  · rfl
  · rfl

end PacketIn

namespace State

variable {s : State} {p : PacketIn} {r : Request}

@[simp] theorem applied_none : s.applied p none = none := rfl

theorem applied_of_takes (h : s.Takes p r) : s.applied p (some r) = some r := by
  rw [applied, Option.filter_some, if_pos (decide_eq_true h)]

theorem applied_of_not_takes (h : ¬ s.Takes p r) : s.applied p (some r) = none := by
  rw [applied, Option.filter_some, if_neg (by simpa using h)]

theorem step_idle (h : p.beat = false) (request : Option Request) :
    s.step p request = { s with table := request.elim s.table s.table.configure } := by
  simp only [step, h, Bool.false_eq_true, if_false]
  cases request <;> rfl

theorem table_step_lookup (hbeat : p.beat = true) (hs : s.lookupState = .tableLookup)
    (request : Option Request) :
    (s.step p request).table = (p.tableLookup s.table request).1 := by
  simp only [step, hbeat, if_true, hs]

theorem metaOut_step_lookup (hbeat : p.beat = true) (hs : s.lookupState = .tableLookup)
    (request : Option Request) :
    (s.step p request).metaOut = (p.tableLookup s.table request).2 := by
  simp only [step, hbeat, if_true, hs]

theorem table_step_wait (hbeat : p.beat = true) (hs : s.lookupState = .waitTlast)
    (request : Option Request) : (s.step p request).table = s.table := by
  simp only [step, hbeat, if_true, hs]

/-- A request that is not taken at the first beat of a packet changes nothing. -/
theorem fst_tableLookup_of_not_takes (hs : s.lookupState = .tableLookup)
    (h : ¬ s.Takes p r) : (p.tableLookup s.table (some r)).1 = s.table := by
  by_cases hnil : p.tableLookupFromPkt s.table = []
  · by_cases hsame : p.metadataInValid = true ∧ p.metaIn.key = r.key
    · obtain ⟨hvalid, hkey⟩ := hsame
      have hop : r.configOp ≠ tableOpWrite := by
        intro hop
        rw [PacketIn.tableLookupFromPkt_of_valid hvalid, hkey] at hnil
        exact h (Or.inr ⟨hs, hvalid, hkey, hnil, hop⟩)
      rw [PacketIn.tableLookup_of_same hnil hvalid hkey, if_neg hop]
    · rw [PacketIn.tableLookup_of_miss hnil]
      rintro r' hr' hvalid hkey
      cases hr'
      exact hsame ⟨hvalid, hkey⟩
  · exact PacketIn.fst_tableLookup_of_hit hnil _

/-- **The table after a cycle** is the table before it with the request that was done. -/
theorem table_step (s : State) (p : PacketIn) (request : Option Request) :
    (s.step p request).table = (s.applied p request).elim s.table s.table.configure := by
  cases hbeat : p.beat with
  | false =>
    rw [step_idle hbeat]
    cases request with
    | none => rfl
    | some r => rw [applied_of_takes (Or.inl hbeat)]
  | true =>
    cases hs : s.lookupState with
    | waitTlast =>
      rw [table_step_wait hbeat hs]
      cases request with
      | none => rfl
      | some r =>
        have hnot : ¬ s.Takes p r := by simp [Takes, hbeat, hs]
        rw [applied_of_not_takes hnot, Option.elim_none]
    | tableLookup =>
      rw [table_step_lookup hbeat hs]
      cases request with
      | none =>
        rw [applied_none, Option.elim_none]
        by_cases hnil : p.tableLookupFromPkt s.table = []
        · rw [PacketIn.tableLookup_of_miss hnil]
          intro r hr
          cases hr
        · exact PacketIn.fst_tableLookup_of_hit hnil _
      | some r =>
        by_cases htakes : s.Takes p r
        · rw [applied_of_takes htakes, Option.elim_some]
          rcases htakes with hidle | ⟨-, hvalid, hkey, hnil, hop⟩
          · exact absurd hidle (by rw [hbeat]; exact Bool.noConfusion)
          · have hnil' : p.tableLookupFromPkt s.table = [] := by
              rw [PacketIn.tableLookupFromPkt_of_valid hvalid, hkey, hnil]
            rw [PacketIn.tableLookup_of_same hnil' hvalid hkey, if_pos hop,
              Table.configure_insert hnil hop]
        · rw [applied_of_not_takes htakes, Option.elim_none, fst_tableLookup_of_not_takes hs htakes]

end State
end PacketMatcher
end RecoNIC
