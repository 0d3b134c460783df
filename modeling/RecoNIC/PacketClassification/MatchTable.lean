import RecoNIC.PacketClassification.PacketMatcher

/-!
# The table as a finite map

The table is meant to be a map from keys to start addresses.  A request to write or delete
changes the map, and a packet gets what the map has for its key after that.  Here the requests
come in any order, with packets and without; what becomes of a request that is not taken is
another matter.

There are two ways to leave the map.  `table_ptr` goes round and does not look where it
writes, so a new key can overwrite one that is in use, though other slots are empty.  And a
packet that is not in the table passes with its metadata, as if it had been found at address
0, when a request for its key is shown that does not write.  `finiteMap_iff` says that there
is no third way.
-/

namespace RecoNIC
namespace PacketMatcher

open SlotMap Synchronous

/-! ## The map -/

/-- What the table is meant to hold. -/
abbrev KeyMap := Key → Option (BitVec 32)

/-- What a request does to the map. -/
def effect (m : KeyMap) (r : Request) : KeyMap :=
  if r.configOp = tableOpWrite then Function.update m r.key (some r.startAddr)
  else if r.configOp = tableOpDelete then Function.update m r.key none
  else m

/-- What a packet gets from the map. -/
def answer (m : KeyMap) (d : Metadata) : MetadataOut :=
  match m d.key with
  | some v => ⟨d, v⟩
  | none => MetadataOut.zero

/-- The inputs of the state machine in one cycle. -/
structure MatchIn where
  packet : PacketIn
  request : Option Request

/-- The first beat of a packet with valid metadata. -/
def IsLookup (s : State) (p : PacketIn) : Prop :=
  p.beat = true ∧ s.lookupState = .tableLookup ∧ p.metadataInValid = true

instance (s : State) (p : PacketIn) : Decidable (IsLookup s p) :=
  inferInstanceAs (Decidable (_ ∧ _ ∧ _))

/-- The map, and for each lookup what it gave and what the map has. -/
structure Book where
  map : KeyMap
  lookups : List (MetadataOut × MetadataOut)

/-- What one cycle adds. -/
def Book.note (b : Book) (s : State) (i : MatchIn) : Book :=
  let m := (s.applied i.packet i.request).elim b.map (effect b.map)
  ⟨m, b.lookups ++ if IsLookup s i.packet then
    [((s.step i.packet i.request).metaOut, answer m i.packet.metaIn)] else []⟩

/-- The state machine of the table, watched. -/
def matchTable : Machine (State × Book) MatchIn :=
  Machine.watch ⟨State.reset, fun s i => s.step i.packet i.request⟩ ⟨fun _ => none, []⟩ Book.note

/-- **A finite map.**  Each key is in at most one slot, the slots hold what the map has, and
each lookup so far gave what the map had. -/
structure FiniteMap (x : State × Book) : Prop where
  table : Represents Key.unused x.1.table.entries x.2.map
  lookups : ∀ y ∈ x.2.lookups, y.1 = y.2

/-- The key that marks an unused slot is neither asked for nor written. -/
def AvoidsUnused (i : MatchIn) : Prop :=
  (∀ r ∈ i.request, r.key ≠ Key.unused) ∧
    (i.packet.metadataInValid = true → i.packet.metaIn.key ≠ Key.unused)

instance (i : MatchIn) : Decidable (AvoidsUnused i) :=
  inferInstanceAs (Decidable ((∀ r ∈ i.request, r.key ≠ Key.unused) ∧ (_ → _)))

/-- The slot at `table_ptr` is unused when the request that is done needs one. -/
def FindsRoom (s : State) (i : MatchIn) : Prop :=
  ∀ r ∈ s.applied i.packet i.request, r.configOp = tableOpWrite →
    holders s.table.entries r.key = [] → (s.table.entries s.table.tablePtr).1 = Key.unused

/-- No packet is looked up, and not found, while a request for its key is shown that does not
write.  Metadata of zeros cannot be told from a miss. -/
def NotShadowed (s : State) (i : MatchIn) : Prop :=
  IsLookup s i.packet → ∀ r ∈ i.request, holders s.table.entries r.key = [] →
    r.key = i.packet.metaIn.key → r.configOp ≠ tableOpWrite → i.packet.metaIn = Metadata.zero

/-! ## Requests -/

section Requests

variable {t : Table} {r : Request} {m : KeyMap}

theorem effect_of_write (h : r.configOp = tableOpWrite) :
    effect m r = Function.update m r.key (some r.startAddr) := if_pos h

/-- A request other than a write does nothing to a key without a value. -/
theorem effect_of_eq_none (h : r.configOp ≠ tableOpWrite) (hm : m r.key = none) :
    effect m r = m := by
  rw [effect, if_neg h]
  split_ifs
  · rw [← hm, Function.update_eq_self]
  · rfl

/-- A request for a key that is in the table. -/
theorem represents_configure_hit (h : Represents Key.unused t.entries m) {i : Fin 32}
    (hi : holders t.entries r.key = [i]) :
    Represents Key.unused (t.configure r).entries (effect m r) := by
  have hkey := fst_of_holders_eq_singleton hi
  simp only [Table.configure, hi, effect]
  split_ifs with hwrite hdelete
  · rw [hkey]
    refine h.write (Or.inr hkey) (fun j hji hj => ?_) _
    exact hji (eq_of_holders_eq_singleton hi hj)
  · exact h.clear hkey _
  · exact h

/-- **A request keeps the map** unless it writes a new key over one that is in use. -/
theorem represents_configure_iff (h : Represents Key.unused t.entries m)
    (hr : r.key ≠ Key.unused) :
    Represents Key.unused (t.configure r).entries (effect m r) ↔
      (r.configOp = tableOpWrite → holders t.entries r.key = [] →
        (t.entries t.tablePtr).1 = Key.unused) := by
  rcases h.search hr with ⟨hnil, hnone⟩ | ⟨i, hi, -⟩
  · by_cases hop : r.configOp = tableOpWrite
    · rw [Table.configure_insert hnil hop, effect_of_write hop]
      constructor
      · intro hrep _ _
        by_contra hused
        exact h.not_represents_write hused (holders_eq_nil.mp hnil _) _ hrep
      · intro hroom
        exact h.write (Or.inl (hroom hop hnil)) (fun j _ => holders_eq_nil.mp hnil j) _
    · rw [Table.configure_of_holders_nil hnil, if_neg hop, effect_of_eq_none hop hnone]
      exact ⟨fun _ hop' => absurd hop' hop, fun _ => h⟩
  · refine ⟨fun _ _ hnil => ?_, fun _ => represents_configure_hit h hi⟩
    rw [hi] at hnil
    cases hnil

end Requests

/-! ## Lookups -/

section Lookups

variable {s : State} {p : PacketIn} {request : Option Request} {m : KeyMap}

theorem answer_of_some {d : Metadata} {v : BitVec 32} (h : m d.key = some v) :
    answer m d = ⟨d, v⟩ := by
  rw [answer, h]

theorem answer_of_none {d : Metadata} (h : m d.key = none) :
    answer m d = MetadataOut.zero := by
  rw [answer, h]

/-- Only a request for the key of the packet, which is not in the table, is done at its first
beat. -/
theorem applied_of_lookup (hp : IsLookup s p)
    (h : ∀ r ∈ request, p.metaIn.key = r.key → holders s.table.entries r.key = [] →
      r.configOp ≠ tableOpWrite) : s.applied p request = none := by
  cases request with
  | none => rfl
  | some r =>
    refine State.applied_of_not_takes ?_
    rintro (hidle | ⟨-, -, hkey, hnil, hop⟩)
    · rw [hp.1] at hidle
      cases hidle
    · exact h r rfl hkey hnil hop

/-- A packet that is in the table. -/
theorem metaOut_of_found {i : Fin 32} (hp : IsLookup s p)
    (hi : holders s.table.entries p.metaIn.key = [i])
    (hsome : m p.metaIn.key = some (s.table.entries i).2) (request : Option Request) :
    (s.step p request).metaOut =
      answer ((s.applied p request).elim m (effect m)) p.metaIn := by
  have hnot : s.applied p request = none := by
    refine applied_of_lookup hp fun r _ hrkey hnil => ?_
    rw [← hrkey, hi] at hnil
    cases hnil
  have hlookup : p.tableLookupFromPkt s.table = [i] := by
    rw [PacketIn.tableLookupFromPkt_of_valid hp.2.2, hi]
  rw [State.metaOut_step_lookup hp.1 hp.2.1, PacketIn.tableLookup_of_hit hlookup, hnot,
    Option.elim_none, answer_of_some hsome]

section Miss

variable (hp : IsLookup s p) (hnil : holders s.table.entries p.metaIn.key = [])
include hp hnil

theorem lookup_eq_nil : p.tableLookupFromPkt s.table = [] := by
  rw [PacketIn.tableLookupFromPkt_of_valid hp.2.2, hnil]

/-- A packet that is not in the table and that no request is for. -/
theorem metaOut_of_unasked (hnone : m p.metaIn.key = none)
    (hother : ∀ r ∈ request, p.metaIn.key ≠ r.key) :
    (s.step p request).metaOut =
      answer ((s.applied p request).elim m (effect m)) p.metaIn := by
  have hnot : s.applied p request = none :=
    applied_of_lookup hp fun r hr hrkey => absurd hrkey (hother r hr)
  rw [State.metaOut_step_lookup hp.1 hp.2.1,
    PacketIn.tableLookup_of_miss (lookup_eq_nil hp hnil) fun r hr _ => hother r hr, hnot,
    Option.elim_none, answer_of_none hnone]

/-- A packet that is not in the table, in the cycle of a write for its key. -/
theorem metaOut_of_written {r : Request} (hrkey : p.metaIn.key = r.key)
    (hop : r.configOp = tableOpWrite) :
    (s.step p (some r)).metaOut =
      answer ((s.applied p (some r)).elim m (effect m)) p.metaIn := by
  have htakes : s.Takes p r := Or.inr ⟨hp.2.1, hp.2.2, hrkey, hrkey ▸ hnil, hop⟩
  have hwritten : effect m r p.metaIn.key = some r.startAddr := by
    rw [effect_of_write hop, hrkey, Function.update_self]
  rw [State.metaOut_step_lookup hp.1 hp.2.1,
    PacketIn.tableLookup_of_same (lookup_eq_nil hp hnil) hp.2.2 hrkey, if_pos hop,
    State.applied_of_takes htakes, Option.elim_some, answer_of_some hwritten]

/-- A packet that is not in the table, in the cycle of another request for its key: it is sent
on with its metadata. -/
theorem metaOut_of_shadowed (hnone : m p.metaIn.key = none) {r : Request}
    (hrkey : p.metaIn.key = r.key) (hop : r.configOp ≠ tableOpWrite) :
    (s.step p (some r)).metaOut = ⟨p.metaIn, 0⟩ ∧
      answer ((s.applied p (some r)).elim m (effect m)) p.metaIn = MetadataOut.zero := by
  have hnot : s.applied p (some r) = none := by
    refine applied_of_lookup hp fun r' hr' _ _ => ?_
    cases hr'
    exact hop
  constructor
  · rw [State.metaOut_step_lookup hp.1 hp.2.1,
      PacketIn.tableLookup_of_same (lookup_eq_nil hp hnil) hp.2.2 hrkey, if_neg hop]
  · rw [hnot, Option.elim_none, answer_of_none hnone]

end Miss

/-- **A lookup gives what the map has**, unless the packet is shadowed. -/
theorem metaOut_step_iff (h : Represents Key.unused s.table.entries m) (hp : IsLookup s p)
    (hkey : p.metaIn.key ≠ Key.unused) :
    (s.step p request).metaOut =
        answer ((s.applied p request).elim m (effect m)) p.metaIn ↔
      NotShadowed s ⟨p, request⟩ := by
  rcases h.search hkey with ⟨hnil, hnone⟩ | ⟨i, hi, hsome⟩
  · by_cases hsame : ∃ r ∈ request, p.metaIn.key = r.key
    · obtain ⟨r, hr, hrkey⟩ := hsame
      cases hr
      by_cases hop : r.configOp = tableOpWrite
      · refine iff_of_true (metaOut_of_written hp hnil hrkey hop) ?_
        intro _ r' hr' _ _ hop'
        cases hr'
        exact absurd hop hop'
      · obtain ⟨hout, hanswer⟩ := metaOut_of_shadowed hp hnil hnone hrkey hop
        rw [hout, hanswer, MetadataOut.zero, MetadataOut.mk.injEq, and_iff_left rfl]
        constructor
        · intro hzero _ _ _ _ _ _
          exact hzero
        · intro hshadow
          exact hshadow hp r rfl (hrkey ▸ hnil) hrkey.symm hop
    · have hother : ∀ r ∈ request, p.metaIn.key ≠ r.key := by
        intro r hr hrkey
        exact hsame ⟨r, hr, hrkey⟩
      refine iff_of_true (metaOut_of_unasked hp hnil hnone hother) ?_
      intro _ r hr _ hrkey
      exact absurd hrkey.symm (hother r hr)
  · refine iff_of_true (metaOut_of_found hp hi hsome request) ?_
    intro _ r _ hnil hrkey
    rw [hrkey, hi] at hnil
    cases hnil

end Lookups

/-! ## The map in every run -/

theorem finiteMap_reset : FiniteMap matchTable.reset where
  table := represents_empty fun _ => rfl
  lookups := fun _ h => (List.not_mem_nil h).elim

/-- No more keys are in use than there are slots. -/
theorem FiniteMap.card_le {x : State × Book} (h : FiniteMap x) (K : Finset Key)
    (hK : ∀ k ∈ K, k ≠ Key.unused ∧ x.2.map k ≠ none) : K.card ≤ 32 :=
  h.table.card_le K hK

section Step

variable {x : State × Book} {i : MatchIn}

/-- The slots after a cycle. -/
theorem represents_step_iff (h : FiniteMap x) (hi : AvoidsUnused i) :
    Represents Key.unused (matchTable.step x i).1.table.entries (matchTable.step x i).2.map ↔
      FindsRoom x.1 i := by
  change Represents Key.unused (x.1.step i.packet i.request).table.entries
    ((x.1.applied i.packet i.request).elim x.2.map (effect x.2.map)) ↔ _
  rw [State.table_step, FindsRoom]
  cases happlied : x.1.applied i.packet i.request with
  | none =>
    refine ⟨fun _ r hr => ?_, fun _ => h.table⟩
    cases hr
  | some r =>
    have hr : r ∈ i.request := Option.eq_some_of_filter_eq_some happlied
    rw [Option.elim_some, Option.elim_some, represents_configure_iff h.table (hi.1 r hr)]
    constructor
    · intro hroom r' hr'
      cases hr'
      exact hroom
    · exact fun hroom => hroom r rfl

/-- The lookups after a cycle. -/
theorem lookups_step_iff (h : FiniteMap x) (hi : AvoidsUnused i) :
    (∀ y ∈ (matchTable.step x i).2.lookups, y.1 = y.2) ↔ NotShadowed x.1 i := by
  change (∀ y ∈ x.2.lookups ++ (if IsLookup x.1 i.packet then _ else []), y.1 = y.2) ↔ _
  by_cases hp : IsLookup x.1 i.packet
  · rw [if_pos hp, List.forall_mem_append, List.forall_mem_singleton,
      and_iff_right h.lookups]
    exact metaOut_step_iff h.table hp (hi.2 hp.2.2)
  · rw [if_neg hp, List.append_nil]
    exact ⟨fun _ hp' => absurd hp' hp, fun _ => h.lookups⟩

/-- **One cycle.** -/
theorem finiteMap_step_iff (h : FiniteMap x) (hi : AvoidsUnused i) :
    FiniteMap (matchTable.step x i) ↔ FindsRoom x.1 i ∧ NotShadowed x.1 i := by
  rw [← represents_step_iff h hi, ← lookups_step_iff h hi]
  exact ⟨fun h' => ⟨h'.table, h'.lookups⟩, fun h' => ⟨h'.1, h'.2⟩⟩

end Step

/-- **The table is a finite map exactly if new keys find room and no packet is shadowed.** -/
theorem finiteMap_iff (is : List MatchIn)
    (hkeys : matchTable.Guarded (fun _ => AvoidsUnused) matchTable.reset is) :
    matchTable.Always FiniteMap matchTable.reset is ↔
      matchTable.Guarded (fun x i => FindsRoom x.1 i ∧ NotShadowed x.1 i) matchTable.reset is :=
  Machine.always_iff_guarded (fun _ h => h) (fun _ _ h hi => (finiteMap_step_iff h hi).mpr)
    (fun _ _ h hi => mt (finiteMap_step_iff h hi).mp) finiteMap_reset hkeys

/-- A cycle without a packet. -/
def asks (r : Request) : MatchIn := ⟨⟨true, false, false, 0, false⟩, some r⟩

/-- A packet of one beat, with nothing in its metadata but `sfa`. -/
def asksFor (sfa : BitVec 32) : MatchIn :=
  ⟨⟨true, true, true, sfa.setWidth 203 <<< 139, true⟩, none⟩

/-- A key is written, deleted, written with another address and looked up. -/
theorem finiteMap_iff_rewritten :
    matchTable.Always FiniteMap matchTable.reset
      [asks ⟨⟨1, 0, 0⟩, 0x1000, tableOpWrite⟩, asks ⟨⟨1, 0, 0⟩, 0, tableOpDelete⟩,
        asks ⟨⟨1, 0, 0⟩, 0x2000, tableOpWrite⟩, asksFor 1] ↔
      matchTable.Guarded (fun x i => FindsRoom x.1 i ∧ NotShadowed x.1 i) matchTable.reset
      [asks ⟨⟨1, 0, 0⟩, 0x1000, tableOpWrite⟩, asks ⟨⟨1, 0, 0⟩, 0, tableOpDelete⟩,
        asks ⟨⟨1, 0, 0⟩, 0x2000, tableOpWrite⟩, asksFor 1] :=
  finiteMap_iff _ (by decide +kernel)

/-- The key 1 is written, then the key 2 is written and deleted until `table_ptr` is back at
the slot of the key 1, and written once more. -/
def aroundTheTable : List MatchIn :=
  asks ⟨⟨1, 0, 0⟩, 0x1000, tableOpWrite⟩ ::
    (List.replicate 31
        [asks ⟨⟨2, 0, 0⟩, 0x2000, tableOpWrite⟩, asks ⟨⟨2, 0, 0⟩, 0, tableOpDelete⟩]).flatten ++
      [asks ⟨⟨2, 0, 0⟩, 0x2000, tableOpWrite⟩, asksFor 1]

/-- No more than two keys are ever in use, and a packet with the key 1 is not found. -/
theorem not_finiteMap_aroundTheTable :
    (∀ i ∈ aroundTheTable, ∀ r ∈ i.request, r.key = ⟨1, 0, 0⟩ ∨ r.key = ⟨2, 0, 0⟩) ∧
      ¬ matchTable.Always FiniteMap matchTable.reset aroundTheTable := by
  refine ⟨by decide +kernel, fun h => ?_⟩
  have hwrong : ¬ ∀ y ∈ (matchTable.run aroundTheTable).2.lookups, y.1 = y.2 := by
    decide +kernel
  exact hwrong h.last.lookups

end PacketMatcher
end RecoNIC
