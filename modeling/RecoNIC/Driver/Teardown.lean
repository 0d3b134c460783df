import Mathlib.Data.List.Nodup
import Mathlib.Logic.Function.Basic
import RecoNIC.Synchronous.Conservation

/-!
# Who owns a queue pair

`allocate_rdma_qp` enters a queue pair into a table of the device, and keeps the protection
domain it is given.  `destroy_rdma_qp` frees the buffers of a queue pair and its protection
domain, and leaves the table as it is.  `destroy_rdma_dev` destroys what is in the table.

The table has `num_qp` cells, and the number of a queue pair is its index there.  Two things
follow that the calls do not check:

* the queue pairs that are in the table, and only these, are those that the end of the device
  destroys (`covered_iff`);
* a protection domain is freed once for each time that one of its queue pairs is destroyed
  (`pdSafe_iff`).

A queue pair is known by the number of its allocation, its handle.  A call that waits for the
device for ever, or ends the program, frees nothing; the calls here are those that return.
-/

namespace RecoNIC
namespace Teardown

open Synchronous

/-! ## The source -/

/-- What points to a queue pair: the number of its allocation. -/
abbrev Handle := ℕ

/-- What points to a protection domain. -/
abbrev Pd := ℕ

/-- The members of `struct rdma_qp_t` that are read when it is destroyed.  The buffers are
known by the queue pair. -/
structure Qp where
  qpid : BitVec 32
  pdEntry : Option Pd
  deriving DecidableEq

/-- What is given to `free`. -/
inductive Object where
  | glbCsr
  | sq (qp : Handle)
  | rq (qp : Handle)
  | cq (qp : Handle)
  | pd (entry : Pd)
  deriving DecidableEq

/-- What a call does to memory. -/
inductive Event where
  /-- A store into cell `i`, counted from the first cell of `qps_ptr`. -/
  | store (i : ℕ)
  /-- A read of a protection domain. -/
  | usePd (entry : Pd)
  /-- A queue pair is destroyed. -/
  | destroy (qp : Handle)
  | free (object : Object)
  deriving DecidableEq

/-- The members of `struct rdma_dev_t` that the queue pairs depend on, and the queue pairs.
`qpsPtr` is what the cells from the first one of the table on hold; the first `numQp` of them
have been allocated. -/
structure RdmaDev where
  numQp : BitVec 32
  qpsPtr : ℕ → Option Handle
  qps : List Qp

/-- `create_rdma_dev`.  The number of queue pairs that was asked for has gone through an
`unsigned char`. -/
def createRdmaDev (numQp : BitVec 32) : RdmaDev where
  numQp := (numQp.setWidth 8).setWidth 32
  qpsPtr := fun _ => none
  qps := []

/-- `allocate_rdma_qp`. -/
def allocateRdmaQp (d : RdmaDev) (qpid : BitVec 32) (pdEntry : Pd) : RdmaDev × List Event :=
  ({ d with
      qpsPtr := Function.update d.qpsPtr qpid.toNat (some d.qps.length)
      qps := d.qps ++ [⟨qpid, some pdEntry⟩] },
    [.store qpid.toNat, .usePd pdEntry])

/-- `destroy_rdma_pd_entry`. -/
def destroyRdmaPdEntry : Option Pd → List Event
  | none => []
  | some entry => [.free (.pd entry)]

/-- `destroy_rdma_qp`, what it does to memory. -/
def destroyRdmaQp (d : RdmaDev) (h : Handle) : List Event :=
  match d.qps[h]? with
  | none => []
  | some qp =>
    [.destroy h, .free (.sq h), .free (.rq h), .free (.cq h)] ++ destroyRdmaPdEntry qp.pdEntry

/-- The queue pairs in the table. -/
def RdmaDev.table (d : RdmaDev) : List Handle := (List.range d.numQp.toNat).filterMap d.qpsPtr

/-- `destroy_rdma_dev`. -/
def destroyRdmaDev (d : RdmaDev) : List Event :=
  .free .glbCsr :: d.table.flatMap (destroyRdmaQp d)

/-- A call of a program that has a device. -/
inductive Call where
  | allocate (qpid : BitVec 32) (pdEntry : Pd)
  | destroy (qp : Handle)

/-- One call: the device afterwards, and what the call does to memory. -/
def RdmaDev.call (d : RdmaDev) : Call → RdmaDev × List Event
  | .allocate qpid pdEntry => allocateRdmaQp d qpid pdEntry
  | .destroy qp => (d, destroyRdmaQp d qp)

/-- A program up to the end of the device, with all it has done to memory. -/
def program (numQp : BitVec 32) : Machine (RdmaDev × List Event) Call :=
  Machine.watch ⟨createRdmaDev numQp, fun d c => (d.call c).1⟩ [] fun events d c =>
    events ++ (d.call c).2

/-! ## The table -/

/-- What is in a cell was allocated with the number of the cell. -/
structure WellFormed (d : RdmaDev) : Prop where
  index : ∀ (i : ℕ) (h : Handle), d.qpsPtr i = some h →
    ∃ qp : Qp, d.qps[h]? = some qp ∧ qp.qpid.toNat = i
  pd : ∀ (h : Handle) (qp : Qp), d.qps[h]? = some qp → qp.pdEntry.isSome = true

theorem wellFormed_createRdmaDev (numQp : BitVec 32) : WellFormed (createRdmaDev numQp) where
  index := fun _ _ h => by cases h
  pd := fun _ _ h => by cases h

theorem WellFormed.call {d : RdmaDev} (hd : WellFormed d) (c : Call) :
    WellFormed (d.call c).1 := by
  cases c with
  | destroy qp => exact hd
  | allocate qpid pdEntry =>
    constructor
    · intro i h hi
      show ∃ qp, (d.qps ++ [_])[h]? = some qp ∧ _
      change Function.update d.qpsPtr qpid.toNat (some d.qps.length) i = some h at hi
      by_cases hcell : i = qpid.toNat
      · subst hcell
        rw [Function.update_self, Option.some.injEq] at hi
        subst hi
        exact ⟨_, List.getElem?_concat_length, rfl⟩
      · rw [Function.update_of_ne hcell] at hi
        obtain ⟨qp, hqp, hindex⟩ := hd.index i h hi
        obtain ⟨hlt, -⟩ := List.getElem?_eq_some_iff.mp hqp
        exact ⟨qp, by rwa [List.getElem?_append_left hlt], hindex⟩
    · intro h qp hqp
      change (d.qps ++ [_])[h]? = some qp at hqp
      rcases Nat.lt_or_ge h d.qps.length with hlt | hge
      · rw [List.getElem?_append_left hlt] at hqp
        exact hd.pd h qp hqp
      · rw [List.getElem?_append_right hge, List.getElem?_singleton] at hqp
        split_ifs at hqp
        rw [← Option.some.inj hqp]
        rfl

/-- A queue pair is in one cell at most. -/
theorem WellFormed.injective {d : RdmaDev} (hd : WellFormed d) {i j : ℕ} {h : Handle}
    (hi : d.qpsPtr i = some h) (hj : d.qpsPtr j = some h) : i = j := by
  obtain ⟨qp, hqp, rfl⟩ := hd.index i h hi
  obtain ⟨qp', hqp', rfl⟩ := hd.index j h hj
  rw [hqp] at hqp'
  rw [Option.some.inj hqp']

theorem mem_table {d : RdmaDev} {h : Handle} :
    h ∈ d.table ↔ ∃ i < d.numQp.toNat, d.qpsPtr i = some h := by
  simp [RdmaDev.table]

theorem WellFormed.nodup_table {d : RdmaDev} (hd : WellFormed d) : d.table.Nodup :=
  List.nodup_range.filterMap fun _ _ _ hi hj => hd.injective hi hj

/-- A call destroys the queue pair it is given, if there is one. -/
theorem destroy_mem_destroyRdmaQp {d : RdmaDev} {h h' : Handle} :
    .destroy h ∈ destroyRdmaQp d h' ↔ h = h' ∧ h' < d.qps.length := by
  unfold destroyRdmaQp
  cases hqp : d.qps[h']? with
  | none =>
    have hge := List.getElem?_eq_none_iff.mp hqp
    simp [Nat.not_lt.mpr hge]
  | some qp =>
    obtain ⟨hlt, -⟩ := List.getElem?_eq_some_iff.mp hqp
    cases hpd : qp.pdEntry <;> simp [destroyRdmaPdEntry, hlt, hpd]

/-- The end of the device destroys what is in the table. -/
theorem destroy_mem_destroyRdmaDev {d : RdmaDev} (hd : WellFormed d) {h : Handle} :
    .destroy h ∈ destroyRdmaDev d ↔ h ∈ d.table := by
  rw [destroyRdmaDev, List.mem_cons, List.mem_flatMap]
  constructor
  · rintro (hfree | ⟨h', hmem, hdestroy⟩)
    · cases hfree
    · rwa [(destroy_mem_destroyRdmaQp.mp hdestroy).1]
  · intro hmem
    obtain ⟨i, -, hi⟩ := mem_table.mp hmem
    obtain ⟨qp, hqp, -⟩ := hd.index i h hi
    obtain ⟨hlt, -⟩ := List.getElem?_eq_some_iff.mp hqp
    exact Or.inr ⟨h, hmem, destroy_mem_destroyRdmaQp.mpr ⟨rfl, hlt⟩⟩

/-- Destroying stores nothing into the table and reads no protection domain. -/
theorem eq_of_mem_destroyRdmaQp {d : RdmaDev} {h : Handle} {e : Event}
    (he : e ∈ destroyRdmaQp d h) : e = .destroy h ∨ ∃ o, e = .free o := by
  unfold destroyRdmaQp at he
  cases hqp : d.qps[h]? with
  | none =>
    rw [hqp] at he
    cases he
  | some qp =>
    rw [hqp] at he
    cases hpd : qp.pdEntry with
    | none =>
      simp only [hpd, destroyRdmaPdEntry, List.append_nil, List.mem_cons, List.not_mem_nil,
        or_false] at he
      rcases he with rfl | rfl | rfl | rfl <;> simp
    | some entry =>
      simp only [hpd, destroyRdmaPdEntry, List.cons_append, List.nil_append, List.mem_cons,
        List.not_mem_nil, or_false] at he
      rcases he with rfl | rfl | rfl | rfl | rfl <;> simp

/-! ## The bounds of the table, and what is left in it -/

/-- Each queue pair has been stored inside the table, and each one that has not been destroyed
is destroyed when the device ends. -/
structure Covered (x : RdmaDev × List Event) : Prop where
  inside : ∀ i, .store i ∈ x.2 → i < x.1.numQp.toNat
  destroyed : ∀ h < x.1.qps.length, .destroy h ∉ x.2 → .destroy h ∈ destroyRdmaDev x.1

/-- A call that allocates a queue pair uses a number below that of the cells, and not the
number of a queue pair that has not been destroyed. -/
def FreshIndex (x : RdmaDev × List Event) : Call → Prop
  | .allocate qpid _ => qpid.toNat < x.1.numQp.toNat ∧
      ∀ h, x.1.qpsPtr qpid.toNat = some h → .destroy h ∈ x.2
  | .destroy _ => True

section Covered

variable {numQp : BitVec 32} {x : RdmaDev × List Event}

theorem covered_reset : WellFormed (program numQp).reset.1 ∧ Covered (program numQp).reset :=
  ⟨wellFormed_createRdmaDev numQp,
    { inside := fun _ h => absurd h List.not_mem_nil
      destroyed := fun h hlt _ => absurd hlt (Nat.not_lt_zero h) }⟩

/-- A call with a fresh index keeps what is covered. -/
theorem Covered.step (hd : WellFormed x.1) (hx : Covered x) {c : Call} (hc : FreshIndex x c) :
    Covered ((program numQp).step x c) := by
  cases c with
  | destroy qp =>
    refine ⟨fun i hi => ?_, fun h hlt hno => ?_⟩
    · rcases List.mem_append.mp hi with hold | hnew
      · exact hx.inside i hold
      · rcases eq_of_mem_destroyRdmaQp hnew with heq | ⟨o, heq⟩ <;> cases heq
    · exact hx.destroyed h hlt fun hold => hno (List.mem_append_left _ hold)
  | allocate qpid pdEntry =>
    obtain ⟨hindex, hfresh⟩ := hc
    have hd' := hd.call (.allocate qpid pdEntry)
    refine ⟨fun i hi => ?_, fun h hlt hno => ?_⟩
    · rcases List.mem_append.mp hi with hold | hnew
      · exact hx.inside i hold
      · change Event.store i ∈ [.store qpid.toNat, .usePd pdEntry] at hnew
        have heq : Event.store i = .store qpid.toNat := by simpa using hnew
        rw [Event.store.inj heq]
        exact hindex
    · refine (destroy_mem_destroyRdmaDev hd').mpr (mem_table.mpr ?_)
      have hlen : h < (x.1.qps ++ [_]).length := hlt
      rw [List.length_append, List.length_singleton] at hlen
      rcases Nat.lt_succ_iff_lt_or_eq.mp hlen with hold | rfl
      · have hnot : .destroy h ∉ x.2 := fun hold => hno (List.mem_append_left _ hold)
        obtain ⟨i, hi, hcell⟩ :=
          mem_table.mp ((destroy_mem_destroyRdmaDev hd).mp (hx.destroyed h hold hnot))
        have hne : i ≠ qpid.toNat := by
          rintro rfl
          exact hnot (hfresh h hcell)
        exact ⟨i, hi, (Function.update_of_ne hne _ _).trans hcell⟩
      · exact ⟨qpid.toNat, hindex, Function.update_self _ _ _⟩

/-- A call without a fresh index stores outside the table, or takes the cell of a queue pair
that has not been destroyed. -/
theorem not_covered_of_not_freshIndex (hd : WellFormed x.1) {c : Call} (hc : ¬ FreshIndex x c) :
    ¬ Covered ((program numQp).step x c) := by
  intro hcov
  cases c with
  | destroy qp => exact hc trivial
  | allocate qpid pdEntry =>
    have hindex : qpid.toNat < x.1.numQp.toNat :=
      hcov.inside qpid.toNat (List.mem_append_right _ List.mem_cons_self)
    refine hc ⟨hindex, fun h hcell => ?_⟩
    by_contra hno
    obtain ⟨qp, hqp, -⟩ := hd.index _ h hcell
    obtain ⟨hlt, -⟩ := List.getElem?_eq_some_iff.mp hqp
    have hd' := hd.call (.allocate qpid pdEntry)
    have hlt' : h < (x.1.qps ++ [(⟨qpid, some pdEntry⟩ : Qp)]).length :=
      Nat.lt_of_lt_of_le hlt (by simp)
    have hnot : .destroy h ∉ x.2 ++ [.store qpid.toNat, .usePd pdEntry] := by
      simpa using hno
    obtain ⟨i, -, hi⟩ :=
      mem_table.mp ((destroy_mem_destroyRdmaDev hd').mp (hcov.destroyed h hlt' hnot))
    change Function.update x.1.qpsPtr qpid.toNat (some x.1.qps.length) i = some h at hi
    by_cases hi' : i = qpid.toNat
    · rw [hi', Function.update_self] at hi
      exact absurd (Option.some.inj hi) hlt.ne'
    · rw [Function.update_of_ne hi'] at hi
      exact hi' (hd.injective hi hcell)

end Covered

/-- **The table.**  Whatever a program allocates and destroys, each queue pair is stored inside
the table and each one that is still allocated is destroyed at the end of the device, at any
time, **iff** each allocation uses a fresh index: one below `num_qp`, as the device has it, that
does not belong to a queue pair that is still allocated. -/
theorem covered_iff (numQp : BitVec 32) (calls : List Call) :
    (program numQp).Always Covered (program numQp).reset calls ↔
      (program numQp).Guarded FreshIndex (program numQp).reset calls :=
  Machine.always_iff_guarded (fun x (h : WellFormed x.1 ∧ Covered x) => h.2)
    (fun _ c h _ hc => ⟨h.1.call c, h.2.step h.1 hc⟩)
    (fun _ _ h _ hc => not_covered_of_not_freshIndex h.1 hc) covered_reset
    (Machine.guarded_true _ _)

/-- The last of eight queue pairs. -/
theorem not_covered_last :
    ¬ (program 8).Always Covered (program 8).reset [.allocate 8 0] := by
  rintro ⟨-, hlast⟩
  exact absurd (hlast.inside 8 List.mem_cons_self) (by decide)

/-! ## The protection domains -/

/-- No protection domain is freed twice, and none is read after it was freed. -/
def PdSafe (events : List Event) : Prop :=
  events.Pairwise fun e f => ∀ entry, e = .free (.pd entry) →
    f ≠ .free (.pd entry) ∧ f ≠ .usePd entry

/-- The protection domain that an event frees. -/
def freedPd : Event → Option Pd
  | .free (.pd entry) => some entry
  | _ => none

theorem freedPd_eq_some {e : Event} {entry : Pd} :
    freedPd e = some entry ↔ e = .free (.pd entry) := by
  constructor
  · intro h
    unfold freedPd at h
    split at h
    · rw [Option.some.inj h]
    · cases h
  · rintro rfl
    rfl

/-- Then those that are freed are all different. -/
theorem PdSafe.nodup {events : List Event} (h : PdSafe events) :
    (events.filterMap freedPd).Nodup := by
  rw [List.Nodup, List.pairwise_filterMap]
  refine h.imp fun {e f} h entry he entry' hf heq => ?_
  exact (h entry (freedPd_eq_some.mp he)).1 (heq ▸ freedPd_eq_some.mp hf)

/-- Behind the last read, the protection domains are safe iff those that are freed are all
different. -/
theorem pdSafe_append_iff {before after : List Event} (hbefore : ∀ e ∈ before, freedPd e = none)
    (hafter : ∀ e ∈ after, ∀ entry, e ≠ .usePd entry) :
    PdSafe (before ++ after) ↔ (after.filterMap freedPd).Nodup := by
  have hfree {e : Event} (he : e ∈ before) (entry : Pd) : e ≠ .free (.pd entry) := by
    intro heq
    have hnone := hbefore e he
    rw [freedPd_eq_some.mpr heq] at hnone
    cases hnone
  rw [PdSafe, List.pairwise_append]
  constructor
  · exact fun h => PdSafe.nodup h.2.1
  · intro hnodup
    have hpair := List.pairwise_filterMap.mp hnodup
    refine ⟨?_, ?_, fun e he f _ entry heq => absurd heq (hfree he entry)⟩
    · refine List.Pairwise.imp_of_mem (R := fun _ _ => True) ?_
        (List.pairwise_of_forall fun _ _ => trivial)
      exact fun {e f} he _ _ entry heq => absurd heq (hfree he entry)
    · refine hpair.imp_of_mem fun {e f} _ hf h entry he => ⟨fun hfree => ?_, hafter f hf entry⟩
      exact h entry (freedPd_eq_some.mpr he) entry (freedPd_eq_some.mpr hfree) rfl

/-- The protection domain of a queue pair. -/
def RdmaDev.pdOf (d : RdmaDev) (h : Handle) : Option Pd := (d.qps[h]?).bind Qp.pdEntry

/-- A call frees the protection domain of its queue pair. -/
theorem filterMap_destroyRdmaQp (d : RdmaDev) (h : Handle) :
    (destroyRdmaQp d h).filterMap freedPd = (d.pdOf h).toList := by
  unfold destroyRdmaQp RdmaDev.pdOf
  cases hqp : d.qps[h]? with
  | none => rfl
  | some qp =>
    rw [Option.bind_some]
    cases hpd : qp.pdEntry with
    | none =>
      simp only [hpd]
      rfl
    | some entry =>
      simp only [hpd]
      rfl

/-- Calls, one after the other, free the protection domains of their queue pairs. -/
theorem filterMap_flatMap_destroyRdmaQp (d : RdmaDev) (hs : List Handle) :
    (hs.flatMap (destroyRdmaQp d)).filterMap freedPd = hs.filterMap d.pdOf := by
  induction hs with
  | nil => rfl
  | cons h hs ih =>
    rw [List.flatMap_cons, List.filterMap_append, ih, filterMap_destroyRdmaQp, List.filterMap_cons]
    cases d.pdOf h <;> rfl

/-- What the two ways to destroy a queue pair may name together: no queue pair is destroyed
twice or while it is in the table, and no two of those that are destroyed share a protection
domain. -/
structure ReleasedOnce (d : RdmaDev) (destroys : List Handle) : Prop where
  once : destroys.Nodup
  cleared : ∀ h ∈ destroys, h ∉ d.table
  owner : ∀ h ∈ destroys ++ d.table, ∀ h' ∈ destroys ++ d.table, d.pdOf h = d.pdOf h' → h = h'

/-- The protection domains of these queue pairs are all different. -/
theorem nodup_filterMap_pdOf_iff {d : RdmaDev} (hd : WellFormed d) {destroys : List Handle}
    (hdestroys : ∀ h ∈ destroys, h < d.qps.length) :
    ((destroys ++ d.table).filterMap d.pdOf).Nodup ↔ ReleasedOnce d destroys := by
  have hpd : ∀ h ∈ destroys ++ d.table, ∃ entry, d.pdOf h = some entry := by
    intro h hh
    have hlt : h < d.qps.length := by
      rcases List.mem_append.mp hh with hmem | hmem
      · exact hdestroys h hmem
      · obtain ⟨i, -, hi⟩ := mem_table.mp hmem
        obtain ⟨qp, hqp, -⟩ := hd.index i h hi
        exact (List.getElem?_eq_some_iff.mp hqp).1
    have hqp := List.getElem?_eq_getElem hlt
    obtain ⟨entry, hentry⟩ := Option.isSome_iff_exists.mp (hd.pd h _ hqp)
    exact ⟨entry, by rw [RdmaDev.pdOf, hqp, Option.bind_some, hentry]⟩
  have hmap : ((destroys ++ d.table).filterMap d.pdOf).Nodup ↔
      ((destroys ++ d.table).map d.pdOf).Nodup := by
    rw [List.Nodup, List.Nodup, List.pairwise_filterMap, List.pairwise_map]
    refine List.Pairwise.iff_of_mem fun {h h'} hh hh' => ?_
    obtain ⟨entry, hentry⟩ := hpd h hh
    obtain ⟨entry', hentry'⟩ := hpd h' hh'
    simp [hentry, hentry']
  rw [hmap]
  constructor
  · intro hnodup
    have hall := hnodup.of_map
    obtain ⟨honce, -, hdisjoint⟩ := List.nodup_append.mp hall
    exact ⟨honce, fun h hh ht => hdisjoint h hh h ht rfl,
      (List.nodup_map_iff_inj_on hall).mp hnodup⟩
  · intro h
    have hall : (destroys ++ d.table).Nodup := by
      refine List.nodup_append.mpr ⟨h.once, hd.nodup_table, ?_⟩
      rintro a ha b hb rfl
      exact h.cleared a ha hb
    exact (List.nodup_map_iff_inj_on hall).mpr h.owner

/-! ## A program that allocates and then destroys -/

section Program

variable (numQp : BitVec 32)

/-- The device after these allocations: the number and the protection domain of each. -/
def allocated (allocs : List (BitVec 32 × Pd)) : RdmaDev × List Event :=
  (program numQp).run (allocs.map fun a => .allocate a.1 a.2)

/-- All that a program does to memory that allocates, destroys some queue pairs, and then
destroys the device. -/
def lifetime (allocs : List (BitVec 32 × Pd)) (destroys : List Handle) : List Event :=
  let x := (program numQp).run
    (allocs.map (fun a => .allocate a.1 a.2) ++ destroys.map .destroy)
  x.2 ++ destroyRdmaDev x.1

/-- Allocations keep the table well formed and free nothing. -/
theorem allocated_spec (allocs : List (BitVec 32 × Pd)) :
    WellFormed (allocated numQp allocs).1 ∧
      (allocated numQp allocs).1.qps.length = allocs.length ∧
      ∀ e ∈ (allocated numQp allocs).2, freedPd e = none := by
  induction allocs using List.reverseRecOn with
  | nil => exact ⟨wellFormed_createRdmaDev numQp, rfl, fun e he => absurd he List.not_mem_nil⟩
  | append_singleton allocs a ih =>
    obtain ⟨hd, hlen, hfree⟩ := ih
    have hstep : allocated numQp (allocs ++ [a]) =
        (program numQp).step (allocated numQp allocs) (.allocate a.1 a.2) := by
      rw [allocated, List.map_append, Machine.run, Machine.runFrom_append]
      rfl
    rw [hstep]
    refine ⟨hd.call _, ?_, fun e he => ?_⟩
    · show ((allocated numQp allocs).1.qps ++ [_]).length = _
      rw [List.length_append, List.length_append, hlen]
      rfl
    · rcases List.mem_append.mp he with hold | hnew
      · exact hfree e hold
      · change e ∈ [Event.store _, .usePd _] at hnew
        rcases List.mem_cons.mp hnew with rfl | hnew
        · rfl
        · rw [List.mem_singleton.mp hnew]
          rfl

/-- Destroying queue pairs leaves the device as it is. -/
theorem runFrom_destroys (x : RdmaDev × List Event) (destroys : List Handle) :
    (program numQp).runFrom x (destroys.map .destroy) =
      (x.1, x.2 ++ destroys.flatMap (destroyRdmaQp x.1)) := by
  induction destroys generalizing x with
  | nil => rw [List.map_nil, Machine.runFrom_nil, List.flatMap_nil, List.append_nil]
  | cons h destroys ih =>
    rw [List.map_cons, Machine.runFrom_cons, ih, List.flatMap_cons, ← List.append_assoc]
    rfl

/-- What is done to memory behind the allocations. -/
theorem lifetime_eq (allocs : List (BitVec 32 × Pd)) (destroys : List Handle) :
    lifetime numQp allocs destroys = (allocated numQp allocs).2 ++
      (destroys.flatMap (destroyRdmaQp (allocated numQp allocs).1) ++
        destroyRdmaDev (allocated numQp allocs).1) := by
  have hrun := runFrom_destroys numQp (allocated numQp allocs) destroys
  rw [lifetime, Machine.run, Machine.runFrom_append]
  rw [allocated, Machine.run] at hrun ⊢
  rw [hrun, List.append_assoc]

end Program

/-- **Protection domains.**  A program allocates queue pairs, destroys some of them in any
order, and then destroys the device.  Each protection domain is freed at most once, and not
read afterwards, **iff** no queue pair is destroyed twice or while it is in the table, and no two
of those that are destroyed share a protection domain. -/
theorem pdSafe_iff (numQp : BitVec 32) (allocs : List (BitVec 32 × Pd)) (destroys : List Handle)
    (hdestroys : ∀ h ∈ destroys, h < allocs.length) :
    PdSafe (lifetime numQp allocs destroys) ↔
      ReleasedOnce (allocated numQp allocs).1 destroys := by
  obtain ⟨hd, hlen, hfree⟩ := allocated_spec numQp allocs
  have hafter : ∀ e ∈ destroys.flatMap (destroyRdmaQp (allocated numQp allocs).1) ++
      destroyRdmaDev (allocated numQp allocs).1, ∀ entry, e ≠ .usePd entry := by
    intro e he entry heq
    subst heq
    rw [destroyRdmaDev, List.mem_append, List.mem_cons, List.mem_flatMap, List.mem_flatMap] at he
    rcases he with ⟨h, -, hmem⟩ | hcsr | ⟨h, -, hmem⟩
    · rcases eq_of_mem_destroyRdmaQp hmem with heq | ⟨o, heq⟩ <;> cases heq
    · cases hcsr
    · rcases eq_of_mem_destroyRdmaQp hmem with heq | ⟨o, heq⟩ <;> cases heq
  have hfrees : (destroys.flatMap (destroyRdmaQp (allocated numQp allocs).1) ++
      destroyRdmaDev (allocated numQp allocs).1).filterMap freedPd =
      (destroys ++ (allocated numQp allocs).1.table).filterMap (allocated numQp allocs).1.pdOf := by
    rw [destroyRdmaDev, List.filterMap_append, List.filterMap_cons_none rfl,
      filterMap_flatMap_destroyRdmaQp, filterMap_flatMap_destroyRdmaQp, List.filterMap_append]
  rw [lifetime_eq, pdSafe_append_iff hfree hafter, hfrees]
  exact nodup_filterMap_pdOf_iff hd fun h hh => hlen ▸ hdestroys h hh

/-- Three queue pairs with a protection domain each.  The third one takes over the number of the
first one, which is then destroyed. -/
theorem pdSafe_iff_three :
    (∀ h ∈ [0], h < [((1 : BitVec 32), 10), (2, 11), (1, 12)].length) ∧
      PdSafe (lifetime 8 [(1, 10), (2, 11), (1, 12)] [0]) := by
  have hbound : ∀ h ∈ [0], h < [((1 : BitVec 32), 10), (2, 11), (1, 12)].length := by decide
  refine ⟨hbound, (pdSafe_iff 8 _ _ hbound).mpr ?_⟩
  exact ⟨by decide, by decide, by decide⟩

/-- Two queue pairs share a protection domain, or one is destroyed before the device is. -/
theorem not_pdSafe_shared :
    ¬ PdSafe (lifetime 8 [(1, 10), (2, 10)] []) ∧ ¬ PdSafe (lifetime 8 [(1, 10)] [0]) :=
  ⟨fun h => absurd h.nodup (by decide), fun h => absurd h.nodup (by decide)⟩

end Teardown
end RecoNIC
