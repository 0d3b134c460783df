import Mathlib.Data.Finset.Card
import Mathlib.Data.Fintype.Card
import Mathlib.Data.List.FinRange
import Mathlib.Data.List.Nodup
import Mathlib.Logic.Function.Basic

/-!
# A finite map kept in slots

There are `n` slots with a key and a value each, and a key `free` that marks a slot as
empty.  A search compares a key with all slots at once.  `Represents` says when the slots
stand for a map on the other keys: each of them is in at most one slot, and the value there
is its value.

A write to a slot keeps this if the slot is empty or has the key already.  A write to a slot
of another key forgets that key, and then the slots do not stand for the map any more
(`Represents.not_represents_write`).
-/

namespace RecoNIC
namespace SlotMap

variable {κ β : Type*} {n : ℕ}

/-- `n` slots with a key and a value each. -/
abbrev Slots (κ β : Type*) (n : ℕ) := Fin n → κ × β

/-- The slots that have the key. -/
def holders [DecidableEq κ] (s : Slots κ β n) (k : κ) : List (Fin n) :=
  (List.finRange n).filter fun i => (s i).1 = k

/-- The slots stand for the map `m` on the keys other than `free`. -/
structure Represents (free : κ) (s : Slots κ β n) (m : κ → Option β) : Prop where
  find : ∀ k, k ≠ free → ∀ v, m k = some v ↔ ∃ i, s i = (k, v)
  unique : ∀ i j, (s i).1 ≠ free → (s i).1 = (s j).1 → i = j

/-! ## The search -/

section Search

variable [DecidableEq κ] {s : Slots κ β n} {k : κ} {i : Fin n}

@[simp] theorem mem_holders : i ∈ holders s k ↔ (s i).1 = k := by
  simp [holders]

theorem nodup_holders (s : Slots κ β n) (k : κ) : (holders s k).Nodup :=
  (List.nodup_finRange n).filter _

theorem holders_eq_nil : holders s k = [] ↔ ∀ i, (s i).1 ≠ k := by
  rw [List.eq_nil_iff_forall_not_mem]
  exact forall_congr' fun i => not_congr mem_holders

theorem holders_eq_singleton (hi : (s i).1 = k) (h : ∀ j, (s j).1 = k → j = i) :
    holders s k = [i] := by
  refine List.perm_singleton.mp ?_
  refine (List.perm_ext_iff_of_nodup (nodup_holders s k) (List.nodup_singleton i)).mpr ?_
  intro j
  rw [mem_holders, List.mem_singleton]
  exact ⟨h j, fun hj => hj ▸ hi⟩

theorem eq_of_holders_eq_singleton (h : holders s k = [i]) {j : Fin n} (hj : (s j).1 = k) :
    j = i :=
  List.mem_singleton.mp (h ▸ mem_holders.mpr hj)

theorem fst_of_holders_eq_singleton (h : holders s k = [i]) : (s i).1 = k :=
  mem_holders.mp (h ▸ List.mem_singleton_self i)

end Search

/-! ## What the slots stand for -/

theorem represents_empty {free : κ} {s : Slots κ β n} (h : ∀ i, (s i).1 = free) :
    Represents free s fun _ => none where
  find := by
    intro k hk v
    constructor
    · intro hv
      cases hv
    · rintro ⟨i, hi⟩
      exact absurd (by rw [← h i, hi]) hk
  unique := fun i _ hi => absurd (h i) hi

namespace Represents

variable {free k : κ} {s : Slots κ β n} {m : κ → Option β} {i : Fin n}

/-- A key that is in a slot has a value. -/
theorem eq_some (h : Represents free s m) (hi : (s i).1 ≠ free) : m (s i).1 = some (s i).2 :=
  (h.find _ hi _).mpr ⟨i, rfl⟩

/-- **There are at most as many keys as there are slots.** -/
theorem card_le (h : Represents free s m) (K : Finset κ)
    (hK : ∀ k ∈ K, k ≠ free ∧ m k ≠ none) : K.card ≤ n := by
  have hslot : ∀ k ∈ K, ∃ i, (s i).1 = k := by
    intro k hk
    obtain ⟨hfree, hsome⟩ := hK k hk
    obtain ⟨v, hv⟩ := Option.ne_none_iff_exists'.mp hsome
    obtain ⟨i, hi⟩ := (h.find k hfree v).mp hv
    exact ⟨i, by rw [hi]⟩
  classical
  calc K.card ≤ (Finset.univ.image fun i => (s i).1).card := by
        refine Finset.card_le_card fun k hk => ?_
        obtain ⟨i, hi⟩ := hslot k hk
        exact Finset.mem_image.mpr ⟨i, Finset.mem_univ i, hi⟩
    _ ≤ (Finset.univ : Finset (Fin n)).card := Finset.card_image_le
    _ = n := Finset.card_fin n

section Search

variable [DecidableEq κ]

theorem eq_none_of_holders (h : Represents free s m) (hk : k ≠ free) (hnil : holders s k = []) :
    m k = none := by
  refine Option.eq_none_iff_forall_ne_some.mpr fun v hv => ?_
  obtain ⟨i, hi⟩ := (h.find k hk v).mp hv
  exact holders_eq_nil.mp hnil i (by rw [hi])

/-- **A search.**  Either no slot has the key and the map has no value, or exactly one slot
has it, with the value of the map. -/
theorem search (h : Represents free s m) (hk : k ≠ free) :
    (holders s k = [] ∧ m k = none) ∨ ∃ i, holders s k = [i] ∧ m k = some (s i).2 := by
  by_cases hnil : holders s k = []
  · exact Or.inl ⟨hnil, h.eq_none_of_holders hk hnil⟩
  · right
    obtain ⟨i, hi⟩ := List.exists_mem_of_ne_nil _ hnil
    rw [mem_holders] at hi
    subst hi
    refine ⟨i, holders_eq_singleton rfl fun j hj => (h.unique i j hk hj.symm).symm, ?_⟩
    exact h.eq_some hk

end Search

/-- What the other slots stand for. -/
theorem find_other (h : Represents free s m) (hk : k ≠ free) (v : β) :
    (∃ j, j ≠ i ∧ s j = (k, v)) ↔ m k = some v ∧ (s i).1 ≠ k := by
  rw [h.find k hk v]
  constructor
  · rintro ⟨j, hji, hj⟩
    refine ⟨⟨j, hj⟩, fun hi => hji ?_⟩
    have hkey : (s i).1 = (s j).1 := by rw [hi, hj]
    exact (h.unique i j (hi ▸ hk) hkey).symm
  · rintro ⟨⟨j, hj⟩, hi⟩
    refine ⟨j, ?_, hj⟩
    rintro rfl
    exact hi (by rw [hj])

/-- **One slot changes.**  The map changes for the key that goes and for the key that comes. -/
theorem change (h : Represents free s m) {x : κ × β} {m' : κ → Option β}
    (hx : x.1 = free ∨ ∀ j, j ≠ i → (s j).1 ≠ x.1)
    (hm : ∀ k, k ≠ free → ∀ v, m' k = some v ↔ x = (k, v) ∨ m k = some v ∧ (s i).1 ≠ k) :
    Represents free (Function.update s i x) m' where
  find := by
    intro k hk v
    rw [hm k hk v, ← h.find_other hk v]
    constructor
    · rintro (hxk | ⟨j, hji, hj⟩)
      · exact ⟨i, by rw [Function.update_self, hxk]⟩
      · exact ⟨j, by rw [Function.update_of_ne hji, hj]⟩
    · rintro ⟨j, hj⟩
      by_cases hji : j = i
      · left
        rwa [hji, Function.update_self] at hj
      · right
        rw [Function.update_of_ne hji] at hj
        exact ⟨j, hji, hj⟩
  unique := by
    have halone : ∀ j, j ≠ i → x.1 ≠ free → x.1 ≠ (s j).1 := fun j hji hfree heq =>
      hx.elim hfree fun hx => hx j hji heq.symm
    intro j j' hj heq
    by_cases hji : j = i
    · by_cases hji' : j' = i
      · rw [hji, hji']
      · subst hji
        rw [Function.update_self] at hj heq
        rw [Function.update_of_ne hji'] at heq
        exact absurd heq (halone j' hji' hj)
    · rw [Function.update_of_ne hji] at hj heq
      by_cases hji' : j' = i
      · subst hji'
        rw [Function.update_self] at heq
        exact absurd heq.symm (halone j hji (heq ▸ hj))
      · rw [Function.update_of_ne hji'] at heq
        exact h.unique j j' hj heq

section Write

variable [DecidableEq κ]

/-- A write of the key to a slot that is empty or has the key, when no other slot has it. -/
theorem write (h : Represents free s m) (hi : (s i).1 = free ∨ (s i).1 = k)
    (hother : ∀ j, j ≠ i → (s j).1 ≠ k) (v : β) :
    Represents free (Function.update s i (k, v)) (Function.update m k (some v)) := by
  refine h.change (Or.inr hother) fun k' hk' v' => ?_
  by_cases hkk : k' = k
  · subst hkk
    rw [← h.find_other hk' v', Function.update_self, Option.some_inj, Prod.mk_right_inj]
    refine ⟨Or.inl, fun hor => hor.elim id ?_⟩
    rintro ⟨j, hji, hj⟩
    exact absurd (by rw [hj]) (hother j hji)
  · have hgone : (s i).1 ≠ k' := fun hi' => hi.elim (hi' ▸ hk') fun hik => hkk (hi' ▸ hik)
    rw [Function.update_of_ne hkk]
    refine ⟨fun hv => Or.inr ⟨hv, hgone⟩, fun hor => hor.elim ?_ And.left⟩
    intro heq
    exact absurd (congrArg Prod.fst heq).symm hkk

/-- The slot of the key is made empty. -/
theorem clear (h : Represents free s m) (hi : (s i).1 = k) (v : β) :
    Represents free (Function.update s i (free, v)) (Function.update m k none) := by
  refine h.change (Or.inl rfl) fun k' hk' v' => ?_
  have hnot : (free, v) ≠ (k', v') := fun heq => hk' (congrArg Prod.fst heq).symm
  rw [or_iff_right hnot, hi]
  by_cases hkk : k' = k
  · subst hkk
    rw [Function.update_self]
    exact ⟨fun hv => (by cases hv), fun hv => absurd rfl hv.2⟩
  · rw [Function.update_of_ne hkk]
    exact ⟨fun hv => ⟨hv, Ne.symm hkk⟩, And.left⟩

/-- **A write to the slot of another key forgets that key.** -/
theorem not_represents_write (h : Represents free s m) (hi : (s i).1 ≠ free)
    (hne : (s i).1 ≠ k) (v : β) :
    ¬ Represents free (Function.update s i (k, v)) (Function.update m k (some v)) := by
  intro hbad
  have hstill : Function.update m k (some v) (s i).1 = some (s i).2 := by
    rw [Function.update_of_ne hne, h.eq_some hi]
  obtain ⟨j, hj⟩ := (hbad.find _ hi _).mp hstill
  by_cases hji : j = i
  · subst hji
    rw [Function.update_self] at hj
    exact hne (congrArg Prod.fst hj).symm
  · rw [Function.update_of_ne hji] at hj
    have hkey : (s i).1 = (s j).1 := by rw [hj]
    exact hji (h.unique i j hi hkey).symm

end Write

end Represents
end SlotMap
end RecoNIC
