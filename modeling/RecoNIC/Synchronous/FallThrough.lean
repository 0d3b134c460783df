import Mathlib.Data.List.Basic

/-!
# A FIFO that comes from elsewhere

A first-word-fall-through FIFO as its data sheet describes it.  It shows the oldest
entry without being asked, and a read drops that entry.  A write into a full FIFO is
ignored.  How many entries fit, and how many cycles go by before an entry is shown, is
left to the implementation; `delay` only says that it comes.

`Queue` is such a FIFO.  It shows an entry at once.
-/

namespace RecoNIC
namespace Synchronous

/-- A first-word-fall-through FIFO, with the list it stands for. -/
structure FallThrough (α : Type) where
  /-- The registers. -/
  State : Type
  reset : State
  /-- One clock edge: `rd_en`, `wr_en` and `din`. -/
  step : State → Bool → Bool → α → State
  empty : State → Bool
  full : State → Bool
  progFull : State → Bool
  dout : State → α
  /-- The entries, the oldest first. -/
  contents : State → List α
  /-- The number of cycles until the oldest entry is shown. -/
  delay : State → Nat
  contents_reset : contents reset = []
  /-- A FIFO that is not empty shows its oldest entry. -/
  contents_eq_cons : ∀ s, empty s = false → contents s = dout s :: (contents s).tail
  /-- A read drops the oldest entry, and a write appends one unless the FIFO is full. -/
  contents_step : ∀ s rd wr x, contents (step s rd wr x) =
    (if rd && !empty s then (contents s).tail else contents s) ++
      (if wr && !full s then [x] else [])
  /-- An entry is shown when its delay is over. -/
  empty_of_delay : ∀ s, contents s ≠ [] → delay s = 0 → empty s = false
  /-- Each cycle without a read shortens the delay. -/
  delay_step : ∀ s wr x, contents s ≠ [] → delay (step s false wr x) ≤ delay s - 1

namespace FallThrough

variable {α : Type} (F : FallThrough α)

/-- The delay of the oldest entry if there is one. -/
def wait (s : F.State) : Nat := if F.contents s = [] then 0 else F.delay s

theorem contents_ne_nil {s : F.State} (h : F.empty s = false) : F.contents s ≠ [] := by
  rw [F.contents_eq_cons s h]
  exact List.cons_ne_nil _ _

/-- An entry that is not shown yet has to wait. -/
theorem wait_pos {s : F.State} (hne : F.contents s ≠ []) (he : F.empty s = true) :
    0 < F.wait s := by
  rw [wait, if_neg hne]
  refine Nat.pos_of_ne_zero fun h => ?_
  rw [F.empty_of_delay s hne h] at he
  exact Bool.false_ne_true he

theorem contents_idle (s : F.State) (x : α) :
    F.contents (F.step s false false x) = F.contents s := by
  rw [F.contents_step]
  simp

/-- A read of a FIFO that is not empty makes it shorter. -/
theorem length_contents_read {s : F.State} (he : F.empty s = false) (x : α) :
    (F.contents (F.step s true false x)).length < (F.contents s).length := by
  have hpos := List.length_pos_iff.mpr (F.contents_ne_nil he)
  rw [F.contents_step]
  simp only [he, Bool.not_false, Bool.and_self, if_true, Bool.false_and, Bool.false_eq_true,
    if_false, List.append_nil, List.length_tail]
  omega

theorem length_contents_read_le (s : F.State) (rd : Bool) (x : α) :
    (F.contents (F.step s rd false x)).length ≤ (F.contents s).length := by
  rw [F.contents_step]
  split_ifs <;> simp_all

/-- A cycle without a read or a write shortens the wait. -/
theorem wait_idle (s : F.State) (x : α) : F.wait (F.step s false false x) ≤ F.wait s - 1 := by
  have hcont := F.contents_idle s x
  rw [wait, wait, hcont]
  by_cases hne : F.contents s = []
  · rw [if_pos hne]
    exact Nat.zero_le _
  · rw [if_neg hne, if_neg hne]
    exact F.delay_step s false x hne

end FallThrough

/-! ## A FIFO that shows an entry at once -/

/-- The entries of a FIFO with room for `depth` of them, and their number. -/
structure Queue (α : Type) (depth : Nat) where
  entries : List α
  count : Nat
  count_eq : count = entries.length
  count_le : count ≤ depth

namespace Queue

variable {α : Type} {depth : Nat}

/-- No entry. -/
def empty : Queue α depth := ⟨[], 0, rfl, Nat.zero_le _⟩

/-- Without the oldest entry. -/
def pop (f : Queue α depth) : Queue α depth where
  entries := f.entries.tail
  count := f.count - 1
  count_eq := by rw [List.length_tail, f.count_eq]
  count_le := Nat.le_trans (Nat.sub_le _ _) f.count_le

/-- With one more entry. -/
def push (f : Queue α depth) (x : α) (h : f.count ≠ depth) : Queue α depth where
  entries := f.entries ++ [x]
  count := f.count + 1
  count_eq := by rw [List.length_append, f.count_eq, List.length_singleton]
  count_le := Nat.lt_of_le_of_ne f.count_le h

/-- One clock edge.  A write looks at the number of entries before the read. -/
def step (f : Queue α depth) (rd wr : Bool) (x : α) : Queue α depth :=
  let g := if rd then f.pop else f
  if h : wr && !(f.count == depth) then
    g.push x (by
      have hne : f.count ≠ depth := by simpa using (Bool.and_eq_true_iff.mp h).2
      have hle := f.count_le
      cases rd with
      | false => exact hne
      | true =>
        change f.count - 1 ≠ depth
        omega)
  else g

theorem entries_step (f : Queue α depth) (rd wr : Bool) (x : α) :
    (f.step rd wr x).entries = (if rd then f.entries.tail else f.entries) ++
      if wr && !(f.count == depth) then [x] else [] := by
  unfold step
  by_cases h : (wr && !(f.count == depth)) = true
  · rw [dif_pos h, if_pos h]
    cases rd <;> rfl
  · rw [dif_neg h, if_neg h, List.append_nil]
    cases rd <;> rfl

/-- The FIFO of `depth` entries, with `prog_full` from `thresh` entries on. -/
def fallThrough (depth thresh : Nat) (zero : α) : FallThrough α where
  State := Queue α depth
  reset := .empty
  step := Queue.step
  empty := fun f => f.count == 0
  full := fun f => f.count == depth
  progFull := fun f => decide (thresh ≤ f.count)
  dout := fun f => f.entries.headD zero
  contents := Queue.entries
  delay := fun _ => 0
  contents_reset := rfl
  contents_eq_cons := fun f h => by
    have hne : f.entries ≠ [] := by
      rw [← List.length_pos_iff, ← f.count_eq, Nat.pos_iff_ne_zero]
      simpa using h
    cases he : f.entries with
    | nil => exact absurd he hne
    | cons x xs => rfl
  contents_step := fun f rd wr x => by
    rw [entries_step]
    cases he : f.count == 0 with
    | false => simp
    | true =>
      have hnil : f.entries = [] := by
        rw [← List.length_eq_zero_iff, ← f.count_eq]
        simpa using he
      simp [hnil]
  empty_of_delay := fun f hne _ => by
    rw [← List.length_pos_iff, ← f.count_eq, Nat.pos_iff_ne_zero] at hne
    simpa using hne
  delay_step := fun _ _ _ _ => Nat.le_refl 0

end Queue
end Synchronous
end RecoNIC
