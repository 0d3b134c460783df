import Mathlib.Data.List.Basic

/-!
# A FIFO between two clocks

A first-word-fall-through FIFO whose ends have clocks of their own, as its data sheet
describes it.  A word is accepted iff it is written while the FIFO is neither full nor busy
with its reset.  The flags may be late, but not in the unsafe direction: without a write the
FIFO does not become full, it does not fall back into its reset, and a word that is shown
stays until it is read.

How many words fit, how long the reset takes and when a word is shown is left to the
implementation.  `ofDepth` is one that shows a word at once.
-/

namespace RecoNIC
namespace Synchronous

/-- A FIFO between two clocks, with the list it stands for. -/
structure AsyncFifo (α : Type) where
  /-- The registers. -/
  State : Type
  reset : State
  /-- An edge of the write clock: `wr_en` and `din`. -/
  stepWr : State → Bool → α → State
  /-- An edge of the read clock: `rd_en`. -/
  stepRd : State → Bool → State
  full : State → Bool
  wrRstBusy : State → Bool
  empty : State → Bool
  dout : State → α
  /-- The words, the oldest first. -/
  contents : State → List α
  contents_reset : contents reset = []
  contents_eq_cons : ∀ s, empty s = false → contents s = dout s :: (contents s).tail
  contents_stepWr : ∀ s wr x, contents (stepWr s wr x) =
    contents s ++ if wr && (!full s && !wrRstBusy s) then [x] else []
  contents_stepRd : ∀ s rd, contents (stepRd s rd) =
    if rd && !empty s then (contents s).tail else contents s
  full_stepWr : ∀ s x, full s = false → full (stepWr s false x) = false
  full_stepRd : ∀ s rd, full s = false → full (stepRd s rd) = false
  wrRstBusy_stepWr : ∀ s wr x, wrRstBusy s = false → wrRstBusy (stepWr s wr x) = false
  wrRstBusy_stepRd : ∀ s rd, wrRstBusy s = false → wrRstBusy (stepRd s rd) = false
  empty_stepWr : ∀ s wr x, empty s = false → empty (stepWr s wr x) = false
  empty_stepRd : ∀ s, empty s = false → empty (stepRd s false) = false

namespace AsyncFifo

variable {α : Type} (F : AsyncFifo α)

/-- The word that a read takes. -/
def taken (s : F.State) (rd : Bool) : List α := if rd && !F.empty s then [F.dout s] else []

/-- A read takes the oldest word, or nothing. -/
theorem taken_append (s : F.State) (rd : Bool) :
    F.taken s rd ++ F.contents (F.stepRd s rd) = F.contents s := by
  rw [F.contents_stepRd, taken]
  cases hread : rd && !F.empty s with
  | false => rfl
  | true =>
    have hne : F.empty s = false := by
      simpa using (Bool.and_eq_true_iff.mp hread).2
    exact (F.contents_eq_cons s hne).symm

theorem contents_ne_nil {s : F.State} (h : F.empty s = false) : F.contents s ≠ [] := by
  rw [F.contents_eq_cons s h]
  exact List.cons_ne_nil _ _

/-- The words of a FIFO of a given depth, and the write cycles until its reset is over. -/
structure Words (α : Type) where
  words : List α
  busy : Nat

/-- A FIFO of `depth` words whose reset takes `busy` write cycles. -/
def ofDepth (depth busy : Nat) (zero : α) : AsyncFifo α where
  State := Words α
  reset := ⟨[], busy⟩
  stepWr := fun s wr x =>
    ⟨s.words ++ if wr && (!decide (depth ≤ s.words.length) && !decide (0 < s.busy)) then [x]
      else [], s.busy - 1⟩
  stepRd := fun s rd => ⟨if rd && !s.words.isEmpty then s.words.tail else s.words, s.busy⟩
  full := fun s => decide (depth ≤ s.words.length)
  wrRstBusy := fun s => decide (0 < s.busy)
  empty := fun s => s.words.isEmpty
  dout := fun s => s.words.headD zero
  contents := Words.words
  contents_reset := rfl
  contents_eq_cons := fun s h => by
    cases hw : s.words with
    | nil => simp [hw] at h
    | cons x xs => rfl
  contents_stepWr := fun _ _ _ => rfl
  contents_stepRd := fun _ _ => rfl
  full_stepWr := fun s x h => by simpa using h
  full_stepRd := fun s rd h => by
    simp only [decide_eq_false_iff_not, Nat.not_le] at h ⊢
    split
    · rw [List.length_tail]
      omega
    · exact h
  wrRstBusy_stepWr := fun s wr x h => by
    simp only [decide_eq_false_iff_not] at h ⊢
    omega
  wrRstBusy_stepRd := fun _ _ h => h
  empty_stepWr := fun s wr x h => by
    simp only [List.isEmpty_eq_false_iff] at h ⊢
    exact List.append_ne_nil_of_left_ne_nil h _
  empty_stepRd := fun _ h => h

end AsyncFifo
end Synchronous
end RecoNIC
