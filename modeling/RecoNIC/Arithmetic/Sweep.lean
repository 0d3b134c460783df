import Mathlib.Data.List.ProdSigma
import Mathlib.Logic.Function.Basic

/-!
# Loops that rewrite an array in place

`sweep f l c` visits the cells `l` of the array `c`, one after the other, and rewrites each
from its own value.  When no cell is visited twice, each visited cell is rewritten once, from
the value it had at the beginning, and the others keep theirs.  The order does not matter.
-/

namespace RecoNIC
namespace Sweep

universe u v

variable {ι : Type u} {κ : Type u} {α : Type v} [DecidableEq ι] [DecidableEq κ]

/-- Rewrite the cells `l`, one after the other. -/
def sweep (f : ι → α → α) (l : List ι) (c : ι → α) : ι → α :=
  l.foldl (fun c x => Function.update c x (f x (c x))) c

variable (f : ι → α → α)

@[simp] theorem sweep_nil (c : ι → α) : sweep f [] c = c := rfl

@[simp] theorem sweep_cons (x : ι) (l : List ι) (c : ι → α) :
    sweep f (x :: l) c = sweep f l (Function.update c x (f x (c x))) := rfl

/-- A cell that is not visited keeps its value. -/
theorem sweep_of_not_mem {l : List ι} {x : ι} (hx : x ∉ l) (c : ι → α) :
    sweep f l c x = c x := by
  induction l generalizing c with
  | nil => rfl
  | cons y l ih =>
    have hne : x ≠ y := fun h => hx (h ▸ List.mem_cons_self)
    have hl : x ∉ l := fun h => hx (List.mem_cons_of_mem y h)
    rw [sweep_cons, ih hl, Function.update_of_ne hne]

/-- A cell that is visited once is rewritten from the value it had at the beginning. -/
theorem sweep_of_mem {l : List ι} (hl : l.Nodup) {x : ι} (hx : x ∈ l) (c : ι → α) :
    sweep f l c x = f x (c x) := by
  induction l generalizing c with
  | nil => cases hx
  | cons y l ih =>
    obtain ⟨hy, hnodup⟩ := List.nodup_cons.mp hl
    rw [sweep_cons]
    rcases List.mem_cons.mp hx with rfl | hmem
    · rw [sweep_of_not_mem f hy, Function.update_self]
    · have hne : x ≠ y := fun h => hy (h ▸ hmem)
      rw [ih hnodup hmem, Function.update_of_ne hne]

/-- Two loops, one inside the other, sweep the pairs. -/
theorem foldl_foldl_eq_sweep (f : ι × κ → α → α) (l : List ι) (m : List κ)
    (c : ι × κ → α) :
    l.foldl (fun c i => m.foldl (fun c j => Function.update c (i, j) (f (i, j) (c (i, j)))) c) c =
      sweep f (l ×ˢ m) c := by
  induction l generalizing c with
  | nil => rfl
  | cons i l ih =>
    rw [List.foldl_cons, ih, List.product_cons]
    unfold sweep
    rw [List.foldl_append, List.foldl_map]

omit [DecidableEq κ] in
/-- The same for an array with one index, which the loops compute. -/
theorem foldl_foldl_eq_sweep_flatMap {μ : Type*} (g : μ → κ → ι) (l : List μ) (m : List κ)
    (c : ι → α) :
    l.foldl (fun c i =>
        m.foldl (fun c j => Function.update c (g i j) (f (g i j) (c (g i j)))) c) c =
      sweep f (l.flatMap fun i => m.map (g i)) c := by
  induction l generalizing c with
  | nil => rfl
  | cons i l ih =>
    rw [List.foldl_cons, ih, List.flatMap_cons]
    unfold sweep
    rw [List.foldl_append, List.foldl_map]

/-- A loop that rewrites one cell again and again leaves there what it would leave in a
variable. -/
theorem foldl_update_eq {μ : Type*} (g : α → μ → α) (x : ι) (l : List μ) (c : ι → α) :
    l.foldl (fun c k => Function.update c x (g (c x) k)) c =
      Function.update c x (l.foldl g (c x)) := by
  induction l generalizing c with
  | nil => exact (Function.update_eq_self x c).symm
  | cons k l ih =>
    rw [List.foldl_cons, ih, Function.update_self, Function.update_idem, List.foldl_cons]

end Sweep
end RecoNIC
