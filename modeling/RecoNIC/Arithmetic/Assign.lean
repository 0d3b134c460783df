import Mathlib.Data.List.Basic
import Mathlib.Data.List.Induction
import Mathlib.Logic.Function.Basic

/-!
# Assignments

A list of assignments to places, made one after the other.  A place holds the value that it was
assigned last, or what it held before (`assign_apply`).  Assignments to a part of the places, such
as a row of a table, are assignments to that part (`assign_map_apply`) and to nothing else
(`assign_map_of_forall_ne`).
-/

namespace RecoNIC
namespace Assign

variable {κ α : Type*} [DecidableEq κ]

/-- The places after the assignments. -/
def assign (f : κ → α) (ws : List (κ × α)) : κ → α :=
  ws.foldl (fun f w => Function.update f w.1 w.2) f

/-- The value that a place is assigned last. -/
def lastOf (ws : List (κ × α)) (x : κ) : Option α :=
  ws.foldl (fun v w => if x = w.1 then some w.2 else v) none

variable (f : κ → α) (ws ws' : List (κ × α)) (w : κ × α) (x : κ)

@[simp] theorem assign_nil : assign f [] = f := rfl

@[simp] theorem assign_cons : assign f (w :: ws) = assign (Function.update f w.1 w.2) ws := rfl

theorem assign_append : assign f (ws ++ ws') = assign (assign f ws) ws' := List.foldl_append ..

theorem assign_concat : assign f (ws ++ [w]) = Function.update (assign f ws) w.1 w.2 :=
  assign_append ..

@[simp] theorem lastOf_nil : lastOf ([] : List (κ × α)) x = none := rfl

theorem lastOf_concat : lastOf (ws ++ [w]) x = if x = w.1 then some w.2 else lastOf ws x :=
  List.foldl_append ..

/-- **The last assignment counts.** -/
theorem assign_apply : assign f ws x = (lastOf ws x).getD (f x) := by
  induction ws using List.reverseRecOn with
  | nil => rfl
  | append_singleton ws w ih =>
    rw [assign_concat, lastOf_concat, Function.update_apply, ih]
    split_ifs <;> rfl

theorem lastOf_eq_none (h : x ∉ ws.map Prod.fst) : lastOf ws x = none := by
  induction ws using List.reverseRecOn with
  | nil => rfl
  | append_singleton ws w ih =>
    rw [List.map_append, List.mem_append, not_or] at h
    rw [lastOf_concat, if_neg (by simpa using h.2), ih h.1]

/-- A place that no assignment names. -/
theorem assign_of_not_mem (h : x ∉ ws.map Prod.fst) : assign f ws x = f x := by
  rw [assign_apply, lastOf_eq_none ws x h]
  rfl

/-- One value for several places. -/
theorem assign_map_const (xs : List κ) (v : α) :
    assign f (xs.map fun y => (y, v)) x = if x ∈ xs then v else f x := by
  induction xs generalizing f with
  | nil => rfl
  | cons y xs ih =>
    rw [List.map_cons, assign_cons, ih, Function.update_apply]
    by_cases hmem : x ∈ xs <;> by_cases hy : x = y <;> simp [hmem, hy]

section Part

variable {ι : Type*} [DecidableEq ι] {g : ι → κ}

/-- Assignments to a part of the places. -/
theorem assign_map_apply (hg : Function.Injective g) (us : List (ι × α)) (i : ι) :
    assign f (us.map fun u => (g u.1, u.2)) (g i) = assign (fun i => f (g i)) us i := by
  induction us generalizing f with
  | nil => rfl
  | cons u us ih =>
    have hpart : (fun i => Function.update f (g u.1) u.2 (g i)) =
        Function.update (fun i => f (g i)) u.1 u.2 := by
      funext j
      simp only [Function.update_apply, hg.eq_iff]
    rw [List.map_cons, assign_cons, ih, assign_cons, hpart]

omit [DecidableEq ι] in
/-- The other places. -/
theorem assign_map_of_forall_ne (us : List (ι × α)) (h : ∀ i, x ≠ g i) :
    assign f (us.map fun u => (g u.1, u.2)) x = f x := by
  refine assign_of_not_mem f _ x ?_
  rw [List.map_map, List.mem_map]
  rintro ⟨u, -, hu⟩
  exact h u.1 hu.symm

end Part

end Assign
end RecoNIC
