import RecoNIC.Synchronous.Machine

/-!
# What enters, what leaves, and what is inside

A machine takes entries in and gives entries out.  `traffic` writes down both, in order, and
`Conserves` says that nothing is lost, doubled or overtaken: what has entered is what has
left, followed by what is inside.

This is decided cycle by cycle.  `conserves_iff_guarded` is the exact form: a run conserves
its entries **iff** each of its cycles does.
-/

namespace RecoNIC
namespace Synchronous

universe u v w

/-- What has entered and what has left, the oldest first. -/
structure Traffic (α : Type w) where
  entered : List α
  left : List α

namespace Machine

variable {σ : Type u} {ι : Type v} {α : Type w} (M : Machine σ ι)
variable (inside : σ → List α) (enters leaves : σ → ι → List α)

/-- The machine with the list of its entries. -/
def traffic : Machine (σ × Traffic α) ι :=
  M.watch ⟨[], []⟩ fun t s i => ⟨t.entered ++ enters s i, t.left ++ leaves s i⟩

/-- Every entry has left, or is inside. -/
def Conserves (x : σ × Traffic α) : Prop := x.2.entered = x.2.left ++ inside x.1

instance [DecidableEq α] (x : σ × Traffic α) : Decidable (Conserves inside x) :=
  inferInstanceAs (Decidable (_ = _))

/-- A cycle in which no entry is lost or made up. -/
def Balanced (s : σ) (i : ι) : Prop :=
  inside s ++ enters s i = leaves s i ++ inside (M.step s i)

variable {M inside enters leaves}

/-- One cycle conserves what was conserved before it iff it is balanced. -/
theorem conserves_step_iff {x : σ × Traffic α} {i : ι} (h : Conserves inside x) :
    Conserves inside ((M.traffic enters leaves).step x i) ↔
      M.Balanced inside enters leaves x.1 i := by
  show x.2.entered ++ enters x.1 i = x.2.left ++ leaves x.1 i ++ inside (M.step x.1 i) ↔ _
  rw [show x.2.entered = _ from h, List.append_assoc, List.append_assoc, List.append_cancel_left_eq]
  rfl

/-- A condition on the machine does not see the ledger. -/
theorem guarded_watch {η : Type*} {h₀ : η} {note : η → σ → ι → η} {ok : σ → ι → Prop}
    {x : σ × η} {is : List ι} :
    (M.watch h₀ note).Guarded (fun x i => ok x.1 i) x is ↔ M.Guarded ok x.1 is := by
  induction is generalizing x with
  | nil => exact Iff.rfl
  | cons i is ih => exact and_congr Iff.rfl ih

/-- **The exact rule of conservation.**  A run that begins with nothing inside conserves its
entries iff all its cycles are balanced. -/
theorem conserves_iff_guarded (hreset : inside M.reset = []) (is : List ι) :
    (M.traffic enters leaves).Always (Conserves inside) (M.traffic enters leaves).reset is ↔
      M.Guarded (M.Balanced inside enters leaves) M.reset is := by
  have hstart : Conserves inside (M.traffic enters leaves).reset := by
    show [] = [] ++ inside M.reset
    rw [hreset]
    rfl
  have hexact : (M.traffic enters leaves).Always (Conserves inside)
      (M.traffic enters leaves).reset is ↔
      (M.traffic enters leaves).Guarded (fun x i => M.Balanced inside enters leaves x.1 i)
        (M.traffic enters leaves).reset is :=
    always_iff_guarded (fun x (h : Conserves inside x) => h)
      (fun x i h _ hok => (conserves_step_iff h).mpr hok)
      (fun x i h _ hno => mt (conserves_step_iff h).mp hno) hstart (guarded_true _ _)
  exact hexact.trans guarded_watch

end Machine
end Synchronous
end RecoNIC
