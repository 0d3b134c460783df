import RecoNIC.Synchronous.Machine

/-!
# One machine in step with another

Two machines that read the same inputs are compared by a relation between their states.
`Simulates` asks that the relation holds after reset, that a clock edge keeps it, and that
related states give out the same in each cycle.  Then the two agree on all they give out
(`Simulates.emitted_eq`) and are related after every run (`Simulates.run`).
-/

namespace RecoNIC
namespace Synchronous

universe u v w x

namespace Machine

variable {σ : Type u} {τ : Type v} {ι : Type w} {β : Type x}

/-- What a machine gives out in the cycles `is`, in order. -/
def emitted (M : Machine σ ι) (out : σ → ι → List β) : σ → List ι → List β
  | _, [] => []
  | s, i :: is => out s i ++ M.emitted out (M.step s i) is

@[simp] theorem emitted_nil (M : Machine σ ι) (out : σ → ι → List β) (s : σ) :
    M.emitted out s [] = [] := rfl

@[simp] theorem emitted_cons (M : Machine σ ι) (out : σ → ι → List β) (s : σ) (i : ι)
    (is : List ι) :
    M.emitted out s (i :: is) = out s i ++ M.emitted out (M.step s i) is := rfl

/-- **A simulation.**  `R` holds after reset and is kept by every clock edge, and states
related by `R` give out the same. -/
structure Simulates (M : Machine σ ι) (N : Machine τ ι) (outM : σ → ι → List β)
    (outN : τ → ι → List β) (R : σ → τ → Prop) : Prop where
  reset : R M.reset N.reset
  step : ∀ s t, R s t → ∀ i, R (M.step s i) (N.step t i)
  out : ∀ s t, R s t → ∀ i, outM s i = outN t i

namespace Simulates

variable {M : Machine σ ι} {N : Machine τ ι} {outM : σ → ι → List β} {outN : τ → ι → List β}
variable {R : σ → τ → Prop}

theorem runFrom (h : M.Simulates N outM outN R) {s : σ} {t : τ} (hst : R s t) (is : List ι) :
    R (M.runFrom s is) (N.runFrom t is) := by
  induction is generalizing s t with
  | nil => exact hst
  | cons i is ih => exact ih (h.step s t hst i)

/-- The states reached by the same inputs are related. -/
theorem run (h : M.Simulates N outM outN R) (is : List ι) : R (M.run is) (N.run is) :=
  h.runFrom h.reset is

/-- Related states give out the same along every run. -/
theorem emitted_eq (h : M.Simulates N outM outN R) {s : σ} {t : τ} (hst : R s t)
    (is : List ι) : M.emitted outM s is = N.emitted outN t is := by
  induction is generalizing s t with
  | nil => rfl
  | cons i is ih =>
    rw [emitted_cons, emitted_cons, h.out s t hst i]
    congr 1
    exact ih (h.step s t hst i)

end Simulates
end Machine
end Synchronous
end RecoNIC
