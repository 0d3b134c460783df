import Mathlib.Algebra.Ring.Nat
import Mathlib.Data.List.Infix
import Mathlib.Data.Nat.Find
import Mathlib.Order.RelClasses

/-!
# Synchronous machines and their runs

A clocked design is a reset state and a function from a state and the inputs of
one cycle to the state after the clock edge.  A run is a list of input cycles.
Two kinds of statement are made about runs:

* `Guarded ok s is` --- every cycle of the run `is` out of `s` satisfies `ok`,
  which may look at the state before the edge and at the inputs of the cycle;
* `Always P s is` --- every state the run visits, the first and the last
  included, satisfies `P`.

`always_of_guarded` is the invariant rule: what is preserved by every permitted
cycle holds along every permitted run.  `always_iff_guarded` is its exact form.
When the property is lost at once by each cycle that is not permitted, a run
keeps the property **iff** all its cycles are permitted.

`watch` attaches a ledger to a machine.  The ledger records what happened and
never influences the machine, so a property of histories becomes a property of
states.
-/

namespace RecoNIC
namespace Synchronous

universe u v w

/-- A synchronous machine: the state after reset, and the state after one clock
edge. -/
structure Machine (σ : Type u) (ι : Type v) where
  /-- The state after reset. -/
  reset : σ
  /-- One clock edge. -/
  step : σ → ι → σ

namespace Machine

variable {σ : Type u} {ι : Type v} {η : Type w} (M : Machine σ ι)

/-! ## Runs -/

/-- The state after the cycles `is`, started in `s`. -/
def runFrom (s : σ) (is : List ι) : σ := is.foldl M.step s

/-- The state after the cycles `is`, started at reset. -/
def run (is : List ι) : σ := M.runFrom M.reset is

@[simp] theorem runFrom_nil (s : σ) : M.runFrom s [] = s := rfl

@[simp] theorem runFrom_cons (s : σ) (i : ι) (is : List ι) :
    M.runFrom s (i :: is) = M.runFrom (M.step s i) is := rfl

theorem runFrom_append (s : σ) (is js : List ι) :
    M.runFrom s (is ++ js) = M.runFrom (M.runFrom s is) js :=
  List.foldl_append ..

/-- A state that no cycle of the run changes. -/
theorem runFrom_eq_self {s : σ} {is : List ι} (h : ∀ i ∈ is, M.step s i = s) :
    M.runFrom s is = s := by
  induction is with
  | nil => rfl
  | cons i is ih =>
    rw [runFrom_cons, h i List.mem_cons_self]
    exact ih fun j hj => h j (List.mem_cons_of_mem _ hj)

/-- Every cycle of the run satisfies `ok`. -/
def Guarded (ok : σ → ι → Prop) : σ → List ι → Prop
  | _, [] => True
  | s, i :: is => ok s i ∧ Guarded ok (M.step s i) is

/-- Every state the run visits satisfies `P`. -/
def Always (P : σ → Prop) : σ → List ι → Prop
  | s, [] => P s
  | s, i :: is => P s ∧ Always P (M.step s i) is

instance decidableGuarded (ok : σ → ι → Prop) [∀ s i, Decidable (ok s i)] :
    ∀ (s : σ) (is : List ι), Decidable (M.Guarded ok s is)
  | _, [] => isTrue trivial
  | s, i :: is =>
    have := decidableGuarded ok (M.step s i) is
    inferInstanceAs (Decidable (_ ∧ _))

instance decidableAlways (P : σ → Prop) [∀ s, Decidable (P s)] :
    ∀ (s : σ) (is : List ι), Decidable (M.Always P s is)
  | s, [] => inferInstanceAs (Decidable (P s))
  | s, i :: is =>
    have := decidableAlways P (M.step s i) is
    inferInstanceAs (Decidable (_ ∧ _))

variable {M}
variable {P Q : σ → Prop} {ok ok' : σ → ι → Prop} {s : σ} {is : List ι}

/-- The property holds where the run starts. -/
theorem Always.head (h : M.Always P s is) : P s := by
  cases is with
  | nil => exact h
  | cons i is => exact h.1

/-- `Always` speaks of the states after each prefix of the run. -/
theorem always_iff_forall_initial :
    M.Always P s is ↔ ∀ js, js <+: is → P (M.runFrom s js) := by
  induction is generalizing s with
  | nil =>
    constructor
    · intro h js hjs
      rw [List.prefix_nil.mp hjs]
      exact h
    · intro h
      exact h [] (List.prefix_refl _)
  | cons i is ih =>
    constructor
    · rintro ⟨hs, hrest⟩ js hjs
      cases js with
      | nil => exact hs
      | cons j js =>
        obtain ⟨rfl, hjs'⟩ := List.cons_prefix_cons.mp hjs
        exact ih.mp hrest js hjs'
    · intro h
      refine ⟨h [] (List.nil_prefix), ih.mpr fun js hjs => ?_⟩
      exact h (i :: js) (List.cons_prefix_cons.mpr ⟨rfl, hjs⟩)

/-- The property holds where the run ends. -/
theorem Always.last (h : M.Always P s is) : P (M.runFrom s is) :=
  always_iff_forall_initial.mp h is (List.prefix_refl _)

theorem Always.mono (hPQ : ∀ s, P s → Q s) (h : M.Always P s is) : M.Always Q s is :=
  always_iff_forall_initial.mpr fun js hjs => hPQ _ (always_iff_forall_initial.mp h js hjs)

/-- A property that no cycle brings about: it holds in each state when it holds in the last. -/
theorem always_of_last (hstep : ∀ s i, P (M.step s i) → P s) (h : P (M.runFrom s is)) :
    M.Always P s is := by
  induction is generalizing s with
  | nil => exact h
  | cons i is ih =>
    have hrest := ih h
    exact ⟨hstep s i hrest.head, hrest⟩

/-- What holds in each state holds before each cycle. -/
theorem Always.guarded (h : M.Always P s is) : M.Guarded (fun s _ => P s) s is := by
  induction is generalizing s with
  | nil => trivial
  | cons i is ih => exact ⟨h.1, ih h.2⟩

/-- A family of properties, each of which holds in every state. -/
theorem always_forall {κ : Type*} {P : κ → σ → Prop} (h : ∀ x, M.Always (P x) s is) :
    M.Always (fun s => ∀ x, P x s) s is :=
  always_iff_forall_initial.mpr fun js hjs x => always_iff_forall_initial.mp (h x) js hjs

theorem Guarded.mono (h : ∀ s i, ok s i → ok' s i) (hg : M.Guarded ok s is) :
    M.Guarded ok' s is := by
  induction is generalizing s with
  | nil => trivial
  | cons i is ih => exact ⟨h s i hg.1, ih hg.2⟩

theorem Guarded.and (h : M.Guarded ok s is) (h' : M.Guarded ok' s is) :
    M.Guarded (fun s i => ok s i ∧ ok' s i) s is := by
  induction is generalizing s with
  | nil => trivial
  | cons i is ih => exact ⟨⟨h.1, h'.1⟩, ih h.2 h'.2⟩

theorem guarded_append {js : List ι} :
    M.Guarded ok s (is ++ js) ↔ M.Guarded ok s is ∧ M.Guarded ok (M.runFrom s is) js := by
  induction is generalizing s with
  | nil => exact ⟨fun h => ⟨trivial, h⟩, fun h => h.2⟩
  | cons i is ih =>
    rw [List.cons_append]
    exact ⟨fun h => ⟨⟨h.1, (ih.mp h.2).1⟩, (ih.mp h.2).2⟩,
      fun h => ⟨h.1.1, ih.mpr ⟨h.1.2, h.2⟩⟩⟩

theorem guarded_toList {o : Option ι} : M.Guarded ok s o.toList ↔ ∀ i ∈ o, ok s i := by
  cases o <;> simp [Guarded]

/-- Every run satisfies the empty condition. -/
theorem guarded_true (s : σ) (is : List ι) : M.Guarded (fun _ _ => True) s is := by
  induction is generalizing s with
  | nil => trivial
  | cons i is ih => exact ⟨trivial, ih _⟩

/-! ## The two rules -/

/-- **The invariant rule.**  What every permitted cycle preserves holds along
every permitted run. -/
theorem always_of_guarded (hstep : ∀ s i, P s → ok s i → P (M.step s i)) (hs : P s)
    (hg : M.Guarded ok s is) : M.Always P s is := by
  induction is generalizing s with
  | nil => exact hs
  | cons i is ih => exact ⟨hs, ih (hstep s i hs hg.1) hg.2⟩

/-- The invariant rule without a condition on the cycles. -/
theorem always_of_step (hstep : ∀ s i, P s → P (M.step s i)) (hs : P s) (is : List ι) :
    M.Always P s is := by
  induction is generalizing s with
  | nil => exact hs
  | cons i is ih => exact ⟨hs, ih (hstep s i hs)⟩

/-- The invariant rule for runs that are known to keep `Q`. -/
theorem always_of_always (hstep : ∀ s i, P s → Q s → P (M.step s i)) (hs : P s)
    (hQ : M.Always Q s is) : M.Always P s is := by
  induction is generalizing s with
  | nil => exact hs
  | cons i is ih => exact ⟨hs, ih (hstep s i hs hQ.1) hQ.2⟩

/-- **The exact rule.**  `Inv` is preserved by the permitted cycles `ok` and
gives the property, and a cycle that is not permitted loses the property at
once.  Then a run of the environment `env` keeps the property iff all its cycles
are permitted. -/
theorem always_iff_guarded {Inv : σ → Prop} {env : σ → ι → Prop}
    (hInv : ∀ s, Inv s → P s)
    (hstep : ∀ s i, Inv s → env s i → ok s i → Inv (M.step s i))
    (hlost : ∀ s i, Inv s → env s i → ¬ ok s i → ¬ P (M.step s i))
    (hs : Inv s) (henv : M.Guarded env s is) :
    M.Always P s is ↔ M.Guarded ok s is := by
  induction is generalizing s with
  | nil => exact ⟨fun _ => trivial, fun _ => hInv s hs⟩
  | cons i is ih =>
    constructor
    · rintro ⟨_, hrest⟩
      have hok : ok s i := by
        by_contra hno
        exact hlost s i hs henv.1 hno hrest.head
      exact ⟨hok, (ih (hstep s i hs henv.1 hok) henv.2).mp hrest⟩
    · rintro ⟨hok, hrest⟩
      exact ⟨hInv s hs, (ih (hstep s i hs henv.1 hok) henv.2).mpr hrest⟩

/-- Two conditions on the cycles that mean the same under an invariant permit the same runs. -/
theorem guarded_iff_guarded {Inv : σ → Prop} {env : σ → ι → Prop}
    (hiff : ∀ s i, Inv s → env s i → (ok s i ↔ ok' s i))
    (hstep : ∀ s i, Inv s → env s i → ok' s i → Inv (M.step s i))
    (hs : Inv s) (henv : M.Guarded env s is) :
    M.Guarded ok s is ↔ M.Guarded ok' s is := by
  induction is generalizing s with
  | nil => exact Iff.rfl
  | cons i is ih =>
    have hnow := hiff s i hs henv.1
    constructor
    · rintro ⟨hok, hrest⟩
      have hok' := hnow.mp hok
      exact ⟨hok', (ih (hstep s i hs henv.1 hok') henv.2).mp hrest⟩
    · rintro ⟨hok', hrest⟩
      exact ⟨hnow.mpr hok', (ih (hstep s i hs henv.1 hok') henv.2).mpr hrest⟩

/-- **The progress rule.**  A measure that gets smaller in each cycle that is not yet at
the goal. -/
theorem exists_runFrom_of_measure {μ : Type*} [LT μ] [WellFoundedLT μ] (m : σ → μ)
    {Inv G : σ → Prop} {env : ι → Prop}
    (hstep : ∀ s i, Inv s → env i → Inv (M.step s i))
    (hless : ∀ s i, Inv s → env i → ¬ G s → m (M.step s i) < m s)
    (hs : Inv s) (q : Nat → ι) (hq : ∀ t, env (q t)) :
    ∃ n, G (M.runFrom s ((List.range n).map q)) := by
  induction hm : m s using WellFoundedLT.induction generalizing s q with
  | ind x ih =>
    by_cases hgoal : G s
    · exact ⟨0, hgoal⟩
    · have hlt : m (M.step s (q 0)) < x := hm ▸ hless s (q 0) hs (hq 0) hgoal
      obtain ⟨n, hn⟩ :=
        ih _ hlt (hstep s (q 0) hs (hq 0)) (fun t => q (t + 1)) (fun t => hq (t + 1)) rfl
      refine ⟨n + 1, ?_⟩
      rw [List.range_succ_eq_map, List.map_cons, runFrom_cons, List.map_map]
      exact hn

/-- **The fair progress rule.**  A state that has not reached the goal awaits a certain kind
of cycle.  Any other cycle leaves it as it is, and one of this kind brings it nearer. -/
theorem exists_runFrom_of_fair {μ : Type*} [LT μ] [WellFoundedLT μ] (m : σ → μ)
    (Inv G : σ → Prop) (awaits : σ → ι → Prop)
    (hstay : ∀ s i, Inv s → ¬ awaits s i → M.step s i = s)
    (hless : ∀ s i, Inv s → awaits s i →
      G (M.step s i) ∨ Inv (M.step s i) ∧ m (M.step s i) < m s)
    (hs : Inv s) (q : ℕ → ι) (hfair : ∀ s, Inv s → ∀ n, ∃ k, n ≤ k ∧ awaits s (q k)) :
    ∃ n, G (M.runFrom s ((List.range n).map q)) := by
  induction hm : m s using WellFoundedLT.induction generalizing s q with
  | ind x ih =>
    classical
    -- the first awaited cycle
    obtain ⟨k, hk, hfirst⟩ : ∃ k, awaits s (q k) ∧ ∀ j < k, ¬ awaits s (q j) := by
      have hex : ∃ k, awaits s (q k) := by
        obtain ⟨k, -, hk⟩ := hfair s hs 0
        exact ⟨k, hk⟩
      exact ⟨Nat.find hex, Nat.find_spec hex, fun j hj => Nat.find_min hex hj⟩
    have hwait : M.runFrom s ((List.range k).map q) = s := by
      refine M.runFrom_eq_self fun i hi => ?_
      obtain ⟨j, hj, rfl⟩ := List.mem_map.mp hi
      exact hstay s (q j) hs (hfirst j (List.mem_range.mp hj))
    have hsplit (n : ℕ) : M.runFrom s ((List.range (k + 1 + n)).map q) =
        M.runFrom (M.step s (q k)) ((List.range n).map fun t => q (k + 1 + t)) := by
      rw [List.range_add, List.range_succ, List.map_append, List.map_append, runFrom_append,
        runFrom_append, hwait, List.map_map]
      rfl
    rcases hless s (q k) hs hk with hgoal | ⟨hinv, hlt⟩
    · exact ⟨k + 1 + 0, by rw [hsplit]; exact hgoal⟩
    · have hfair' (s : σ) (h : Inv s) (n : ℕ) : ∃ t, n ≤ t ∧ awaits s (q (k + 1 + t)) := by
        obtain ⟨t, ht, hawait⟩ := hfair s h (k + 1 + n)
        exact ⟨t - (k + 1), by omega, by rwa [Nat.add_sub_cancel' (by omega)]⟩
      obtain ⟨n, hn⟩ := ih _ (hm ▸ hlt) hinv (fun t => q (k + 1 + t)) hfair' rfl
      exact ⟨k + 1 + n, by rw [hsplit]; exact hn⟩

/-! ## Ledgers -/

/-- The machine with a ledger: `note` writes down what happens in a cycle, from
the state before the edge and the inputs. -/
def watch (M : Machine σ ι) (h₀ : η) (note : η → σ → ι → η) : Machine (σ × η) ι where
  reset := (M.reset, h₀)
  step := fun s i => (M.step s.1 i, note s.2 s.1 i)

variable {h₀ : η} {note : η → σ → ι → η}

@[simp] theorem watch_reset : (M.watch h₀ note).reset = (M.reset, h₀) := rfl

@[simp] theorem watch_step (s : σ × η) (i : ι) :
    (M.watch h₀ note).step s i = (M.step s.1 i, note s.2 s.1 i) := rfl

/-- The ledger does not influence the machine. -/
theorem fst_runFrom_watch (s : σ × η) (is : List ι) :
    ((M.watch h₀ note).runFrom s is).1 = M.runFrom s.1 is := by
  induction is generalizing s with
  | nil => rfl
  | cons i is ih => exact ih _

end Machine
end Synchronous
end RecoNIC
