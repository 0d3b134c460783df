import Mathlib.Algebra.Ring.Nat
import Mathlib.Logic.Function.Basic

/-!
# A block RAM with two ports

The RAM of `dp_bram.sv`.  Each port reads or writes one address in a cycle, and its
output register takes what the address held before the edge, also when the port
writes.  The two ports are two processes that assign to one array.  When both write
one address at one edge the order of the assignments is not determined, so it is an
argument of `step`.
-/

namespace RecoNIC
namespace Synchronous

universe u v

/-- What a port does in a cycle. -/
structure Access (κ : Type u) (α : Type v) where
  en : Bool
  we : Bool
  addr : κ
  di : α

/-- The array and the two output registers. -/
structure Bram (κ : Type u) (α : Type v) where
  ram : κ → α
  douta : α
  doutb : α

variable {κ : Type u} {α : Type v} [DecidableEq κ]

/-- The access writes the address `k`. -/
def Access.writes (p : Access κ α) (k : κ) : Bool := p.en && p.we && decide (p.addr = k)

/-- The array after the access. -/
def Access.apply (p : Access κ α) (ram : κ → α) : κ → α :=
  fun k => if p.writes k then p.di else ram k

namespace Bram

/-- After reset, over any contents. -/
def reset (ram : κ → α) (zero : α) : Bram κ α := ⟨ram, zero, zero⟩

/-- One clock edge; `bLast` says which of two writes to one address stays. -/
def step (m : Bram κ α) (a b : Access κ α) (bLast : Bool) : Bram κ α where
  ram := if bLast then b.apply (a.apply m.ram) else a.apply (b.apply m.ram)
  douta := if a.en then m.ram a.addr else m.douta
  doutb := if b.en then m.ram b.addr else m.doutb

variable (m : Bram κ α) {a b : Access κ α} {k : κ} (bLast : Bool)

theorem ram_step_of_not_writes (ha : a.writes k = false) (hb : b.writes k = false) :
    (m.step a b bLast).ram k = m.ram k := by
  unfold step
  cases bLast <;> simp [Access.apply, ha, hb]

theorem ram_step_of_writes_a (ha : a.writes k = true) (hb : b.writes k = false) :
    (m.step a b bLast).ram k = a.di := by
  unfold step
  cases bLast <;> simp [Access.apply, ha, hb]

theorem ram_step_of_writes_b (ha : a.writes k = false) (hb : b.writes k = true) :
    (m.step a b bLast).ram k = b.di := by
  unfold step
  cases bLast <;> simp [Access.apply, ha, hb]

theorem ram_step_of_writes_both (ha : a.writes k = true) (hb : b.writes k = true) :
    (m.step a b bLast).ram k = if bLast then b.di else a.di := by
  unfold step
  cases bLast <;> simp [Access.apply, ha, hb]

end Bram

end Synchronous
end RecoNIC
