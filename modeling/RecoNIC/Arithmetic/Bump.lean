import Mathlib.Data.List.Basic
import Mathlib.Data.List.Pairwise

/-!
# Bump allocation on pages

A pool of memory is a cursor that only moves forward.  A request for `n` bytes gets the bytes
at the cursor, unless they would leave the page that the cursor stands in (`n` is at most a
page) or begin inside a page (`n` is more than a page); then the cursor first moves to the
next page.

`Pool` carries what makes this an allocator: the regions handed out lie one behind the other,
in front of the cursor, and respect the pages.
-/

namespace RecoNIC
namespace Bump

/-- Where `n` bytes are placed when the cursor is at `o` and a page has `p` bytes. -/
def place (p o n : Nat) : Nat :=
  if n ≤ p then if p < o % p + n then (o / p + 1) * p else o
  else if o % p ≠ 0 then (o / p + 1) * p else o

section Place

variable {p o n : Nat}

theorem le_nextPage (hp : 0 < p) : o ≤ (o / p + 1) * p := by
  have hdiv := Nat.div_add_mod' o p
  have hmod := Nat.mod_lt o hp
  rw [Nat.add_mul, Nat.one_mul]
  omega

theorem le_place (hp : 0 < p) : o ≤ place p o n := by
  unfold place
  split_ifs
  · exact le_nextPage hp
  · exact Nat.le_refl o
  · exact le_nextPage hp
  · exact Nat.le_refl o

end Place

/-- A range of `size` bytes. -/
structure Region where
  start : Nat
  size : Nat

/-- The region stays in one page, or begins with one. -/
def Region.Paged (p : Nat) (r : Region) : Prop :=
  (r.size ≤ p → r.start % p + r.size ≤ p) ∧ (p < r.size → r.start % p = 0)

/-- One region ends before the other begins. -/
def Region.Before (r s : Region) : Prop := r.start + r.size ≤ s.start

theorem paged_place {p : Nat} (o n : Nat) : (Region.mk (place p o n) n).Paged p := by
  constructor
  · intro (hn : n ≤ p)
    show place p o n % p + n ≤ p
    rw [place, if_pos hn]
    split_ifs with hcross
    · rw [Nat.mul_mod_left]
      omega
    · omega
  · intro (hn : p < n)
    show place p o n % p = 0
    rw [place, if_neg (Nat.not_le.mpr hn)]
    split_ifs with hin
    · exact Nat.mul_mod_left ..
    · omega

/-- A pool: the cursor and the regions handed out. -/
structure Pool (p : Nat) where
  cursor : Nat
  regions : List Region
  below : ∀ r ∈ regions, r.start + r.size ≤ cursor
  ordered : regions.Pairwise Region.Before
  paged : ∀ r ∈ regions, r.Paged p

namespace Pool

variable {p : Nat}

/-- A pool that has handed out nothing. -/
def new (p cursor : Nat) : Pool p where
  cursor := cursor
  regions := []
  below := by simp
  ordered := List.Pairwise.nil
  paged := by simp

/-- Hand out `n` bytes. -/
def put (hp : 0 < p) (P : Pool p) (n : Nat) : Pool p where
  cursor := place p P.cursor n + n
  regions := P.regions ++ [⟨place p P.cursor n, n⟩]
  below := by
    intro r hr
    rcases List.mem_append.mp hr with hold | hnew
    · have hbelow := P.below r hold
      have hle : P.cursor ≤ place p P.cursor n := le_place hp
      omega
    · obtain rfl := List.mem_singleton.mp hnew
      exact Nat.le_refl _
  ordered := by
    refine List.pairwise_append.mpr ⟨P.ordered, List.pairwise_singleton .., fun r hr s hs => ?_⟩
    rw [List.mem_singleton.mp hs]
    exact Nat.le_trans (P.below r hr) (le_place hp)
  paged := by
    intro r hr
    rcases List.mem_append.mp hr with hold | hnew
    · exact P.paged r hold
    · rw [List.mem_singleton.mp hnew]
      exact paged_place P.cursor n

/-- The cursor does not move back. -/
theorem cursor_le_put (hp : 0 < p) (P : Pool p) (n : Nat) :
    P.cursor ≤ (P.put hp n).cursor :=
  Nat.le_trans (le_place hp) (Nat.le_add_right _ _)

end Pool
end Bump
end RecoNIC
