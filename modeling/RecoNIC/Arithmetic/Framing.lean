import Mathlib.Data.List.Basic
import Mathlib.Data.List.Infix

/-!
# Packets on a stream of beats

A stream carries packets one after the other, and marks the last beat of each.  Whoever
listens cuts the stream behind the marked beats: `packets` are those that have come to their
end, `rest` is what has come of the next one.

Cutting undoes laying end to end (`packets_flatten`), and does not depend on what comes
later (`packets_mono`).  So a listener that has heard a part of a stream has heard the first
packets of it, whole (`packets_of_isPrefix`).
-/

namespace RecoNIC
namespace Framing

variable {α β : Type*} (last : α → Bool)

/-- A packet: its last beat is marked, and no other. -/
def Ends (p : List α) : Prop :=
  ∃ body b, p = body ++ [b] ∧ last b = true ∧ ∀ a ∈ body, last a = false

/-! ## Cutting -/

/-- One beat more. -/
def extend (s : List (List α) × List α) (b : α) : List (List α) × List α :=
  if last b then (s.1 ++ [s.2 ++ [b]], []) else (s.1, s.2 ++ [b])

/-- The packets of a stream, and what has come of the next one. -/
def cut (bs : List α) : List (List α) × List α := bs.foldl (extend last) ([], [])

/-- The packets that have come to their end. -/
def packets (bs : List α) : List (List α) := (cut last bs).1

/-- What has come of the packet that has not. -/
def rest (bs : List α) : List α := (cut last bs).2

variable {last}

theorem cut_concat (bs : List α) (b : α) : cut last (bs ++ [b]) = extend last (cut last bs) b :=
  List.foldl_concat ..

/-- The beats of a packet that has not come to its end have no mark. -/
theorem unmarked_rest (bs : List α) : ∀ b ∈ rest last bs, last b = false := by
  induction bs using List.reverseRecOn with
  | nil => exact fun b hb => absurd hb List.not_mem_nil
  | append_singleton bs b ih =>
    intro a ha
    rw [rest, cut_concat, extend] at ha
    by_cases h : last b = true
    · rw [if_pos h] at ha
      exact absurd ha List.not_mem_nil
    · rw [if_neg h] at ha
      rcases List.mem_append.mp ha with ha | ha
      · exact ih a ha
      · rw [List.mem_singleton.mp ha]
        simpa using h

/-- Only the marks matter. -/
theorem Ends.of_map_eq {last' : β → Bool} {p : List α} {q : List β}
    (hmap : q.map last' = p.map last) (h : Ends last p) : Ends last' q := by
  obtain ⟨body, b, rfl, hb, hbody⟩ := h
  rw [List.map_append] at hmap
  obtain ⟨body', tail, rfl, hbody', htail⟩ := List.map_eq_append_iff.mp hmap
  obtain ⟨b', rfl, hb'⟩ := List.map_eq_singleton_iff.mp htail
  refine ⟨body', b', rfl, hb'.trans hb, fun a ha => ?_⟩
  have hmem : last' a ∈ body.map last := hbody' ▸ List.mem_map_of_mem ha
  obtain ⟨c, hc, hca⟩ := List.mem_map.mp hmem
  exact hca.symm.trans (hbody c hc)

/-- Beats without a mark. -/
theorem foldl_extend_of_unmarked {bs : List α} (h : ∀ b ∈ bs, last b = false)
    (s : List (List α) × List α) : bs.foldl (extend last) s = (s.1, s.2 ++ bs) := by
  induction bs generalizing s with
  | nil => simp
  | cons b bs ih =>
    have hb : extend last s b = (s.1, s.2 ++ [b]) := by
      rw [extend, h b List.mem_cons_self]
      rfl
    rw [List.foldl_cons, hb, ih fun a ha => h a (List.mem_cons_of_mem _ ha)]
    simp

/-- A packet, when nothing has come of it before. -/
theorem foldl_extend_of_ends {p : List α} (h : Ends last p) (ps : List (List α)) :
    p.foldl (extend last) (ps, []) = (ps ++ [p], []) := by
  obtain ⟨body, b, rfl, hb, hbody⟩ := h
  rw [List.foldl_concat, foldl_extend_of_unmarked hbody, extend, hb]
  rfl

theorem foldl_extend_flatten {ps : List (List α)} (h : ∀ p ∈ ps, Ends last p)
    (qs : List (List α)) : ps.flatten.foldl (extend last) (qs, []) = (qs ++ ps, []) := by
  induction ps generalizing qs with
  | nil => simp
  | cons p ps ih =>
    rw [List.flatten_cons, List.foldl_append, foldl_extend_of_ends (h p List.mem_cons_self),
      ih fun q hq => h q (List.mem_cons_of_mem _ hq)]
    simp

/-- **Cutting undoes laying end to end**, and does not see a packet that has not come to its
end. -/
theorem packets_flatten {ps : List (List α)} (h : ∀ p ∈ ps, Ends last p) {bs : List α}
    (hbs : ∀ b ∈ bs, last b = false) : packets last (ps.flatten ++ bs) = ps := by
  rw [packets, cut, List.foldl_append, foldl_extend_flatten h, foldl_extend_of_unmarked hbs]
  simp

/-- A stream that carries some of the packets of another, each in words of its own. -/
theorem packets_select {last' : β → Bool} {f : List α → List β}
    (hf : ∀ p, (f p).map last' = p.map last) (g : List α → Bool) {ps : List (List α)}
    (hps : ∀ p ∈ ps, Ends last p) {bs : List α} (hbs : ∀ b ∈ bs, last b = false) :
    packets last' (((ps ++ [bs]).filter g).flatMap f) = (ps.filter g).map f := by
  rw [List.filter_append, List.flatMap_append, List.flatMap_def, packets_flatten]
  · intro q hq
    obtain ⟨p, hp, rfl⟩ := List.mem_map.mp hq
    exact (hps p (List.mem_of_mem_filter hp)).of_map_eq (hf p)
  · intro b hb
    obtain ⟨p, hp, hbp⟩ := List.mem_flatMap.mp hb
    have hmem : last' b ∈ p.map last := hf p ▸ List.mem_map_of_mem hbp
    obtain ⟨a, ha, hab⟩ := List.mem_map.mp hmem
    rw [List.mem_singleton.mp (List.mem_of_mem_filter hp)] at ha
    exact hab.symm.trans (hbs a ha)

theorem isPrefix_foldl_extend (bs : List α) (s : List (List α) × List α) :
    s.1 <+: (bs.foldl (extend last) s).1 := by
  induction bs generalizing s with
  | nil => exact List.prefix_refl _
  | cons b bs ih =>
    refine List.IsPrefix.trans ?_ (ih _)
    rw [extend]
    split_ifs
    · exact List.prefix_append _ _
    · exact List.prefix_refl _

/-- What comes later does not change what has come. -/
theorem packets_mono {bs bs' : List α} (h : bs <+: bs') :
    packets last bs <+: packets last bs' := by
  obtain ⟨more, rfl⟩ := h
  rw [packets, packets, cut, cut, List.foldl_append]
  exact isPrefix_foldl_extend more _

/-- **A part of a stream** has the first packets of the stream, whole. -/
theorem packets_of_isPrefix {ps : List (List α)} (h : ∀ p ∈ ps, Ends last p) {bs : List α}
    (hbs : bs <+: ps.flatten) : packets last bs <+: ps := by
  have hmono : packets last bs <+: packets last ps.flatten := packets_mono hbs
  rw [← List.append_nil ps.flatten, packets_flatten h fun b hb => absurd hb List.not_mem_nil]
    at hmono
  exact hmono

/-! ## First beats -/

variable (last)

/-- Each beat, and whether a packet begins with it. -/
def starts : Bool → List α → List (α × Bool)
  | _, [] => []
  | first, b :: bs => (b, first) :: starts (last b) bs

/-- Whether a packet begins behind the stream. -/
def between (first : Bool) (bs : List α) : Bool := bs.foldl (fun _ b => last b) first

variable {last}

theorem starts_append (first : Bool) (bs bs' : List α) :
    starts last first (bs ++ bs') =
      starts last first bs ++ starts last (between last first bs) bs' := by
  induction bs generalizing first with
  | nil => rfl
  | cons b bs ih =>
    rw [List.cons_append, starts, starts, ih, List.cons_append]
    rfl

theorem between_concat (first : Bool) (bs : List α) (b : α) :
    between last first (bs ++ [b]) = last b :=
  List.foldl_concat ..

theorem starts_of_unmarked {bs : List α} (h : ∀ b ∈ bs, last b = false) :
    starts last false bs = bs.map fun b => (b, false) := by
  induction bs with
  | nil => rfl
  | cons b bs ih =>
    rw [starts, h b List.mem_cons_self, ih fun a ha => h a (List.mem_cons_of_mem _ ha)]
    rfl

theorem between_of_unmarked {bs : List α} (h : ∀ b ∈ bs, last b = false) :
    between last false bs = false := by
  induction bs using List.reverseRecOn with
  | nil => rfl
  | append_singleton bs b _ =>
    rw [between_concat]
    exact h b (by simp)

/-- A packet with its first beat marked. -/
def firstMarked : List α → List (α × Bool)
  | [] => []
  | b :: bs => (b, true) :: bs.map fun b => (b, false)

theorem starts_of_ends {p : List α} (h : Ends last p) :
    starts last true p = firstMarked p ∧ between last true p = true := by
  obtain ⟨body, b, rfl, hb, hbody⟩ := h
  refine ⟨?_, by rw [between_concat, hb]⟩
  cases body with
  | nil => rfl
  | cons a body =>
    have hrest : ∀ c ∈ body, last c = false := fun c hc => hbody c (List.mem_cons_of_mem _ hc)
    rw [List.cons_append, starts, starts_append, hbody a List.mem_cons_self,
      between_of_unmarked hrest, starts_of_unmarked hrest, firstMarked, List.map_append]
    rfl

/-- Packets that are laid end to end begin where they were laid. -/
theorem starts_flatten {ps : List (List α)} (h : ∀ p ∈ ps, Ends last p) :
    starts last true ps.flatten = ps.flatMap firstMarked := by
  induction ps with
  | nil => rfl
  | cons p ps ih =>
    obtain ⟨hstarts, hbetween⟩ := starts_of_ends (h p List.mem_cons_self)
    rw [List.flatten_cons, starts_append, hstarts, hbetween,
      ih fun q hq => h q (List.mem_cons_of_mem _ hq), List.flatMap_cons]

/-- Beats that are told apart by their first ones. -/
theorem starts_mono {first : Bool} {bs bs' : List α} (h : bs <+: bs') :
    starts last first bs <+: starts last first bs' := by
  obtain ⟨more, rfl⟩ := h
  rw [starts_append]
  exact List.prefix_append _ _

end Framing
end RecoNIC
