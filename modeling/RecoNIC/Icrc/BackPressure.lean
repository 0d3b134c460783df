import RecoNIC.Icrc.Pipeline

/-!
# The output under back-pressure

The words that are handed to the buffer are meant to leave it once each and in order,
whatever `tready` does.  A word that is read goes to the output register and is offered in
the next cycle.  But `tvalid` follows `empty` in every cycle, and not the register: with
`tready` low, the last word of the buffer is offered for one cycle only, and a word that has
been transferred is offered again as soon as another one waits behind it.

And `full` is not seen with the write pointer at 15 and the read pointer at 0, and
`halffull` is not seen in half of the positions.
-/

namespace RecoNIC
namespace Icrc

open Synchronous

/-- The word that is offered. -/
def offered (s : State) : List Word := if s.txValid then [s.bf.output] else []

/-- The words handed to the buffer are those transferred, the one offered, and those in the
buffer. -/
def Conserved (s : State × Ledger) : Prop :=
  s.2.handed = s.2.sent ++ offered s.1 ++ s.1.bf.contents

instance (s : State × Ledger) : Decidable (Conserved s) := inferInstanceAs (Decidable (_ = _))

/-- While `tready` is low, a word is offered exactly if one is in the buffer, and a word is
handed over only if the buffer takes it. -/
structure Unhurried (s : State × Ledger) (i : Input) : Prop where
  stalled : i.txReady = false → s.1.txValid = !s.1.bf.empty
  takes : s.1.toFifo.valid = true → s.1.bf.Takes i.txReady

instance (s : State × Ledger) (i : Input) : Decidable (Unhurried s i) :=
  decidable_of_iff
    ((i.txReady = false → s.1.txValid = !s.1.bf.empty) ∧
      (s.1.toFifo.valid = true → s.1.bf.Takes i.txReady))
    ⟨fun h => ⟨h.1, h.2⟩, fun h => ⟨h.stalled, h.takes⟩⟩

/-- A word that is handed over is not written while the buffer shows that it is full, and goes
behind all the entries that are left. -/
structure Accepted (s : State × Ledger) (i : Input) : Prop where
  notFull : s.1.toFifo.valid = true → s.1.bf.full = false
  behind : s.1.toFifo.valid = true → (s.1.step i).bf.contents =
    (if i.txReady then s.1.bf.contents.tail else s.1.bf.contents) ++ [s.1.toFifoWord]

/-- What leaves the buffer is offered next. -/
theorem offered_step (s : State) (i : Input)
    (h : i.txReady = false → s.txValid = !s.bf.empty) :
    (if s.txValid && i.txReady then [s.bf.output] else []) ++ offered (s.step i) ++
        (if i.txReady then s.bf.contents.tail else s.bf.contents) =
      offered s ++ s.bf.contents := by
  have hnext : offered (s.step i) =
      if !s.bf.empty then [if i.txReady && !s.bf.empty then s.bf.fifo s.bf.readPointer
        else s.bf.output] else [] := rfl
  rw [hnext]
  cases hr : i.txReady with
  | true =>
    cases he : s.bf.empty with
    | true =>
      have hnil := s.bf.empty_iff.mp he
      simp [offered, hnil]
    | false =>
      have hcons := s.bf.contents_eq_cons he
      simpa [offered] using hcons.symm
  | false =>
    have hv := h hr
    cases he : s.bf.empty <;> simp [offered, hv, he]

theorem contents_step (s : State × Ledger) (i : Input) (hok : Unhurried s i) :
    (s.1.step i).bf.contents =
      (if i.txReady then s.1.bf.contents.tail else s.1.bf.contents) ++
        (if s.1.toFifo.valid then [s.1.toFifoWord] else []) :=
  s.1.bf.contents_step _ _ _ hok.takes

theorem Unhurried.accepted {s : State × Ledger} {i : Input} (hok : Unhurried s i) :
    Accepted s i := by
  refine ⟨fun hvalid => (hok.takes hvalid).1, fun hvalid => ?_⟩
  have hcont := contents_step s i hok
  rwa [hvalid, if_pos rfl] at hcont

theorem conserved_step (s : State × Ledger) (i : Input) (hs : Conserved s)
    (hok : Unhurried s i) : Conserved (icrc.step s i) := by
  have hcont := contents_step s i hok
  have hout := offered_step s.1 i hok.stalled
  change s.2.handed ++ (if s.1.toFifo.valid then [s.1.toFifoWord] else []) =
    (s.2.sent ++ if s.1.txValid && i.txReady then [s.1.bf.output] else []) ++
      offered (s.1.step i) ++ (s.1.step i).bf.contents
  rw [hcont, hs, List.append_assoc s.2.sent, ← hout]
  simp only [List.append_assoc]

/-- A packet of one word, 40 bytes long. -/
def oneWord : Word := ⟨0, ones 10, true⟩

/-- Nothing comes, and the other side is ready or not. -/
def idle (txReady : Bool) : Input := ⟨false, .zero, txReady⟩

/-- One packet.  When its word is offered, the other side is not ready for one cycle. -/
def lateReady : List Input :=
  ⟨true, oneWord, true⟩ :: List.replicate 5 (idle true) ++ [idle false, idle true]

/-- Three packets in a row.  The other side is not ready for one cycle, in which a word is
offered and another one waits in the buffer. -/
def stalledOnce : List Input :=
  List.replicate 3 ⟨true, oneWord, true⟩ ++ List.replicate 3 (idle true) ++
    idle false :: List.replicate 5 (idle true)

end Icrc
end RecoNIC
