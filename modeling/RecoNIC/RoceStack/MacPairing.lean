import RecoNIC.Synchronous.Fifo
import RecoNIC.Synchronous.Machine

/-!
# The destination address of a packet

The stack pushes one destination MAC address for each packet it sends, and the
encoder reads an address from a register when it takes the first beat of a packet.
The wrapper loads the register from a FIFO.  It has no other way to know that a
packet has ended than the rising edge of `tlast & tvalid`, and does not look at
`tready`.

So the register is ahead of the encoder by one address or by none, and `Phase`
says when.  A beat moves the phase as intended if the edge is there to be seen, if
no older edge is still waiting for an address, and if a packet of one beat is
taken before the next address arrives: this is `Timely`.  Two packets of one beat in
consecutive cycles have one edge.
-/

namespace RecoNIC
namespace MacPairing

open Synchronous

/-! ## The source -/

/-- `mac_addr_fifo` and the registers that go with it. -/
structure State where
  macAddrFifo : Fifo (BitVec 48) 5
  lastLast : Bool
  pktSent : Bool
  macaddToEncode : BitVec 48

/-- The inputs of one cycle: the wires of `axis_tx_roce_to_eth`, and `macadd_to_fifo` if
`macadd_to_fifo_valid` is high. -/
structure Input where
  tvalid : Bool
  tlast : Bool
  tready : Bool
  macaddToFifo : Option (BitVec 48)

namespace State

/-- After reset. -/
def reset : State where
  macAddrFifo := .reset 0
  lastLast := false
  pktSent := true
  macaddToEncode := 0

variable (s : State) (i : Input)

/-- `mac_fifo_rd`. -/
def macFifoRd : Bool := s.pktSent && s.macAddrFifo.readyRd

/-- `mac_fifo_wr`. -/
def macFifoWr : Bool := s.macAddrFifo.readyWr && i.macaddToFifo.isSome

/-- The end of a packet comes into view. -/
def edge : Bool := !s.lastLast && (i.tlast && i.tvalid)

/-- One clock edge.  The read comes after the edge in the source, so it wins. -/
def step : State where
  macAddrFifo := s.macAddrFifo.step s.macFifoRd (s.macFifoWr i) (i.macaddToFifo.getD 0)
  lastLast := i.tlast && i.tvalid
  pktSent := if s.macFifoRd then false else if s.edge i then true else s.pktSent
  macaddToEncode := if s.macFifoRd then s.macAddrFifo.dataOut else s.macaddToEncode

end State

/-! ## The ledger -/

/-- What the stack has pushed and what the encoder has read. -/
structure Ledger where
  /-- The addresses the stack has pushed. -/
  pushed : List (BitVec 48)
  /-- The addresses that went through the register. -/
  loaded : List (BitVec 48)
  /-- The addresses the encoder has read, one for each packet. -/
  sent : List (BitVec 48)
  /-- The next beat is the first one of a packet. -/
  first : Bool
  /-- `tlast` of the beat that is offered and not taken yet. -/
  held : Option Bool

/-- Nothing has happened. -/
def Ledger.empty : Ledger := ⟨[], [], [], true, none⟩

/-- One cycle.  The encoder reads the register when it takes the first beat. -/
def note (l : Ledger) (s : State) (i : Input) : Ledger where
  pushed := l.pushed ++ i.macaddToFifo.toList
  loaded := if s.macFifoRd then l.loaded ++ [s.macAddrFifo.dataOut] else l.loaded
  sent := if i.tvalid && i.tready && l.first then l.sent ++ [s.macaddToEncode] else l.sent
  first := if i.tvalid && i.tready then i.tlast else l.first
  held := if i.tvalid && !i.tready then some i.tlast else none

/-- The address path of the wrapper, watched. -/
def macPath : Machine (State × Ledger) Input :=
  Machine.watch ⟨State.reset, State.step⟩ Ledger.empty note

/-- The `n`-th packet leaves with the `n`-th address. -/
def Paired (s : State × Ledger) : Prop := s.2.sent <+: s.2.pushed

instance (s : State × Ledger) : Decidable (Paired s) := inferInstanceAs (Decidable (_ <+: _))

/-- The cycle moves the register as the packets need it. -/
structure Timely (s : State × Ledger) (i : Input) : Prop where
  /-- An address comes only when there is room. -/
  room : i.macaddToFifo ≠ none → s.1.macAddrFifo.readyWr = true
  /-- A beat that waits is offered again. -/
  offered : s.2.held ≠ none → i.tvalid = true ∧ s.2.held = some i.tlast
  /-- When a packet of one beat comes, no end of a packet is in view, and none waits for an
  address. -/
  single : i.tvalid = true → i.tlast = true → s.2.first = true → s.2.held = none →
    s.1.lastLast = false ∧ s.1.pktSent = false
  /-- When the first beat of a longer one is taken, its address has come. -/
  longer : i.tvalid = true → i.tlast = false → s.2.first = true → i.tready = true →
    s.1.pktSent = false
  /-- While a packet of one beat waits, no address comes. -/
  waiting : s.2.first = true → s.2.held = some true → i.tready = false →
    s.1.macAddrFifo.readyRd = false

set_option synthInstance.maxSize 256 in
instance (s : State × Ledger) (i : Input) : Decidable (Timely s i) :=
  decidable_of_iff
    ((i.macaddToFifo ≠ none → s.1.macAddrFifo.readyWr = true) ∧
      (s.2.held ≠ none → i.tvalid = true ∧ s.2.held = some i.tlast) ∧
      (i.tvalid = true → i.tlast = true → s.2.first = true → s.2.held = none →
        s.1.lastLast = false ∧ s.1.pktSent = false) ∧
      (i.tvalid = true → i.tlast = false → s.2.first = true → i.tready = true →
        s.1.pktSent = false) ∧
      (s.2.first = true → s.2.held = some true → i.tready = false →
        s.1.macAddrFifo.readyRd = false))
    ⟨fun h => ⟨h.1, h.2.1, h.2.2.1, h.2.2.2.1, h.2.2.2.2⟩,
      fun h => ⟨h.room, h.offered, h.single, h.longer, h.waiting⟩⟩

/-! ## The phases -/

/-- How many addresses the register is ahead of the encoder. -/
inductive Phase (s : State) (l : Ledger) : Nat → Prop
  /-- Between packets, the next address has not come. -/
  | awaiting : l.first = true → l.held ≠ some true → s.pktSent = true → Phase s l 0
  /-- Between packets, the next address is in the register. -/
  | loaded : l.first = true → l.held ≠ some true → s.pktSent = false → Phase s l 1
  /-- A packet of one beat waits to be taken. -/
  | single : l.first = true → l.held = some true → s.pktSent = true → s.lastLast = true →
      Phase s l 1
  /-- In a packet, before its last beat. -/
  | inside : l.first = false → l.held ≠ some true → s.pktSent = false → s.lastLast = false →
      Phase s l 0
  /-- The last beat of a longer packet waits, and the register has not moved. -/
  | ending : l.first = false → l.held = some true → s.pktSent = true → s.lastLast = true →
      Phase s l 0
  /-- The last beat of a longer packet waits, and the register has moved. -/
  | ended : l.first = false → l.held = some true → s.pktSent = false → s.lastLast = true →
      Phase s l 1

/-- What a cycle adds to the distance between the register and the encoder. -/
def popped (s : State) : Nat := if s.macFifoRd then 1 else 0

/-- What a cycle takes from it. -/
def taken (l : Ledger) (i : Input) : Nat := if i.tvalid && i.tready && l.first then 1 else 0

section Step

variable {s : State} {l : Ledger} {i : Input} {n : Nat}

@[simp] theorem pktSent_step :
    (s.step i).pktSent = if s.macFifoRd then false else if s.edge i then true else s.pktSent :=
  rfl

@[simp] theorem lastLast_step : (s.step i).lastLast = (i.tlast && i.tvalid) := rfl

@[simp] theorem first_note :
    (note l s i).first = if i.tvalid && i.tready then i.tlast else l.first := rfl

@[simp] theorem held_note :
    (note l s i).held = if i.tvalid && !i.tready then some i.tlast else none := rfl

/-- A beat that has waited and was not the last one is still not the last one. -/
theorem Timely.held_eq_none (h : Timely (s, l) i) (hheld : l.held ≠ some true)
    (hlast : i.tlast = true) : l.held = none := by
  by_contra hwaits
  have := (h.offered hwaits).2
  rw [hlast] at this
  exact hheld this

/-- A last beat that waits is offered again. -/
theorem Timely.of_held (h : Timely (s, l) i) (hheld : l.held = some true) :
    i.tvalid = true ∧ i.tlast = true := by
  obtain ⟨hv, hl⟩ := h.offered (by simp [hheld])
  rw [hheld, Option.some.injEq] at hl
  exact ⟨hv, hl.symm⟩

theorem macFifoRd_of_not_pktSent (h : s.pktSent = false) : s.macFifoRd = false := by
  rw [State.macFifoRd, h, Bool.false_and]

/-- A cycle takes the phase to another one.  Each address that goes through the register
brings it one ahead, and each packet that is begun takes one. -/
def Advances (s : State) (l : Ledger) (i : Input) (n : Nat) : Prop :=
  ∃ m, Phase (s.step i) (note l s i) m ∧ m + taken l i = n + popped s

/-- After a last beat that is taken, the register is ahead iff its next address has come. -/
theorem phase_of_taken (hv : i.tvalid = true) (hl : i.tlast = true) (hr : i.tready = true) :
    Phase (s.step i) (note l s i) (if (s.step i).pktSent then 0 else 1) := by
  have hfirst : (note l s i).first = true := by simp [hv, hr, hl]
  have hheld : (note l s i).held ≠ some true := by simp [hr]
  cases hsent : (s.step i).pktSent with
  | false => exact .loaded hfirst hheld hsent
  | true => exact .awaiting hfirst hheld hsent

/-- The same while the last beat of a longer packet waits. -/
theorem phase_of_waiting (hfirst : l.first = false) (hv : i.tvalid = true)
    (hl : i.tlast = true) (hr : i.tready = false) :
    Phase (s.step i) (note l s i) (if (s.step i).pktSent then 0 else 1) := by
  have hfirst' : (note l s i).first = false := by simp [hr, hfirst]
  have hheld : (note l s i).held = some true := by simp [hv, hr, hl]
  have hlast : (s.step i).lastLast = true := by simp [hl, hv]
  cases hsent : (s.step i).pktSent with
  | false => exact .ended hfirst' hheld hsent hlast
  | true => exact .ending hfirst' hheld hsent hlast

/-- Both together: the last beat of a longer packet is offered. -/
theorem phase_of_last (hfirst : l.first = false) (hv : i.tvalid = true) (hl : i.tlast = true) :
    Phase (s.step i) (note l s i) (if (s.step i).pktSent then 0 else 1) := by
  cases hr : i.tready with
  | false => exact phase_of_waiting hfirst hv hl hr
  | true => exact phase_of_taken hv hl hr

/-- In a packet, no beat is the first one. -/
theorem taken_of_not_first (hfirst : l.first = false) : taken l i = 0 := by
  simp [taken, hfirst]

theorem advances_awaiting (ht : Timely (s, l) i) (hfirst : l.first = true)
    (hheld : l.held ≠ some true) (hsent : s.pktSent = true) : Advances s l i 0 := by
  -- neither a packet of one beat nor the first beat of a longer one is taken
  have htake : (i.tvalid && i.tready) = false := by
    cases hv : i.tvalid <;> cases hr : i.tready <;> cases hl : i.tlast <;> simp
    · simpa [hsent] using ht.longer hv hl hfirst hr
    · simpa [hsent] using (ht.single hv hl hfirst (ht.held_eq_none hheld hl)).2
  have hlast : (i.tlast && i.tvalid) = false := by
    cases hv : i.tvalid <;> cases hl : i.tlast <;> simp
    simpa [hsent] using (ht.single hv hl hfirst (ht.held_eq_none hheld hl)).2
  have hfirst' : (note l s i).first = true := by simp [htake, hfirst]
  have hheld' : (note l s i).held ≠ some true := by
    cases hv : i.tvalid <;> simp [hv] at hlast ⊢
    simp [hlast]
  cases hrd : s.macFifoRd with
  | false =>
    exact ⟨0, .awaiting hfirst' hheld' (by simp [hrd, hsent]), by simp [taken, popped, htake, hrd]⟩
  | true =>
    exact ⟨1, .loaded hfirst' hheld' (by simp [hrd]), by simp [taken, popped, htake, hrd]⟩

theorem advances_loaded (ht : Timely (s, l) i) (hfirst : l.first = true)
    (hheld : l.held ≠ some true) (hsent : s.pktSent = false) : Advances s l i 1 := by
  have hrd := macFifoRd_of_not_pktSent hsent
  cases hv : i.tvalid with
  | false =>
    exact ⟨1, .loaded (by simp [hv, hfirst]) (by simp [hv])
      (by simp [hrd, State.edge, hv, hsent]), by simp [taken, popped, hv, hrd]⟩
  | true =>
    cases hl : i.tlast with
    | false =>
      have hsent' : (s.step i).pktSent = false := by simp [hrd, State.edge, hl, hsent]
      cases hr : i.tready with
      | false =>
        exact ⟨1, .loaded (by simp [hr, hfirst]) (by simp [hv, hr, hl]) hsent',
          by simp [taken, popped, hr, hrd]⟩
      | true =>
        exact ⟨0, .inside (by simp [hv, hr, hl]) (by simp [hr]) hsent' (by simp [hl]),
          by simp [taken, popped, hv, hr, hfirst, hrd]⟩
    | true =>
      have hlastLast : s.lastLast = false :=
        (ht.single hv hl hfirst (ht.held_eq_none hheld hl)).1
      have hedge : s.edge i = true := by simp [State.edge, hl, hv, hlastLast]
      cases hr : i.tready with
      | false =>
        exact ⟨1, .single (by simp [hr, hfirst]) (by simp [hv, hr, hl]) (by simp [hrd, hedge])
          (by simp [hl, hv]), by simp [taken, popped, hr, hrd]⟩
      | true =>
        exact ⟨_, phase_of_taken hv hl hr, by simp [hedge, taken, popped, hv, hr, hfirst, hrd]⟩

theorem advances_single (ht : Timely (s, l) i) (hfirst : l.first = true)
    (hheld : l.held = some true) (hsent : s.pktSent = true) (hlast : s.lastLast = true) :
    Advances s l i 1 := by
  obtain ⟨hv, hl⟩ := ht.of_held hheld
  have hedge : s.edge i = false := by simp [State.edge, hlast]
  cases hr : i.tready with
  | false =>
    have hrd : s.macFifoRd = false := by
      rw [State.macFifoRd, ht.waiting hfirst hheld hr, Bool.and_false]
    exact ⟨1, .single (by simp [hr, hfirst]) (by simp [hv, hr, hl])
      (by simp [hrd, hedge, hsent]) (by simp [hl, hv]), by simp [taken, popped, hr, hrd]⟩
  | true =>
    refine ⟨_, phase_of_taken hv hl hr, ?_⟩
    cases hrd : s.macFifoRd <;> simp [taken, popped, hv, hr, hfirst, hrd, hedge, hsent]

theorem advances_inside (hfirst : l.first = false) (hsent : s.pktSent = false)
    (hlast : s.lastLast = false) : Advances s l i 0 := by
  have hrd := macFifoRd_of_not_pktSent hsent
  have hcount : taken l i = 0 := taken_of_not_first hfirst
  cases hv : i.tvalid with
  | false =>
    exact ⟨0, .inside (by simp [hv, hfirst]) (by simp [hv])
      (by simp [hrd, State.edge, hv, hsent]) (by simp [hv]), by simp [hcount, popped, hrd]⟩
  | true =>
    cases hl : i.tlast with
    | false =>
      exact ⟨0, .inside (by simp [hl, hfirst]) (by simp [hl])
        (by simp [hrd, State.edge, hl, hsent]) (by simp [hl]), by simp [hcount, popped, hrd]⟩
    | true =>
      have hedge : s.edge i = true := by simp [State.edge, hl, hv, hlast]
      exact ⟨_, phase_of_last hfirst hv hl, by simp [hedge, hcount, popped, hrd]⟩

theorem advances_ending (ht : Timely (s, l) i) (hfirst : l.first = false)
    (hheld : l.held = some true) (hsent : s.pktSent = true) (hlast : s.lastLast = true) :
    Advances s l i 0 := by
  obtain ⟨hv, hl⟩ := ht.of_held hheld
  have hedge : s.edge i = false := by simp [State.edge, hlast]
  have hcount : taken l i = 0 := taken_of_not_first hfirst
  refine ⟨_, phase_of_last hfirst hv hl, ?_⟩
  cases hrd : s.macFifoRd <;> simp [hcount, popped, hrd, hedge, hsent]

theorem advances_ended (ht : Timely (s, l) i) (hfirst : l.first = false)
    (hheld : l.held = some true) (hsent : s.pktSent = false) (hlast : s.lastLast = true) :
    Advances s l i 1 := by
  obtain ⟨hv, hl⟩ := ht.of_held hheld
  have hrd := macFifoRd_of_not_pktSent hsent
  have hedge : s.edge i = false := by simp [State.edge, hlast]
  have hcount : taken l i = 0 := taken_of_not_first hfirst
  exact ⟨_, phase_of_last hfirst hv hl, by simp [hedge, hsent, hcount, popped, hrd]⟩

/-- **What a cycle does to the phase.** -/
theorem Phase.step (h : Phase s l n) (ht : Timely (s, l) i) : Advances s l i n := by
  cases h with
  | awaiting hfirst hheld hsent => exact advances_awaiting ht hfirst hheld hsent
  | loaded hfirst hheld hsent => exact advances_loaded ht hfirst hheld hsent
  | single hfirst hheld hsent hlast => exact advances_single ht hfirst hheld hsent hlast
  | inside hfirst hheld hsent hlast => exact advances_inside hfirst hsent hlast
  | ending hfirst hheld hsent hlast => exact advances_ending ht hfirst hheld hsent hlast
  | ended hfirst hheld hsent hlast => exact advances_ended ht hfirst hheld hsent hlast

/-- A packet that is begun has its address in the register. -/
theorem Phase.ahead (h : Phase s l n) (ht : Timely (s, l) i) (htaken : taken l i = 1) :
    n = 1 := by
  have hbeat : i.tvalid && i.tready && l.first := by
    by_contra hno
    simp [taken, hno] at htaken
  simp only [Bool.and_eq_true] at hbeat
  obtain ⟨⟨hv, hr⟩, hfirst⟩ := hbeat
  obtain ⟨m, hphase, hcount⟩ := h.step ht
  cases h with
  | awaiting hfirst' hheld hsent =>
    -- the address has not come, so nothing is taken
    exfalso
    cases hl : i.tlast with
    | false => simpa [hsent] using ht.longer hv hl hfirst hr
    | true => simpa [hsent] using (ht.single hv hl hfirst (ht.held_eq_none hheld hl)).2
  | loaded => rfl
  | single => rfl
  | inside hfirst' => simp [hfirst] at hfirst'
  | ending hfirst' => simp [hfirst] at hfirst'
  | ended => rfl

/-! ## The invariant -/

/-- The register and the FIFO hold what was pushed and not sent. -/
structure Inv (s : State × Ledger) : Prop where
  /-- Every address is where it should be. -/
  pushed : s.2.pushed = s.2.loaded ++ s.1.macAddrFifo.contents
  /-- The register holds the last address that went through it. -/
  register : ∀ x ∈ s.2.loaded.getLast?, s.1.macaddToEncode = x
  sent : s.2.sent <+: s.2.loaded
  phase : ∃ n, Phase s.1 s.2 n ∧ s.2.loaded.length = s.2.sent.length + n

theorem inv_reset : Inv macPath.reset where
  pushed := rfl
  register := by simp [macPath, Ledger.empty]
  sent := List.prefix_refl _
  phase := ⟨0, .awaiting rfl (by simp [macPath, Ledger.empty]) rfl, rfl⟩

theorem contents_step (ht : Timely (s, l) i) :
    (s.step i).macAddrFifo.contents =
      (if s.macFifoRd then s.macAddrFifo.contents.tail else s.macAddrFifo.contents) ++
        i.macaddToFifo.toList := by
  have hroom := ht.room
  simp only [State.step, Fifo.contents_step]
  congr 1
  cases hm : i.macaddToFifo with
  | none => simp [State.macFifoWr, hm]
  | some x =>
    have hwr : s.macAddrFifo.readyWr = true := hroom (by simp [hm])
    have hfull : s.macAddrFifo.isFull = false := by simpa [Fifo.readyWr] using hwr
    simp [State.macFifoWr, hm, hwr, hfull]

theorem Inv.step (h : Inv (s, l)) (ht : Timely (s, l) i) : Inv (s.step i, note l s i) := by
  obtain ⟨n, hphase, hlen⟩ := h.phase
  obtain ⟨m, hphase', hcount⟩ := hphase.step ht
  have hpushed : l.pushed = l.loaded ++ s.macAddrFifo.contents := h.pushed
  have hlen : l.loaded.length = l.sent.length + n := hlen
  have hloaded : l.loaded <+: (note l s i).loaded := by
    simp only [note]
    split_ifs
    · exact List.prefix_append _ _
    · exact List.prefix_refl _
  refine ⟨?_, ?_, ?_, m, hphase', ?_⟩
  · show l.pushed ++ _ = (note l s i).loaded ++ (s.step i).macAddrFifo.contents
    rw [contents_step ht, hpushed]
    cases hrd : s.macFifoRd with
    | false => simp [note, hrd]
    | true =>
      have hready : s.macAddrFifo.readyRd = true := (Bool.and_eq_true_iff.mp hrd).2
      conv_lhs => rw [s.macAddrFifo.contents_eq_cons hready]
      simp [note, hrd]
  · cases hrd : s.macFifoRd with
    | false => simpa [note, State.step, hrd] using h.register
    | true => simp [note, State.step, hrd]
  · show (if i.tvalid && i.tready && l.first then l.sent ++ [s.macaddToEncode] else l.sent) <+: _
    split_ifs with hbeat
    · -- the register is one ahead and holds the address that is next
      have hn : n = 1 := hphase.ahead ht (by rw [taken, if_pos hbeat])
      obtain ⟨rest, hrest⟩ : l.sent <+: l.loaded := h.sent
      have hone : rest.length = 1 := by
        have := congrArg List.length hrest
        rw [List.length_append] at this
        omega
      obtain ⟨x, rfl⟩ := List.length_eq_one_iff.mp hone
      have hreg : s.macaddToEncode = x := h.register x (by simp [← hrest])
      rw [hreg, hrest]
      exact hloaded
    · exact h.sent.trans hloaded
  · have hloadedLen : (note l s i).loaded.length = l.loaded.length + popped s := by
      simp only [note, popped]
      split_ifs <;> simp
    have hsentLen : (note l s i).sent.length = l.sent.length + taken l i := by
      simp only [note, taken]
      split_ifs <;> simp
    show (note l s i).loaded.length = (note l s i).sent.length + m
    rw [hloadedLen, hsentLen, hlen]
    change m + taken l i = n + popped s at hcount
    omega

/-- **The pairing.**  In a run whose cycles are all timely, the `n`-th packet leaves the encoder
with the `n`-th address the stack has pushed. -/
theorem paired_of_timely (is : List Input) (hrun : macPath.Guarded Timely macPath.reset is) :
    macPath.Always Paired macPath.reset is := by
  have hinv : macPath.Always Inv macPath.reset is :=
    Machine.always_of_guarded (fun _ _ hs ht => hs.step ht) inv_reset hrun
  refine hinv.mono fun s hs => ?_
  rw [Paired, hs.pushed]
  exact hs.sent.trans (List.prefix_append _ _)

end Step

/-! ### Two packets of one beat -/

/-- A cycle without a beat. -/
def gap (mac : Option (BitVec 48)) : Input := ⟨false, false, true, mac⟩

/-- A packet of one beat, taken at once. -/
def oneBeat : Input := ⟨true, true, true, none⟩

/-- The addresses 1 and 2, and a packet for each, `n` cycles between them. -/
def twoPackets (n : Nat) : List Input :=
  [gap (some 1), gap (some 2), oneBeat] ++ List.replicate n (gap none) ++ [oneBeat]

/-- With a cycle for the address in between, both are right. -/
theorem paired_twoPackets : macPath.Always Paired macPath.reset (twoPackets 1) :=
  paired_of_timely (twoPackets 1) (by decide +kernel)

/-- In consecutive cycles the second packet leaves with the first address. -/
theorem backToBack_not_paired :
    (macPath.run (twoPackets 0)).2.pushed = [1, 2] ∧
    (macPath.run (twoPackets 0)).2.sent = [1, 1] ∧
    ¬ macPath.Always Paired macPath.reset (twoPackets 0) := by
  have hpushed : (macPath.run (twoPackets 0)).2.pushed = [1, 2] := by decide +kernel
  have hsent : (macPath.run (twoPackets 0)).2.sent = [1, 1] := by decide +kernel
  refine ⟨hpushed, hsent, fun h => ?_⟩
  have hlast : (macPath.run (twoPackets 0)).2.sent <+: (macPath.run (twoPackets 0)).2.pushed :=
    h.last
  rw [hpushed, hsent] at hlast
  revert hlast
  decide

end MacPairing
end RecoNIC
