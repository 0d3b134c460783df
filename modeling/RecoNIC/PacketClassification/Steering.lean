import Mathlib.Data.Prod.Lex
import RecoNIC.PacketClassification.PacketFilter

/-!
# Whole packets or none

A beat that finds its FIFO full is lost, and neither side of the FIFO knows.  So what the
readers put together is a packet only if a packet is stored with all its beats and its
metadata, or not at all.  `WholeOrNone` cycles are of that kind: the first beat finds room in
both of its FIFOs or in neither, and the later ones do as the first one did.

The invariant has three parts.  The filter is in the state that fits the packet being
received; the words of the stored packets are those delivered followed by the ones the
reader will make of what the FIFOs hold; and the same for the beats of the other packets.
If no FIFO is ever full then all packets are stored, and the split is exact.
-/

namespace RecoNIC
namespace PacketFilter

open Synchronous

variable {D : FallThrough Beat} {E : FallThrough Metadata}

/-! ## The reader of RDMA packets -/

/-- `Pairs r ms bs ws r'`: out of state `r`, the reader makes the words `ws` of the metadata
`ms` and the beats `bs`, uses all of them, and is then in state `r'`. -/
inductive Pairs : ReadState → List Metadata → List Beat → List RoceWord → ReadState → Prop
  | nil (r : ReadState) : Pairs r [] [] [] r
  | first (m : Metadata) (b : Beat) {ms bs ws r} (h : Pairs (.after b) ms bs ws r) :
      Pairs .idle (m :: ms) (b :: bs) (⟨b, some m⟩ :: ws) r
  | later (b : Beat) {ms bs ws r} (h : Pairs (.after b) ms bs ws r) :
      Pairs .reading ms (b :: bs) (⟨b, none⟩ :: ws) r

namespace Pairs

variable {r r' r'' : ReadState} {ms ms' : List Metadata} {bs bs' : List Beat}
  {ws ws' : List RoceWord}

/-- Reading on. -/
theorem append (h : Pairs r ms bs ws r') (h' : Pairs r' ms' bs' ws' r'') :
    Pairs r (ms ++ ms') (bs ++ bs') (ws ++ ws') r'' := by
  induction h with
  | nil r => exact h'
  | first m b _ ih => exact .first m b (ih h')
  | later b _ ih => exact .later b (ih h')

/-- A reader between packets finds metadata for each beat it finds. -/
theorem metadata_ne_nil (h : Pairs .idle ms bs ws r') (hbs : bs ≠ []) : ms ≠ [] := by
  cases h with
  | nil => exact absurd rfl hbs
  | first m b h => exact List.cons_ne_nil _ _

theorem of_idle {m : Metadata} {b : Beat} (h : Pairs .idle (m :: ms) (b :: bs) ws r') :
    ∃ ws', ws = ⟨b, some m⟩ :: ws' ∧ Pairs (.after b) ms bs ws' r' := by
  cases h with
  | first m b h => exact ⟨_, rfl, h⟩

theorem of_reading {b : Beat} (h : Pairs .reading ms (b :: bs) ws r') :
    ∃ ws', ws = ⟨b, none⟩ :: ws' ∧ Pairs (.after b) ms bs ws' r' := by
  cases h with
  | later b h => exact ⟨_, rfl, h⟩

theorem eq_nil (h : Pairs r ms [] ws r') : ws = [] := by
  cases h
  rfl

end Pairs

/-! ## Received packets -/

namespace Ledger

variable (l : Ledger) (m : Metadata) (b : Beat) (room : Bool)

/-- The words of the stored RDMA packets. -/
def storedRoce : List RoceWord :=
  (l.received.filter fun p => p.stored && isRdma p.metadata).flatMap Packet.roceWords

/-- The beats of the other stored packets. -/
def storedNonRoce : List Beat :=
  (l.received.filter fun p => p.stored && !isRdma p.metadata).flatMap Packet.beats

/-- The state the filter is in while this packet is received. -/
def filterState : FilterState :=
  match l.current with
  | none => .idle
  | some p => if isRdma p.metadata then .wrRoce else .wrNonRoce

/-- The state a reader is in once it has all that was stored. -/
def readerState : ReadState :=
  match l.current with
  | none => .idle
  | some p => if p.stored && isRdma p.metadata then .reading else .idle

@[simp] theorem arrive_roce : (l.arrive m b room).roce = l.roce := by
  unfold arrive
  split <;> rfl

@[simp] theorem arrive_nonRoce : (l.arrive m b room).nonRoce = l.nonRoce := by
  unfold arrive
  split <;> rfl

theorem received_arrive : (l.arrive m b room).received = l.finished ++ [l.extend m b room] := by
  unfold arrive received
  cases b.tlast <;> simp

/-- What one beat adds to the words of the stored RDMA packets. -/
theorem storedRoce_arrive :
    (l.arrive m b room).storedRoce = l.storedRoce ++
      match l.current with
      | none => if room && isRdma m then [⟨b, some m⟩] else []
      | some p => if p.stored && isRdma p.metadata then [⟨b, none⟩] else [] := by
  unfold storedRoce
  rw [received_arrive, received, extend]
  cases l.current with
  | none =>
    cases hk : room && isRdma m <;> simp [hk, Packet.roceWords]
  | some p =>
    cases hk : p.stored && isRdma p.metadata <;> simp [hk, Packet.roceWords]

theorem readerState_arrive :
    (l.arrive m b room).readerState =
      match l.current with
      | none => if room && isRdma m then .after b else .idle
      | some p => if p.stored && isRdma p.metadata then .after b else .idle := by
  unfold arrive readerState extend ReadState.after
  cases b.tlast <;> cases l.current <;> simp

theorem storedNonRoce_arrive :
    (l.arrive m b room).storedNonRoce = l.storedNonRoce ++
      match l.current with
      | none => if room && !isRdma m then [b] else []
      | some p => if p.stored && !isRdma p.metadata then [b] else [] := by
  unfold storedNonRoce
  rw [received_arrive, received, extend]
  cases l.current with
  | none =>
    cases hk : room && !isRdma m <;> simp [hk, Packet.beats]
  | some p =>
    cases hk : p.stored && !isRdma p.metadata <;> simp [hk, Packet.beats]

end Ledger

/-! ## One cycle of each side -/

namespace State

variable (s : State D E) (i : Input)

/-- What the reader takes is the first of the words it will make. -/
theorem read_rdma {ws : List RoceWord} {r : ReadState}
    (h : Pairs s.filterRdRdmaState (E.contents s.metadataFifo) (D.contents s.rdmaPktFifo) ws r) :
    ∃ ws', ws = (s.roceOut i).toList ++ ws' ∧
      Pairs (s.step i).filterRdRdmaState
        (if s.metaRdEn i && !E.empty s.metadataFifo then (E.contents s.metadataFifo).tail
          else E.contents s.metadataFifo)
        (if s.rdmaPktRdEn i && !D.empty s.rdmaPktFifo then (D.contents s.rdmaPktFifo).tail
          else D.contents s.rdmaPktFifo) ws' r := by
  cases hrd : s.rdmaPktRdEn i with
  | false =>
    have hmeta : s.metaRdEn i = false := by
      cases hr : s.filterRdRdmaState <;> simp_all [rdmaPktRdEn, metaRdEn]
    refine ⟨ws, by simp [roceOut, hrd], ?_⟩
    simpa [step, hrd, hmeta] using h
  | true =>
    have hbeats : D.empty s.rdmaPktFifo = false := by
      cases hr : s.filterRdRdmaState <;> simp_all [rdmaPktRdEn]
    rw [D.contents_eq_cons _ hbeats] at h
    cases hr : s.filterRdRdmaState with
    | idle =>
      have hmeta : E.empty s.metadataFifo = false := by simp_all [rdmaPktRdEn]
      have hmrd : s.metaRdEn i = true := by simp_all [rdmaPktRdEn, metaRdEn]
      rw [hr, E.contents_eq_cons _ hmeta] at h
      obtain ⟨ws', rfl, h'⟩ := h.of_idle
      refine ⟨ws', by simp [roceOut, hrd, hmrd], ?_⟩
      simpa [step, hrd, hmrd, hbeats, hmeta] using h'
    | reading =>
      have hmrd : s.metaRdEn i = false := by simp [metaRdEn, hr]
      rw [hr] at h
      obtain ⟨ws', rfl, h'⟩ := h.of_reading
      refine ⟨ws', by simp [roceOut, hrd, hmrd], ?_⟩
      simpa [step, hrd, hmrd, hbeats] using h'

/-- What the other reader takes is the first beat of its FIFO. -/
theorem read_nonRdma :
    D.contents s.nonRdmaPktFifo = (s.nonRoceOut i).toList ++
      if s.nonRdmaPktRdEn i && !D.empty s.nonRdmaPktFifo then (D.contents s.nonRdmaPktFifo).tail
      else D.contents s.nonRdmaPktFifo := by
  cases hrd : s.nonRdmaPktRdEn i with
  | false => simp [nonRoceOut, hrd]
  | true =>
    have hbeats : D.empty s.nonRdmaPktFifo = false := by
      cases hr : s.filterRdNonRdmaState <;> simp_all [nonRdmaPktRdEn]
    simpa [nonRoceOut, hrd, hbeats] using D.contents_eq_cons _ hbeats

end State

/-- A cycle after which no packet is stored in part.  The first beat of an RDMA packet finds
its two FIFOs both full or neither, and each later beat finds its FIFO as the first one
did. -/
structure WholeOrNone (s : State D E × Ledger) (i : Input) : Prop where
  first : i.tvalid = true → s.2.current = none → isRdma i.metadataIn = true →
    E.full s.1.metadataFifo = D.full s.1.rdmaPktFifo
  later : i.tvalid = true → ∀ p, s.2.current = some p → s.1.pktFull p.metadata = !p.stored

instance (s : State D E × Ledger) (i : Input) : Decidable (WholeOrNone s i) :=
  decidable_of_iff
    ((i.tvalid = true → s.2.current = none → isRdma i.metadataIn = true →
      E.full s.1.metadataFifo = D.full s.1.rdmaPktFifo) ∧
      (i.tvalid = true → ∀ p ∈ s.2.current, s.1.pktFull p.metadata = !p.stored))
    ⟨fun h => ⟨h.1, h.2⟩, fun h => ⟨h.first, h.later⟩⟩

/-- The words delivered and the words in the FIFOs are those of the stored packets. -/
structure Inv (s : State D E × Ledger) : Prop where
  filter : s.1.filterState = s.2.filterState
  roce : ∃ ws, s.2.storedRoce = s.2.roce ++ ws ∧
    Pairs s.1.filterRdRdmaState (E.contents s.1.metadataFifo) (D.contents s.1.rdmaPktFifo) ws
      s.2.readerState
  nonRoce : s.2.storedNonRoce = s.2.nonRoce ++ D.contents s.1.nonRdmaPktFifo

/-- The ledger with the beat of this cycle. -/
def arrived (s : State D E × Ledger) (i : Input) : Ledger :=
  if i.tvalid then s.2.arrive i.metadataIn i.beat (!s.1.pktFull i.metadataIn) else s.2

section Write

variable {s : State D E × Ledger} {i : Input}

theorem filterState_arrived (h : s.1.filterState = s.2.filterState) :
    s.1.filterNextstate i = (arrived s i).filterState := by
  unfold State.filterNextstate arrived
  rw [h]
  cases i.tvalid with
  | false => rfl
  | true =>
    cases hl : i.beat.tlast with
    | true => simp [Ledger.arrive, hl, Ledger.filterState]
    | false =>
      cases hc : s.2.current with
      | none => simp [Ledger.arrive, hl, hc, Ledger.filterState, Ledger.extend]
      | some p =>
        cases hp : isRdma p.metadata <;>
          simp [Ledger.arrive, hl, hc, hp, Ledger.filterState, Ledger.extend]

theorem metaWrEn_eq (h : s.1.filterState = s.2.filterState) :
    s.1.metaWrEn i =
      (i.tvalid && s.2.current.elim (isRdma i.metadataIn) fun _ => false) := by
  rw [State.metaWrEn, h, Ledger.filterState]
  cases s.2.current with
  | none => rfl
  | some p => cases hr : isRdma p.metadata <;> simp [hr]

theorem rdmaPktWrEn_eq (h : s.1.filterState = s.2.filterState) :
    s.1.rdmaPktWrEn i =
      (i.tvalid && s.2.current.elim (isRdma i.metadataIn) fun p => isRdma p.metadata) := by
  rw [State.rdmaPktWrEn, h, Ledger.filterState]
  cases s.2.current with
  | none => rfl
  | some p => cases hr : isRdma p.metadata <;> simp [hr]

theorem nonRdmaPktWrEn_eq (h : s.1.filterState = s.2.filterState) :
    s.1.nonRdmaPktWrEn i =
      (i.tvalid && !s.2.current.elim (isRdma i.metadataIn) fun p => isRdma p.metadata) := by
  rw [State.nonRdmaPktWrEn, h, Ledger.filterState]
  cases s.2.current with
  | none => rfl
  | some p => cases hr : isRdma p.metadata <;> simp [hr]

/-- What is written for a beat is what the packet has one more of. -/
theorem write_rdma (hfilter : s.1.filterState = s.2.filterState) (hok : WholeOrNone s i) :
    ∃ ws, (arrived s i).storedRoce = s.2.storedRoce ++ ws ∧
      Pairs s.2.readerState
        (if s.1.metaWrEn i && !E.full s.1.metadataFifo then [i.metadataIn] else [])
        (if s.1.rdmaPktWrEn i && !D.full s.1.rdmaPktFifo then [i.beat] else []) ws
        (arrived s i).readerState := by
  rw [metaWrEn_eq hfilter, rdmaPktWrEn_eq hfilter, arrived]
  cases hv : i.tvalid with
  | false => exact ⟨[], by simp, by simpa using Pairs.nil s.2.readerState⟩
  | true =>
    rw [if_pos rfl, Ledger.readerState_arrive, Ledger.readerState]
    refine ⟨_, s.2.storedRoce_arrive _ _ _, ?_⟩
    cases hc : s.2.current with
    | none =>
      cases hr : isRdma i.metadataIn with
      | false => simpa [hr] using Pairs.nil .idle
      | true =>
        have hsame := hok.first hv hc hr
        have hfull : s.1.pktFull i.metadataIn = D.full s.1.rdmaPktFifo := by
          simp [State.pktFull, hr]
        cases hf : D.full s.1.rdmaPktFifo with
        | true => simpa [hr, hsame, hf, hfull] using Pairs.nil .idle
        | false =>
          simpa [hr, hsame, hf, hfull] using Pairs.first i.metadataIn i.beat (.nil _)
    | some p =>
      have hfull := hok.later hv p hc
      cases hr : isRdma p.metadata with
      | false => simpa [hr] using Pairs.nil .idle
      | true =>
        have hroom : D.full s.1.rdmaPktFifo = !p.stored := by
          simpa [State.pktFull, hr] using hfull
        cases hk : p.stored with
        | false => simpa [hr, hroom, hk] using Pairs.nil .idle
        | true => simpa [hr, hroom, hk] using Pairs.later i.beat (.nil _)

theorem write_nonRdma (hfilter : s.1.filterState = s.2.filterState) (hok : WholeOrNone s i) :
    (arrived s i).storedNonRoce = s.2.storedNonRoce ++
      if s.1.nonRdmaPktWrEn i && !D.full s.1.nonRdmaPktFifo then [i.beat] else [] := by
  rw [nonRdmaPktWrEn_eq hfilter, arrived]
  cases hv : i.tvalid with
  | false => simp
  | true =>
    rw [if_pos rfl, Ledger.storedNonRoce_arrive]
    congr 1
    cases hc : s.2.current with
    | none => cases hr : isRdma i.metadataIn <;> simp [hr, State.pktFull]
    | some p =>
      have hfull := hok.later hv p hc
      cases hr : isRdma p.metadata with
      | true => simp [hr]
      | false =>
        have hroom : D.full s.1.nonRdmaPktFifo = !p.stored := by
          simpa [State.pktFull, hr] using hfull
        simp [hr, hroom]

end Write

/-- A cycle that stores no packet in part keeps the invariant. -/
theorem Inv.step {s : State D E × Ledger} (h : Inv s) (i : Input) (hok : WholeOrNone s i) :
    Inv ((packetFilter D E).step s i) where
  filter := filterState_arrived h.filter
  roce := by
    obtain ⟨ws, hws, hpairs⟩ := h.roce
    obtain ⟨ws', rfl, hread⟩ := s.1.read_rdma i hpairs
    obtain ⟨new, hnew, hwrite⟩ := write_rdma h.filter hok
    refine ⟨ws' ++ new, ?_, ?_⟩
    · have hstored : ((packetFilter D E).step s i).2.storedRoce = (arrived s i).storedRoce := rfl
      have hroce : ((packetFilter D E).step s i).2.roce = s.2.roce ++ (s.1.roceOut i).toList := rfl
      rw [hstored, hnew, hws, hroce]
      simp only [List.append_assoc]
    · have hboth := hread.append hwrite
      rw [← E.contents_step, ← D.contents_step] at hboth
      exact hboth
  nonRoce := by
    have hstored : ((packetFilter D E).step s i).2.storedNonRoce =
        (arrived s i).storedNonRoce := rfl
    have hnonRoce : ((packetFilter D E).step s i).2.nonRoce =
        s.2.nonRoce ++ (s.1.nonRoceOut i).toList := rfl
    have hread := s.1.read_nonRdma i
    rw [hstored, write_nonRdma h.filter hok, h.nonRoce, hnonRoce]
    conv_lhs => rw [hread]
    have hcont : D.contents ((packetFilter D E).step s i).1.nonRdmaPktFifo =
        (if s.1.nonRdmaPktRdEn i && !D.empty s.1.nonRdmaPktFifo then
          (D.contents s.1.nonRdmaPktFifo).tail else D.contents s.1.nonRdmaPktFifo) ++
        if s.1.nonRdmaPktWrEn i && !D.full s.1.nonRdmaPktFifo then [i.beat] else [] :=
      D.contents_step _ _ _ _
    rw [hcont]
    simp only [List.append_assoc]

theorem inv_reset : Inv (packetFilter D E).reset where
  filter := rfl
  roce := ⟨[], rfl, by
    have hm : E.contents (packetFilter D E).reset.1.metadataFifo = [] := E.contents_reset
    have hb : D.contents (packetFilter D E).reset.1.rdmaPktFifo = [] := D.contents_reset
    rw [hm, hb]
    exact .nil _⟩
  nonRoce := (D.contents_reset).symm

/-! ## Whole packets -/

/-- Of the received packets some are kept, and what is delivered on each side are the packets
kept for it, one after the other, as far as delivery has come. -/
def Whole (s : State D E × Ledger) : Prop :=
  ∃ kept : List Packet, kept.Sublist s.2.received ∧
    s.2.roce <+: (kept.filter fun p => isRdma p.metadata).flatMap Packet.roceWords ∧
    s.2.nonRoce <+: (kept.filter fun p => !isRdma p.metadata).flatMap Packet.beats

theorem Inv.whole {s : State D E × Ledger} (h : Inv s) : Whole s := by
  refine ⟨s.2.received.filter Packet.stored, List.filter_sublist, ?_, ?_⟩
  · obtain ⟨ws, hws, -⟩ := h.roce
    rw [List.filter_filter]
    refine ⟨ws, hws.symm.trans ?_⟩
    simp only [Ledger.storedRoce, Bool.and_comm]
  · rw [List.filter_filter]
    refine ⟨_, h.nonRoce.symm.trans ?_⟩
    simp only [Ledger.storedNonRoce, Bool.and_comm]

/-- **Whole packets under overflow.**  If each packet finds room for all of its beats and its
metadata or for nothing of it, then whole packets are delivered, each with its own
metadata. -/
theorem whole_of_wholeOrNone (D : FallThrough Beat) (E : FallThrough Metadata) (is : List Input)
    (h : (packetFilter D E).Guarded WholeOrNone (packetFilter D E).reset is) :
    (packetFilter D E).Always Whole (packetFilter D E).reset is :=
  (Machine.always_of_guarded (P := Inv) (fun _ i hs hok => hs.step i hok) inv_reset h).mono
    fun _ => Inv.whole

/-- Metadata is delivered with the first beat of a packet that was received with it. -/
theorem Whole.of_mem {s : State D E × Ledger} (h : Whole s) {b : Beat} {m : Metadata}
    (hw : ⟨b, some m⟩ ∈ s.2.roce) : ∃ p ∈ s.2.received, p.metadata = m ∧ p.first = b := by
  obtain ⟨kept, hkept, hroce, -⟩ := h
  obtain ⟨p, hp, hwp⟩ := List.mem_flatMap.mp (hroce.subset hw)
  refine ⟨p, hkept.subset (List.mem_of_mem_filter hp), ?_⟩
  rcases List.mem_cons.mp hwp with heq | hlater
  · cases heq
    exact ⟨rfl, rfl⟩
  · obtain ⟨b', -, heq⟩ := List.mem_map.mp hlater
    cases heq

/-- A run that ends with metadata and a beat that were not received together. -/
theorem not_whole_of_roceOut {is : List Input} {i : Input} {b : Beat} {m : Metadata}
    (hidle : i.tvalid = false)
    (hout : ((packetFilter D E).run is).1.roceOut i = some ⟨b, some m⟩)
    (hnone : ¬ ∃ p ∈ ((packetFilter D E).run is).2.received, p.metadata = m ∧ p.first = b) :
    ¬ (packetFilter D E).Always Whole (packetFilter D E).reset (is ++ [i]) := by
  intro h
  have hlast := h.last
  rw [Machine.runFrom_append] at hlast
  obtain ⟨p, hp, heq⟩ := hlast.of_mem (b := b) (m := m) (by
    refine List.mem_append_right _ ?_
    rw [Option.mem_toList]
    exact hout)
  refine hnone ⟨p, ?_, heq⟩
  have hreceived : ((packetFilter D E).runFrom ((packetFilter D E).run is) [i]).2.received =
      (arrived ((packetFilter D E).run is) i).received := rfl
  rw [← Machine.run, hreceived, arrived, hidle] at hp
  exact hp

/-- A beat with its metadata, while nobody reads. -/
def beatIn (m : Metadata) (data : BitVec 512) (last : Bool) : Input where
  tvalid := true
  beat := ⟨data, BitVec.allOnes 64, 128, last⟩
  metadataIn := m
  roceTready := false
  nonRoceTready := false

/-- A cycle in which both sides read and nothing comes. -/
def readOut : Input where
  tvalid := false
  beat := ⟨0, 0, 0, false⟩
  metadataIn := 0
  roceTready := true
  nonRoceTready := true

/-- 256 packets of two beats fill the packet FIFO, and only half of the metadata FIFO.  Of the
next packet the metadata is kept and the beats are lost. -/
def congestion : List Input :=
  (List.replicate 256 [beatIn 1 10 false, beatIn 1 11 true]).flatten ++
    [beatIn 3 12 false, beatIn 3 13 true]

/-- When the packets have been read, one more comes. -/
def recovery : List Input :=
  List.replicate 512 readOut ++ [beatIn 5 14 true]

set_option maxRecDepth 100000 in
/-- The last packet goes out with the metadata of the one that was lost. -/
theorem congestion_not_whole :
    ¬ (packetFilter pktFifo metaFifo).Always Whole (packetFilter pktFifo metaFifo).reset
      (congestion ++ recovery ++ [readOut]) := by
  have hout : ((packetFilter pktFifo metaFifo).run (congestion ++ recovery)).1.roceOut readOut =
      some ⟨(beatIn 5 14 true).beat, some 3⟩ := by decide +kernel
  have hnone : ¬ ∃ p ∈ ((packetFilter pktFifo metaFifo).run (congestion ++ recovery)).2.received,
      p.metadata = 3 ∧ p.first = (beatIn 5 14 true).beat := by decide +kernel
  exact not_whole_of_roceOut rfl hout hnone

/-- A packet FIFO and a metadata FIFO of 16 entries. -/
def smallPktFifo : FallThrough Beat := Queue.fallThrough 16 11 ⟨0, 0, 0, false⟩

def smallMetaFifo : FallThrough Metadata := Queue.fallThrough 16 11 0

/-- RDMA packets of one beat fill both FIFOs, and the last one of them is dropped as a whole.
Then another packet comes, and all are read. -/
def fullOnce : List Input :=
  List.replicate 17 (beatIn 1 10 true) ++ [beatIn 0 12 true] ++ List.replicate 17 readOut

theorem whole_fullOnce :
    (packetFilter smallPktFifo smallMetaFifo).Always Whole
        (packetFilter smallPktFifo smallMetaFifo).reset fullOnce ∧
      (((packetFilter smallPktFifo smallMetaFifo).run fullOnce).2.received.filter
        fun p => !p.stored) = [⟨1, (beatIn 1 10 true).beat, [], false⟩] ∧
      ((packetFilter smallPktFifo smallMetaFifo).run fullOnce).2.roce.length = 16 :=
  ⟨whole_of_wholeOrNone smallPktFifo smallMetaFifo _ (by decide +kernel), by decide +kernel,
    by decide +kernel⟩

/-! ## The split -/

/-- No FIFO is full. -/
structure Roomy (s : State D E × Ledger) : Prop where
  rdma : D.full s.1.rdmaPktFifo = false
  metadata : E.full s.1.metadataFifo = false
  nonRdma : D.full s.1.nonRdmaPktFifo = false

instance (s : State D E × Ledger) : Decidable (Roomy s) :=
  decidable_of_iff
    (D.full s.1.rdmaPktFifo = false ∧ E.full s.1.metadataFifo = false ∧
      D.full s.1.nonRdmaPktFifo = false)
    ⟨fun h => ⟨h.1, h.2.1, h.2.2⟩, fun h => ⟨h.rdma, h.metadata, h.nonRdma⟩⟩

/-- What the RDMA engine is to see: the packets with bit 0 set at their first beat. -/
def Ledger.roceStream (l : Ledger) : List RoceWord :=
  (l.received.filter fun p => isRdma p.metadata).flatMap Packet.roceWords

/-- What the host is to see: the remaining packets. -/
def Ledger.nonRoceStream (l : Ledger) : List Beat :=
  (l.received.filter fun p => !isRdma p.metadata).flatMap Packet.beats

/-- Each side has seen its packets, as far as delivery has come. -/
structure Split (s : State D E × Ledger) : Prop where
  roce : s.2.roce <+: s.2.roceStream
  nonRoce : s.2.nonRoce <+: s.2.nonRoceStream

/-- Each side has seen its packets. -/
structure Delivered (s : State D E × Ledger) : Prop where
  roce : s.2.roce = s.2.roceStream
  nonRoce : s.2.nonRoce = s.2.nonRoceStream

/-- The invariant while all packets are stored. -/
structure InvAll (s : State D E × Ledger) : Prop extends Inv s where
  stored : ∀ p ∈ s.2.received, p.stored = true

theorem State.pktFull_of_roomy {s : State D E × Ledger} (h : Roomy s) (m : Metadata) :
    s.1.pktFull m = false := by
  unfold State.pktFull
  cases isRdma m
  · exact h.nonRdma
  · exact h.rdma

namespace InvAll

variable {s : State D E × Ledger}

theorem storedRoce_eq (h : InvAll s) : s.2.storedRoce = s.2.roceStream := by
  unfold Ledger.storedRoce Ledger.roceStream
  congr 1
  refine List.filter_congr fun p hp => ?_
  rw [h.stored p hp, Bool.true_and]

theorem storedNonRoce_eq (h : InvAll s) : s.2.storedNonRoce = s.2.nonRoceStream := by
  unfold Ledger.storedNonRoce Ledger.nonRoceStream
  congr 1
  refine List.filter_congr fun p hp => ?_
  rw [h.stored p hp, Bool.true_and]

theorem split (h : InvAll s) : Split s where
  roce := by
    obtain ⟨ws, hws, -⟩ := h.roce
    exact ⟨ws, hws.symm.trans h.storedRoce_eq⟩
  nonRoce := ⟨_, h.nonRoce.symm.trans h.storedNonRoce_eq⟩

/-- With room in the FIFOs the next packet is stored as well. -/
theorem wholeOrNone (h : InvAll s) (i : Input) (hroomy : Roomy s) : WholeOrNone s i where
  first := fun _ _ _ => hroomy.metadata.trans hroomy.rdma.symm
  later := fun _ p hp => by
    rw [State.pktFull_of_roomy hroomy, h.stored p (by simp [Ledger.received, hp])]
    rfl

theorem step (h : InvAll s) (i : Input) (hok : WholeOrNone s i)
    (hroom : i.tvalid = true → Roomy s) : InvAll ((packetFilter D E).step s i) where
  toInv := h.toInv.step i hok
  stored := by
    have hreceived : ((packetFilter D E).step s i).2.received = (arrived s i).received := rfl
    rw [hreceived, arrived]
    cases hv : i.tvalid with
    | false => exact h.stored
    | true =>
      rw [if_pos rfl, Ledger.received_arrive, State.pktFull_of_roomy (hroom hv), Ledger.extend]
      intro p hp
      rcases List.mem_append.mp hp with hp | hp
      · exact h.stored p (List.mem_append_left _ hp)
      · cases hc : s.2.current with
        | none =>
          rw [hc, List.mem_singleton] at hp
          rw [hp]
          rfl
        | some q =>
          rw [hc, List.mem_singleton] at hp
          rw [hp]
          exact h.stored q (by simp [Ledger.received, hc])

end InvAll

/-! ## Delivery -/

/-- Nothing comes, and both sides read. -/
structure Quiet (i : Input) : Prop where
  tvalid : i.tvalid = false
  roce : i.roceTready = true
  nonRoce : i.nonRoceTready = true

/-- The packet FIFOs have been read. -/
def Drained (s : State D E × Ledger) : Prop :=
  D.contents s.1.rdmaPktFifo = [] ∧ D.contents s.1.nonRdmaPktFifo = []

/-- The beats to deliver, and the cycles until the next one of each FIFO is shown. -/
def toDo (s : State D E × Ledger) : ℕ ×ₗ ℕ :=
  toLex ((D.contents s.1.rdmaPktFifo).length + (D.contents s.1.nonRdmaPktFifo).length,
    D.wait s.1.rdmaPktFifo + E.wait s.1.metadataFifo + D.wait s.1.nonRdmaPktFifo)

section Progress

variable {s : State D E × Ledger} {i : Input}

/-- What a quiet cycle does to the FIFOs. -/
theorem step_quiet (h : Inv s) (hi : Quiet i) :
    ((packetFilter D E).step s i).1.rdmaPktFifo =
        D.step s.1.rdmaPktFifo (s.1.rdmaPktRdEn i) false i.beat ∧
      ((packetFilter D E).step s i).1.metadataFifo =
        E.step s.1.metadataFifo (s.1.metaRdEn i) false i.metadataIn ∧
      ((packetFilter D E).step s i).1.nonRdmaPktFifo =
        D.step s.1.nonRdmaPktFifo (s.1.nonRdmaPktRdEn i) false i.beat := by
  have hmeta := metaWrEn_eq (i := i) h.filter
  have hrdma := rdmaPktWrEn_eq (i := i) h.filter
  have hnon := nonRdmaPktWrEn_eq (i := i) h.filter
  rw [hi.tvalid, Bool.false_and] at hmeta hrdma hnon
  refine ⟨?_, ?_, ?_⟩
  · change D.step _ _ (s.1.rdmaPktWrEn i) _ = _
    rw [hrdma]
  · change E.step _ _ (s.1.metaWrEn i) _ = _
    rw [hmeta]
  · change D.step _ _ (s.1.nonRdmaPktWrEn i) _ = _
    rw [hnon]

/-- If nothing is read in a quiet cycle, a beat or its metadata is not shown yet. -/
theorem wait_pos_of_quiet (h : Inv s) (hi : Quiet i) (hrd : s.1.rdmaPktRdEn i = false)
    (hnrd : s.1.nonRdmaPktRdEn i = false) (hgoal : ¬ Drained s) :
    0 < D.wait s.1.rdmaPktFifo + E.wait s.1.metadataFifo + D.wait s.1.nonRdmaPktFifo := by
  by_cases hrdma : D.contents s.1.rdmaPktFifo = []
  · have hnon : D.contents s.1.nonRdmaPktFifo ≠ [] := fun hnon => hgoal ⟨hrdma, hnon⟩
    have he : D.empty s.1.nonRdmaPktFifo = true := by
      cases hr : s.1.filterRdNonRdmaState <;> simp_all [State.nonRdmaPktRdEn, hi.nonRoce]
    have := D.wait_pos hnon he
    omega
  · cases he : D.empty s.1.rdmaPktFifo with
    | true =>
      have := D.wait_pos hrdma he
      omega
    | false =>
      obtain ⟨ws, -, hpairs⟩ := h.roce
      cases hr : s.1.filterRdRdmaState with
      | reading => simp [State.rdmaPktRdEn, hr, hi.roce, he] at hrd
      | idle =>
        rw [hr] at hpairs
        have hem : E.empty s.1.metadataFifo = true := by
          simpa [State.rdmaPktRdEn, hr, hi.roce, he] using hrd
        have := E.wait_pos (hpairs.metadata_ne_nil hrdma) hem
        omega

theorem toDo_step (h : Inv s) (hi : Quiet i) (hgoal : ¬ Drained s) :
    toDo ((packetFilter D E).step s i) < toDo s := by
  obtain ⟨hrdma, hmeta, hnon⟩ := step_quiet h hi
  rw [toDo, toDo, Prod.Lex.toLex_lt_toLex, hrdma, hmeta, hnon]
  have hle := D.length_contents_read_le s.1.rdmaPktFifo (s.1.rdmaPktRdEn i) i.beat
  have hnle := D.length_contents_read_le s.1.nonRdmaPktFifo (s.1.nonRdmaPktRdEn i) i.beat
  cases hrd : s.1.rdmaPktRdEn i with
  | true =>
    have he : D.empty s.1.rdmaPktFifo = false := by
      cases hr : s.1.filterRdRdmaState <;> simp_all [State.rdmaPktRdEn]
    have hlt := D.length_contents_read he i.beat
    left
    dsimp only
    omega
  | false =>
    have hmrd : s.1.metaRdEn i = false := by
      cases hr : s.1.filterRdRdmaState <;> simp_all [State.rdmaPktRdEn, State.metaRdEn]
    rw [hrd] at hle
    cases hnrd : s.1.nonRdmaPktRdEn i with
    | true =>
      have he : D.empty s.1.nonRdmaPktFifo = false := by
        cases hr : s.1.filterRdNonRdmaState <;> simp_all [State.nonRdmaPktRdEn]
      have hlt := D.length_contents_read he i.beat
      left
      dsimp only
      omega
    | false =>
      have hpos := wait_pos_of_quiet h hi hrd hnrd hgoal
      have hrdmaWait := D.wait_idle s.1.rdmaPktFifo i.beat
      have hmetaWait := E.wait_idle s.1.metadataFifo i.metadataIn
      have hnonWait := D.wait_idle s.1.nonRdmaPktFifo i.beat
      right
      rw [hmrd, D.contents_idle, D.contents_idle]
      exact ⟨rfl, by dsimp only; omega⟩

end Progress

theorem InvAll.delivered {s : State D E × Ledger} (h : InvAll s) (hd : Drained s) :
    Delivered s where
  roce := by
    obtain ⟨ws, hws, hpairs⟩ := h.roce
    rw [hd.1] at hpairs
    rw [hpairs.eq_nil, List.append_nil] at hws
    exact hws.symm.trans h.storedRoce_eq
  nonRoce := by
    have heq := h.nonRoce
    rw [hd.2, List.append_nil] at heq
    exact heq.symm.trans h.storedNonRoce_eq

theorem invAll_reset : InvAll (packetFilter D E).reset where
  toInv := inv_reset
  stored := fun p hp => by cases hp

/-- **The split is exact.**  While no FIFO is full, the RDMA engine sees the packets with bit
0 set at their first beat and the host sees the others: in order, each beat once, and the
metadata of a packet with its first beat.  Nothing stays behind: when nothing comes any more
and both sides read, everything is delivered after finitely many cycles. -/
theorem split_of_roomy (D : FallThrough Beat) (E : FallThrough Metadata) (is : List Input)
    (h : (packetFilter D E).Always Roomy (packetFilter D E).reset is) :
    (packetFilter D E).Always Split (packetFilter D E).reset is ∧
      ∀ q : ℕ → Input, (∀ t, Quiet (q t)) →
        ∃ n, Delivered ((packetFilter D E).run (is ++ (List.range n).map q)) := by
  have hinv := Machine.always_of_always (P := InvAll)
    (fun _ i hs hroomy => hs.step i (hs.wholeOrNone i hroomy) fun _ => hroomy) invAll_reset h
  refine ⟨hinv.mono fun s => InvAll.split, fun q hq => ?_⟩
  have hquiet : ∀ s i, InvAll s → Quiet i → InvAll ((packetFilter D E).step s i) :=
    fun s i hs hi => hs.step i
      ⟨fun hv => absurd (hi.tvalid ▸ hv) Bool.false_ne_true,
        fun hv => absurd (hi.tvalid ▸ hv) Bool.false_ne_true⟩
      fun hv => absurd (hi.tvalid ▸ hv) Bool.false_ne_true
  obtain ⟨n, hinv', hn⟩ := Machine.exists_runFrom_of_measure
    (G := fun s => InvAll s ∧ Drained s) toDo hquiet
    (fun s i hs hi hg => toDo_step hs.toInv hi fun hd => hg ⟨hs, hd⟩) hinv.last q hq
  refine ⟨n, ?_⟩
  rw [Machine.run, Machine.runFrom_append]
  exact hinv'.delivered hn

/-- An RDMA packet and another one. -/
theorem split_twoPackets :
    (packetFilter pktFifo metaFifo).Always Split (packetFilter pktFifo metaFifo).reset
        [beatIn 1 10 false, readOut, beatIn 1 11 true, beatIn 0 12 true] ∧
      ∀ q : ℕ → Input, (∀ t, Quiet (q t)) →
        ∃ n, Delivered ((packetFilter pktFifo metaFifo).run
          ([beatIn 1 10 false, readOut, beatIn 1 11 true, beatIn 0 12 true] ++
            (List.range n).map q)) :=
  split_of_roomy pktFifo metaFifo _ (by decide +kernel)

end PacketFilter
end RecoNIC
