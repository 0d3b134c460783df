import RecoNIC.Arithmetic.Framing
import RecoNIC.Arithmetic.Words
import RecoNIC.PacketClassification.Classification
import RecoNIC.PacketClassification.Steering

/-!
# From the MAC to the RDMA engine

`reconic.sv` buffers what the MAC receives and gives it to the parser, and the metadata with
the first beat of each packet.  `packet_classification.sv` takes the size of a packet out of
the metadata that the parser returns, and gives both to the filter.  The filter sends the
packet to the RDMA engine or to the host.

The parser is generated from its P4 program.  What it makes of a packet is `xilinxPipeline`.
When it takes a beat and when it returns one, how it spreads a packet over beats, and what it
shows as metadata behind the first beat, is left to the cycle.

Along the way a packet is in three places in part.  `Inv` follows it: what the MAC has handed
over is in the buffer or with the parser, and the ledger of the filter holds the packets cut
out of what the parser has returned.
-/

namespace RecoNIC
namespace ReceivePath

open Synchronous PacketFilter PacketParser BitFormat Framing

/-! ## The source -/

/-- One beat for the parser. -/
structure PcIn where
  tdata : BitVec 512
  tkeep : BitVec 64
  tlast : Bool
  /-- `pc_in_metadata`, if it is valid. -/
  metadata : Option Metadata
  deriving DecidableEq

/-- One beat of the parser, and its metadata port at that time. -/
structure ParserOut where
  tdata : BitVec 512
  tkeep : BitVec 64
  tlast : Bool
  metadata : Metadata
  deriving DecidableEq

/-- The inputs of one cycle. -/
structure Input where
  cmacRxTvalid : Bool
  cmacRx : Beat
  pcInTready : Bool
  parserOutTvalid : Bool
  parserOut : ParserOut
  roceTready : Bool
  nonRoceTready : Bool

/-- `parser_out_tuser_size`: the field `pktlen` of the metadata. -/
def Input.parserOutTuserSize (i : Input) : BitVec 16 :=
  if i.parserOutTvalid then i.parserOut.metadata.extractLsb' 114 16 else 0

/-- The beat that the filter is given. -/
def Input.filterBeat (i : Input) : Beat :=
  ⟨i.parserOut.tdata, i.parserOut.tkeep, i.parserOutTuserSize, i.parserOut.tlast⟩

/-- The inputs of the filter. -/
def Input.filterIn (i : Input) : PacketFilter.Input where
  tvalid := i.parserOutTvalid
  beat := i.filterBeat
  metadataIn := i.parserOut.metadata
  roceTready := i.roceTready
  nonRoceTready := i.nonRoceTready

/-- `pc_in_metadata`: the size of the packet, and zeros. -/
def pcInMetadata (b : Beat) : PcMetadata := { PcMetadata.zero with pktlen := b.tuserSize }

/-- The beat for the parser, and whether its metadata is valid. -/
def pcInOf (b : Beat × Bool) : PcIn :=
  ⟨b.1.tdata, b.1.tkeep, b.1.tlast, if b.2 then some (pcInMetadata b.1).word else none⟩

variable (B D : FallThrough Beat) (E : FallThrough Metadata)

/-- The registers in front of the parser. -/
structure Front where
  bufferMacRxData : B.State
  setPcInMetadataValidLow : Bool

variable {B D E}

namespace Front

/-- After reset. -/
def reset : Front B := ⟨B.reset, true⟩

variable (s : Front B) (i : Input)

/-- `wr_en`: the MAC hands over a beat. -/
def wrEn : Bool := !B.full s.bufferMacRxData && i.cmacRxTvalid

/-- `rd_en`, and so `pc_in_tvalid`. -/
def rdEn : Bool := i.pcInTready && !B.empty s.bufferMacRxData

/-- What the parser takes. -/
def pcIn : Option PcIn :=
  if s.rdEn i then some (pcInOf (B.dout s.bufferMacRxData, s.setPcInMetadataValidLow)) else none

/-- One clock edge. -/
def step : Front B where
  bufferMacRxData := B.step s.bufferMacRxData (s.rdEn i) (s.wrEn i) i.cmacRx
  setPcInMetadataValidLow :=
    if s.rdEn i then (B.dout s.bufferMacRxData).tlast else s.setPcInMetadataValidLow

end Front

/-- What went over the three streams in front of the filter. -/
structure Log where
  /-- Handed over by the MAC. -/
  cmacRx : List Beat
  /-- Taken by the parser. -/
  pcIn : List PcIn
  /-- Returned by the parser. -/
  parserOut : List ParserOut

variable (B D E) in
/-- The buffer, and the filter with its ledger. -/
structure Stages where
  front : Front B
  filter : PacketFilter.State D E × Ledger

/-- One clock edge. -/
def Stages.step (s : Stages B D E) (i : Input) : Stages B D E where
  front := s.front.step i
  filter := (packetFilter D E).step s.filter i.filterIn

/-- One cycle. -/
def note (l : Log) (s : Stages B D E) (i : Input) : Log where
  cmacRx := l.cmacRx ++ if s.front.wrEn i then [i.cmacRx] else []
  pcIn := l.pcIn ++ (s.front.pcIn i).toList
  parserOut := l.parserOut ++ if i.parserOutTvalid then [i.parserOut] else []

variable (B D E) in
/-- The way of a packet, watched. -/
def receivePath : Machine (Stages B D E × Log) Input :=
  Machine.watch ⟨⟨.reset, (packetFilter D E).reset⟩, Stages.step⟩ ⟨[], [], []⟩ note

/-! ## Packets -/

/-- The bytes of a beat that are kept. -/
def keptBytes (tdata : BitVec 512) (tkeep : BitVec 64) : List (BitVec 8) :=
  ((List.range 64).filter fun k => tkeep.getLsbD k).map fun k => tdata.extractLsb' (8 * k) 8

/-- The bytes of a packet. -/
def packetBytes (p : List Beat) : List (BitVec 8) := p.flatMap fun b => keptBytes b.tdata b.tkeep

/-- The size that comes with the first beat. -/
def packetSize (p : List Beat) : BitVec 16 := p.head?.elim 0 Beat.tuserSize

/-- The metadata that the parser is given for a packet. -/
def metadataIn (p : List Beat) : PcMetadata := p.head?.elim .zero pcInMetadata

/-- The packet as it is given to the parser: the metadata with its first beat, and only with
that. -/
def presented (p : List Beat) : List PcIn := (firstMarked p).map pcInOf

/-- The beat of the filter for a beat of the parser. -/
def ParserOut.beat (b : ParserOut) : Beat :=
  ⟨b.tdata, b.tkeep, b.metadata.extractLsb' 114 16, b.tlast⟩

/-- What the generated parser returns for a packet: the bytes and the metadata that its
program computes, over any beats. -/
structure Processed (p : List Beat) (q : List ParserOut) : Prop where
  ends : Ends ParserOut.tlast q
  outcome : ∃ m, xilinxPipeline (packetBytes p) (metadataIn p) =
    .ok (packetBytes (q.map ParserOut.beat), m) ∧ q.head?.map ParserOut.metadata = some m.word

/-- A packet as a receiver puts it together. -/
structure Delivery where
  bytes : List (BitVec 8)
  size : BitVec 16
  metadata : Option Metadata

/-- The packet that the RDMA engine puts together from these words. -/
def roceDelivery (ws : List RoceWord) : Delivery where
  bytes := packetBytes (ws.map RoceWord.beat)
  size := packetSize (ws.map RoceWord.beat)
  metadata := ws.head?.bind RoceWord.metadata

/-- The packet that the host puts together from these beats. -/
def nonRoceDelivery (bs : List Beat) : Delivery := ⟨packetBytes bs, packetSize bs, none⟩

/-- The headers of a packet. -/
def headers (p : List Beat) : Option Headers :=
  (parserInst (bytesBits (packetBytes p))).toOption.map Parsing.hdr

/-- UDP, with zeros where the BTH has the connection type. -/
def isRoce (p : List Beat) : Bool :=
  (headers p).any fun hdr => hdr.isUdp && hdr.bth.any fun bth => bth.connType == 0#3

/-- What the RDMA engine is to put together for a packet. -/
def forRoce (p : List Beat) : Delivery where
  bytes := packetBytes p
  size := packetSize p
  metadata := (headers p).map fun hdr => (forwardInst hdr (metadataIn p)).word

/-- What the host is to put together for a packet. -/
def forHost (p : List Beat) : Delivery := ⟨packetBytes p, packetSize p, none⟩

/-! ## One packet -/

section Packet

variable {p : List Beat} {q : List ParserOut}

/-- The size is read where `pktlen` is. -/
theorem extract_word (m : PcMetadata) : m.word.extractLsb' 114 16 = m.pktlen := by
  unfold PcMetadata.word
  simp (disch := omega) only [BitVec.extractLsb'_append_eq_of_le]
  exact BitVec.extractLsb'_append_eq_right

/-- The filter looks at the first beat. -/
def bit (q : List ParserOut) : Bool := q.head?.any fun b => isRdma b.metadata

/-- The packet as the RDMA engine is given it. -/
def roceWordsOf : List ParserOut → List RoceWord
  | [] => []
  | b :: bs => ⟨b.beat, some b.metadata⟩ :: bs.map fun b => ⟨b.beat, none⟩

theorem map_beat_roceWordsOf (q : List ParserOut) :
    (roceWordsOf q).map RoceWord.beat = q.map ParserOut.beat := by
  cases q with
  | nil => rfl
  | cons b bs => simp [roceWordsOf]

theorem map_tlast_roceWordsOf (q : List ParserOut) :
    (roceWordsOf q).map (fun w => w.beat.tlast) = q.map ParserOut.tlast := by
  have h := congrArg (List.map Beat.tlast) (map_beat_roceWordsOf q)
  rwa [List.map_map, List.map_map] at h

namespace Processed

/-- The headers that the program saw. -/
theorem exists_parsed (h : Processed p q) :
    ∃ s b bs, parserInst (bytesBits (packetBytes p)) = .ok s ∧ q = b :: bs ∧
      b.metadata = (forwardInst s.hdr (metadataIn p)).word ∧
      packetBytes (q.map ParserOut.beat) = packetBytes p := by
  obtain ⟨m, hm, hhead⟩ := h.outcome
  obtain ⟨s, hs, hout⟩ := bind_eq_ok.mp hm
  rw [parserInst_image hs, bitsBytes_bytesBits] at hout
  obtain ⟨hbytes, rfl⟩ := Prod.mk.inj (Except.ok.inj hout)
  cases q with
  | nil => cases hhead
  | cons b bs => exact ⟨s, b, bs, hs, rfl, Option.some.inj hhead, hbytes.symm⟩

theorem bit_eq (h : Processed p q) : bit q = isRoce p := by
  obtain ⟨s, b, bs, hs, rfl, hb, -⟩ := h.exists_parsed
  rw [Bool.eq_iff_iff, isRoce, headers, hs, bit, List.head?_cons, Option.any_some, hb,
    isRdma_iff (parserInst_shaped hs)]
  simp [Except.toOption, Option.any_eq_true]

theorem packetSize_eq (h : Processed p q) : packetSize (q.map ParserOut.beat) = packetSize p := by
  obtain ⟨s, b, bs, -, rfl, hb, -⟩ := h.exists_parsed
  rw [packetSize, List.map_cons, List.head?_cons, Option.elim_some, ParserOut.beat, hb,
    extract_word]
  cases p <;> rfl

theorem roceDelivery_eq (h : Processed p q) : roceDelivery (roceWordsOf q) = forRoce p := by
  have hsize := h.packetSize_eq
  obtain ⟨s, b, bs, hs, rfl, hb, hbytes⟩ := h.exists_parsed
  rw [roceDelivery, map_beat_roceWordsOf, hsize, hbytes, forRoce, headers, hs]
  simp [roceWordsOf, hb, Except.toOption]

theorem nonRoceDelivery_eq (h : Processed p q) :
    nonRoceDelivery (q.map ParserOut.beat) = forHost p := by
  have hsize := h.packetSize_eq
  obtain ⟨-, b, bs, -, rfl, -, hbytes⟩ := h.exists_parsed
  rw [nonRoceDelivery, hsize, hbytes, forHost]

end Processed

end Packet

/-! ## What the filter has received -/

/-- The packet in the ledger of the filter. -/
def gathered : List ParserOut → Option Packet
  | [] => none
  | b :: bs => some ⟨b.metadata, b.beat, bs.map ParserOut.beat, true⟩

@[simp] theorem gathered_nil : gathered [] = none := rfl

theorem gathered_concat {l : Ledger} {bs : List ParserOut} (h : l.current = gathered bs)
    (b : ParserOut) : some (l.extend b.metadata b.beat true) = gathered (bs ++ [b]) := by
  rw [Ledger.extend, h]
  cases bs with
  | nil => rfl
  | cons c bs => simp [gathered]

/-- What the RDMA engine is to see, word by word. -/
theorem flatMap_roceWords (Q : List (List ParserOut)) :
    ((Q.filterMap gathered).filter fun p => isRdma p.metadata).flatMap Packet.roceWords =
      (Q.filter bit).flatMap roceWordsOf := by
  induction Q with
  | nil => rfl
  | cons q Q ih =>
    cases q with
    | nil => simpa [List.filterMap_cons, bit] using ih
    | cons b bs =>
      cases hb : isRdma b.metadata with
      | false => simpa [gathered, bit, hb] using ih
      | true => simp [gathered, bit, hb, ih, roceWordsOf, Packet.roceWords]

/-- What the host is to see, beat by beat. -/
theorem flatMap_beats (Q : List (List ParserOut)) :
    ((Q.filterMap gathered).filter fun p => !isRdma p.metadata).flatMap Packet.beats =
      (Q.filter fun q => !bit q).flatMap fun q => q.map ParserOut.beat := by
  induction Q with
  | nil => rfl
  | cons q Q ih =>
    cases q with
    | nil => simpa [List.filterMap_cons, bit] using ih
    | cons b bs =>
      cases hb : isRdma b.metadata with
      | false => simp [gathered, bit, hb, ih, Packet.beats]
      | true => simpa [gathered, bit, hb] using ih

/-- The ledger of the filter holds the packets cut out of what the parser has returned. -/
structure Gathered (l : Ledger) (out : List ParserOut) : Prop where
  finished : l.finished = (packets ParserOut.tlast out).filterMap gathered
  current : l.current = gathered (rest ParserOut.tlast out)

namespace Gathered

variable {l : Ledger} {out : List ParserOut}

theorem arrive (h : Gathered l out) (b : ParserOut) :
    Gathered (l.arrive b.metadata b.beat true) (out ++ [b]) := by
  have hmore := gathered_concat h.current b
  have hb : b.beat.tlast = b.tlast := rfl
  by_cases hlast : b.tlast = true
  · refine ⟨?_, ?_⟩
    · rw [packets, cut_concat, extend, if_pos hlast, List.filterMap_append, Ledger.arrive, hb,
        if_pos hlast, ← packets, ← h.finished, List.filterMap_cons, ← rest, ← hmore]
      rfl
    · rw [rest, cut_concat, extend, if_pos hlast, Ledger.arrive, hb, if_pos hlast]
      rfl
  · refine ⟨?_, ?_⟩
    · rw [packets, cut_concat, extend, if_neg hlast, Ledger.arrive, hb, if_neg hlast, ← packets,
        ← h.finished]
    · rw [rest, cut_concat, extend, if_neg hlast, Ledger.arrive, hb, if_neg hlast, ← rest,
        ← hmore]

theorem received (h : Gathered l out) :
    l.received =
      (packets ParserOut.tlast out ++ [rest ParserOut.tlast out]).filterMap gathered := by
  rw [Ledger.received, h.finished, h.current, List.filterMap_append]
  cases h' : gathered (rest ParserOut.tlast out) <;> simp [h']

end Gathered

/-! ## One cycle -/

/-- What the parser has taken, the buffer with it is what the MAC has handed over. -/
structure Buffered (s : Front B) (l : Log) (taken : List Beat) : Prop where
  cmacRx : l.cmacRx = taken ++ B.contents s.bufferMacRxData
  pcIn : l.pcIn = (starts Beat.tlast true taken).map pcInOf
  between : s.setPcInMetadataValidLow = between Beat.tlast true taken

theorem Buffered.step {s : Stages B D E} {l : Log} {taken : List Beat}
    (h : Buffered s.front l taken) (i : Input) :
    ∃ taken', Buffered (s.front.step i) (note l s i) taken' := by
  have hcont := B.contents_step s.front.bufferMacRxData (s.front.rdEn i) (s.front.wrEn i) i.cmacRx
  have hwr : (s.front.wrEn i && !B.full s.front.bufferMacRxData) = s.front.wrEn i := by
    rw [Front.wrEn]
    cases B.full s.front.bufferMacRxData <;> simp
  rw [hwr] at hcont
  cases hrd : s.front.rdEn i with
  | false =>
    refine ⟨taken, ?_, ?_, ?_⟩
    · rw [note, Front.step, hcont, h.cmacRx, hrd]
      simp
    · rw [note, Front.pcIn, hrd, h.pcIn]
      simp
    · rw [Front.step, hrd]
      exact h.between
  | true =>
    have he : B.empty s.front.bufferMacRxData = false := by
      rw [Front.rdEn, Bool.and_eq_true] at hrd
      simpa using hrd.2
    refine ⟨taken ++ [B.dout s.front.bufferMacRxData], ?_, ?_, ?_⟩
    · rw [note, Front.step, hcont, h.cmacRx, hrd, he]
      conv_lhs => rw [B.contents_eq_cons _ he]
      simp
    · rw [note, Front.pcIn, hrd, h.pcIn, starts_append, ← h.between]
      simp [starts]
    · rw [Front.step, hrd, between_concat]
      rfl

/-- What went over the streams is where it belongs. -/
structure Inv (s : Stages B D E × Log) : Prop where
  front : ∃ taken, Buffered s.1.front s.2 taken
  filter : InvAll s.1.filter
  gathered : Gathered s.1.filter.2 s.2.parserOut

theorem inv_reset : Inv (receivePath B D E).reset where
  front := by
    refine ⟨[], ?_, rfl, rfl⟩
    have hbuf : B.contents (receivePath B D E).reset.1.front.bufferMacRxData = [] :=
      B.contents_reset
    rw [hbuf]
    rfl
  filter := invAll_reset
  gathered := ⟨rfl, rfl⟩

/-- A cycle in which the filter has room for what it is given. -/
theorem Inv.step {s : Stages B D E × Log} (h : Inv s) (i : Input)
    (hroom : i.parserOutTvalid = true → Roomy s.1.filter) :
    Inv ((receivePath B D E).step s i) where
  front := by
    obtain ⟨taken, htaken⟩ := h.front
    exact htaken.step i
  filter := by
    refine h.filter.step i.filterIn ⟨fun hv => ?_, fun hv => ?_⟩ hroom
    · exact (h.filter.wholeOrNone i.filterIn (hroom hv)).first hv
    · exact (h.filter.wholeOrNone i.filterIn (hroom hv)).later hv
  gathered := by
    have hledger : ((receivePath B D E).step s i).1.filter.2 =
        PacketFilter.note s.1.filter.2 s.1.filter.1 i.filterIn := rfl
    have hout : ((receivePath B D E).step s i).2.parserOut =
        s.2.parserOut ++ if i.parserOutTvalid then [i.parserOut] else [] := rfl
    rw [hledger, hout, PacketFilter.note]
    cases hv : i.parserOutTvalid with
    | false => simpa [Input.filterIn, hv] using ⟨h.gathered.finished, h.gathered.current⟩
    | true =>
      have hbeat : i.filterIn.beat = i.parserOut.beat := by
        simp [Input.filterIn, Input.filterBeat, Input.parserOutTuserSize, ParserOut.beat, hv]
      have hfull := State.pktFull_of_roomy (hroom hv) i.filterIn.metadataIn
      have hnext := h.gathered.arrive i.parserOut
      rw [hbeat, hfull]
      simpa [Input.filterIn, hv] using ⟨hnext.finished, hnext.current⟩

/-! ## What arrives -/

/-- Entries that are selected and shown alike. -/
theorem map_filter_of_forall₂ {α β γ : Type*} {R : α → β → Prop} {f : α → γ} {f' : β → γ}
    {g : α → Bool} {g' : β → Bool} (hg : ∀ a b, R a b → g' b = g a)
    (hf : ∀ a b, R a b → f' b = f a) {as : List α} {bs : List β} (h : List.Forall₂ R as bs) :
    (bs.filter g').map f' = (as.filter g).map f := by
  induction h with
  | nil => rfl
  | @cons a b as bs hab _ ih =>
    rw [List.filter_cons, List.filter_cons, hg a b hab]
    by_cases ha : g a = true
    · rw [if_pos ha, if_pos ha, List.map_cons, List.map_cons, hf a b hab, ih]
    · rw [if_neg ha, if_neg ha, ih]

/-- The words of a packet that comes to the RDMA engine. -/
def roceLast (w : RoceWord) : Bool := w.beat.tlast

/-- The packets of each side are among those that belong there: the first of them, in order,
with their bytes, their size and, for the RDMA engine, their metadata. -/
structure Sorted (ps : List (List Beat)) (l : Ledger) : Prop where
  roce : (packets roceLast l.roce).map roceDelivery <+: (ps.filter isRoce).map forRoce
  nonRoce : (packets Beat.tlast l.nonRoce).map nonRoceDelivery <+:
    (ps.filter fun p => !isRoce p).map forHost

/-- Each side has put together all of its packets. -/
structure Complete (ps : List (List Beat)) (l : Ledger) : Prop where
  roce : (packets roceLast l.roce).map roceDelivery = (ps.filter isRoce).map forRoce
  nonRoce : (packets Beat.tlast l.nonRoce).map nonRoceDelivery =
    (ps.filter fun p => !isRoce p).map forHost

section Streams

variable {ps : List (List Beat)} {qs : List (List ParserOut)}

theorem forRoce_eq (h : List.Forall₂ Processed ps qs) :
    ((qs.filter bit).map roceWordsOf).map roceDelivery = (ps.filter isRoce).map forRoce := by
  rw [List.map_map]
  exact map_filter_of_forall₂ (fun _ _ hpq => hpq.bit_eq) (fun _ _ hpq => hpq.roceDelivery_eq) h

theorem forHost_eq (h : List.Forall₂ Processed ps qs) :
    ((qs.filter fun q => !bit q).map fun q => q.map ParserOut.beat).map nonRoceDelivery =
      (ps.filter fun p => !isRoce p).map forHost := by
  rw [List.map_map]
  exact map_filter_of_forall₂ (fun _ _ hpq => by rw [hpq.bit_eq])
    (fun _ _ hpq => hpq.nonRoceDelivery_eq) h

theorem ends_of_processed (h : List.Forall₂ Processed ps qs) :
    ∀ q ∈ qs, Ends ParserOut.tlast q := by
  induction h with
  | nil => exact fun q hq => absurd hq List.not_mem_nil
  | cons hpq _ ih =>
    intro q hq
    rcases List.mem_cons.mp hq with rfl | hq
    · exact hpq.ends
    · exact ih q hq

/-- The parser is given the packets as they are meant to be given. -/
theorem Buffered.isPrefix_presented {s : Front B} {l : Log} {taken : List Beat}
    (h : Buffered s l taken) (hps : ∀ p ∈ ps, Ends Beat.tlast p) (hmac : l.cmacRx <+: ps.flatten) :
    l.pcIn <+: ps.flatMap presented := by
  have htaken : taken <+: ps.flatten := List.IsPrefix.trans ⟨_, h.cmacRx.symm⟩ hmac
  have hstarts : starts Beat.tlast true taken <+: starts Beat.tlast true ps.flatten :=
    starts_mono htaken
  have hpcIn := hstarts.map pcInOf
  rw [← h.pcIn, starts_flatten hps, List.map_flatMap] at hpcIn
  exact hpcIn

namespace Inv

variable {s : Stages B D E × Log}

theorem packets_roceStream (h : Inv s)
    (hends : ∀ q ∈ packets ParserOut.tlast s.2.parserOut, Ends ParserOut.tlast q) :
    packets roceLast s.1.filter.2.roceStream =
      ((packets ParserOut.tlast s.2.parserOut).filter bit).map roceWordsOf := by
  rw [Ledger.roceStream, h.gathered.received, flatMap_roceWords]
  exact packets_select map_tlast_roceWordsOf bit hends (unmarked_rest _)

theorem packets_nonRoceStream (h : Inv s)
    (hends : ∀ q ∈ packets ParserOut.tlast s.2.parserOut, Ends ParserOut.tlast q) :
    packets Beat.tlast s.1.filter.2.nonRoceStream =
      ((packets ParserOut.tlast s.2.parserOut).filter fun q => !bit q).map
        fun q => q.map ParserOut.beat := by
  rw [Ledger.nonRoceStream, h.gathered.received, flatMap_beats]
  exact packets_select (fun q => List.map_map) (fun q => !bit q) hends (unmarked_rest _)

theorem sorted (h : Inv s) (hqs : List.Forall₂ Processed ps qs)
    (hout : s.2.parserOut <+: qs.flatten) : Sorted ps s.1.filter.2 := by
  have hends := ends_of_processed hqs
  have hfirst := packets_of_isPrefix hends hout
  have hfirstEnds := fun q hq => hends q (hfirst.subset hq)
  refine ⟨?_, ?_⟩
  · rw [← forRoce_eq hqs]
    refine List.IsPrefix.map _ ((packets_mono h.filter.split.roce).trans ?_)
    rw [h.packets_roceStream hfirstEnds]
    exact (hfirst.filter bit).map _
  · rw [← forHost_eq hqs]
    refine List.IsPrefix.map _ ((packets_mono h.filter.split.nonRoce).trans ?_)
    rw [h.packets_nonRoceStream hfirstEnds]
    exact (hfirst.filter _).map _

theorem complete (h : Inv s) (hqs : List.Forall₂ Processed ps qs)
    (hout : s.2.parserOut = qs.flatten) (hd : Drained s.1.filter) :
    Complete ps s.1.filter.2 := by
  have hends := ends_of_processed hqs
  have hall : packets ParserOut.tlast s.2.parserOut = qs := by
    rw [hout, ← List.append_nil qs.flatten]
    exact packets_flatten hends fun b hb => absurd hb List.not_mem_nil
  have hdelivered := h.filter.delivered hd
  have hroce := h.packets_roceStream (hall.symm ▸ hends)
  have hnonRoce := h.packets_nonRoceStream (hall.symm ▸ hends)
  refine ⟨?_, ?_⟩
  · rw [hdelivered.roce, hroce, hall, forRoce_eq hqs]
  · rw [hdelivered.nonRoce, hnonRoce, hall, forHost_eq hqs]

/-- A cycle in which the parser returns nothing. -/
theorem step_quiet (h : Inv s) (hout : s.2.parserOut = qs.flatten) {i : Input}
    (hi : Quiet i.filterIn) :
    Inv ((receivePath B D E).step s i) ∧
      ((receivePath B D E).step s i).2.parserOut = qs.flatten := by
  have hv : i.parserOutTvalid = false := hi.tvalid
  refine ⟨h.step i fun hv' => absurd (hv ▸ hv') Bool.false_ne_true, ?_⟩
  have hstep : ((receivePath B D E).step s i).2.parserOut =
      s.2.parserOut ++ if i.parserOutTvalid then [i.parserOut] else [] := rfl
  rw [hstep, hv, hout]
  exact List.append_nil _

end Inv

end Streams

/-- **From the MAC to the RDMA engine.**  Let the MAC hand over packets that the program of the
parser accepts, and let the parser return what its program makes of the packets it is given.
While no FIFO of the filter is full, the RDMA engine puts together the packets that are UDP
with connection type zero, and the host the others: in order, byte for byte, with the size
that the MAC gave and the metadata of the program.  Once the parser has returned everything
and both sides read, nothing stays behind. -/
theorem sorted_run (B D : FallThrough Beat) (E : FallThrough Metadata) (ps : List (List Beat))
    (qs : List (List ParserOut)) (is : List Input) (hps : ∀ p ∈ ps, Ends Beat.tlast p)
    (hmac : ((receivePath B D E).run is).2.cmacRx <+: ps.flatten)
    (hqs : List.Forall₂ Processed ps qs)
    (hparser : ((receivePath B D E).run is).2.pcIn <+: ps.flatMap presented →
      ((receivePath B D E).run is).2.parserOut <+: qs.flatten)
    (hroom : (receivePath B D E).Always (fun s => Roomy s.1.filter) (receivePath B D E).reset is) :
    Sorted ps ((receivePath B D E).run is).1.filter.2 ∧
      (((receivePath B D E).run is).2.parserOut = qs.flatten →
        ∀ quiet : ℕ → Input, (∀ t, Quiet (quiet t).filterIn) →
          ∃ n, Complete ps
            ((receivePath B D E).run (is ++ (List.range n).map quiet)).1.filter.2) := by
  have hinv : Inv ((receivePath B D E).run is) :=
    (Machine.always_of_always (P := Inv) (fun _ i hs hroomy => hs.step i fun _ => hroomy)
      inv_reset hroom).last
  obtain ⟨taken, htaken⟩ := hinv.front
  refine ⟨hinv.sorted hqs (hparser (htaken.isPrefix_presented hps hmac)), ?_⟩
  intro hall quiet hquiet
  have hkeep : ∀ (s : Stages B D E × Log) (i : Input), Inv s ∧ s.2.parserOut = qs.flatten →
      Quiet i.filterIn → Inv ((receivePath B D E).step s i) ∧
        ((receivePath B D E).step s i).2.parserOut = qs.flatten :=
    fun s i hs hi => hs.1.step_quiet hs.2 hi
  obtain ⟨n, hlast, hn⟩ := Machine.exists_runFrom_of_measure
    (G := fun s => (Inv s ∧ s.2.parserOut = qs.flatten) ∧ Drained s.1.filter)
    (fun s => toDo s.1.filter) hkeep
    (fun s i hs hi hg => toDo_step hs.1.filter.toInv hi fun hd => hg ⟨hs, hd⟩) ⟨hinv, hall⟩
    quiet hquiet
  refine ⟨n, ?_⟩
  rw [Machine.run, Machine.runFrom_append]
  exact hlast.1.complete hqs hlast.2 hn

/-- A packet of one beat. -/
def oneBeat (bytes : List (BitVec 8)) : Beat :=
  ⟨Words.ofWords 512 bytes, BitVec.ofNat 64 (2 ^ bytes.length - 1), BitVec.ofNat 16 bytes.length,
    true⟩

/-- What the parser returns for it. -/
def answer (b : Beat) : ParserOut :=
  ⟨b.tdata, b.tkeep, b.tlast,
    (xilinxPipeline (packetBytes [b]) (metadataIn [b])).toOption.elim 0 fun o => o.2.word⟩

theorem processed_answer {b : Beat} (hlast : b.tlast = true)
    (h : (xilinxPipeline (packetBytes [b]) (metadataIn [b])).toOption.any
      (fun o => o.1 == packetBytes [(answer b).beat]) = true) : Processed [b] [answer b] where
  ends := ⟨[], answer b, rfl, hlast, fun a ha => absurd ha List.not_mem_nil⟩
  outcome := by
    obtain ⟨⟨out, m⟩, hout, heq⟩ := exists_ok_of_any h
    refine ⟨m, ?_, ?_⟩
    · rw [hout]
      simpa using heq
    · simp [answer, hout, Except.toOption]

/-- A frame that is not IP. -/
def arpFrame : List (BitVec 8) :=
  [255, 255, 255, 255, 255, 255, 0x10, 0, 0x20, 0, 0x20, 0, 0x08, 0x06, 0, 1, 0x08, 0, 6, 4]

/-- A cycle in which both sides read. -/
def cycle (mac : Option Beat) (tready : Bool) (out : Option ParserOut) : Input where
  cmacRxTvalid := mac.isSome
  cmacRx := mac.getD ⟨0, 0, 0, false⟩
  pcInTready := tready
  parserOutTvalid := out.isSome
  parserOut := out.getD ⟨0, 0, false, 0⟩
  roceTready := true
  nonRoceTready := true

/-- An acknowledgement and a frame that is not IP, which the parser takes and returns in four
cycles. -/
def twoFrames : List Input :=
  [cycle (some (oneBeat roceAck)) false none, cycle (some (oneBeat arpFrame)) true none,
    cycle none true (some (answer (oneBeat roceAck))),
    cycle none false (some (answer (oneBeat arpFrame)))]

theorem sorted_run_twoFrames :
    Sorted [[oneBeat roceAck], [oneBeat arpFrame]]
        ((receivePath pktFifo pktFifo metaFifo).run twoFrames).1.filter.2 ∧
      (((receivePath pktFifo pktFifo metaFifo).run twoFrames).2.parserOut =
          [[answer (oneBeat roceAck)], [answer (oneBeat arpFrame)]].flatten →
        ∀ quiet : ℕ → Input, (∀ t, Quiet (quiet t).filterIn) →
          ∃ n, Complete [[oneBeat roceAck], [oneBeat arpFrame]]
            ((receivePath pktFifo pktFifo metaFifo).run
              (twoFrames ++ (List.range n).map quiet)).1.filter.2) := by
  refine sorted_run pktFifo pktFifo metaFifo _ _ twoFrames ?_ (by decide +kernel) ?_
    (fun _ => by decide +kernel) (by decide +kernel)
  · intro p hp
    simp only [List.mem_cons, List.not_mem_nil, or_false] at hp
    rcases hp with rfl | rfl <;> exact ⟨[], _, rfl, rfl, fun a ha => absurd ha List.not_mem_nil⟩
  · exact .cons (processed_answer rfl (by decide +kernel))
      (.cons (processed_answer rfl (by decide +kernel)) .nil)

end ReceivePath
end RecoNIC
