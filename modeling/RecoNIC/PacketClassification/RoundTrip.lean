import RecoNIC.PacketClassification.PacketParser

/-!
# Parsing and deparsing

What the deparser writes, followed by what was not parsed, is the packet.  A state of the
parser extracts a header and makes one piece of the deparser's output out of it, and this
piece has to come after everything that has been extracted so far.  `FreeFrom k` says that
the pieces from `k` on are still empty; each state asks for it at its own piece and passes
it on for the next ones.
-/

namespace RecoNIC
namespace PacketParser

open BitFormat

/-! ## One extraction -/

theorem bind_eq_ok {ε α β : Type} {x : Except ε α} {f : α → Except ε β} {b : β} :
    (x >>= f) = .ok b ↔ ∃ a, x = .ok a ∧ f a = .ok b := by
  cases x with
  | error e =>
    constructor
    · intro h
      cases h
    · rintro ⟨a, ha, -⟩
      cases ha
  | ok a =>
    constructor
    · exact fun h => ⟨a, rfl, h⟩
    · rintro ⟨a', ha, h⟩
      cases ha
      exact h

/-- What is extracted is the front of the packet. -/
theorem extract_ok {α : Type} {f : Format α} {pkt : List Bool} {x : α × List Bool}
    (h : extract f pkt = .ok x) : f.write x.1 ++ x.2 = pkt := by
  unfold extract at h
  by_cases hlen : pkt.length < f.size
  · rw [if_pos hlen] at h
    cases h
  · rw [if_neg hlen] at h
    cases h
    rw [f.write_read _ (by rw [List.length_take]; omega), List.take_append_drop]

theorem extractOptions_ok {size : Nat} {pkt : List Bool} {x : Ipv4OptT × List Bool}
    (h : extractOptions size pkt = .ok x) : x.1.options ++ x.2 = pkt := by
  unfold extractOptions at h
  by_cases hlen : pkt.length < size
  · rw [if_pos hlen] at h
    cases h
  · rw [if_neg hlen] at h
    by_cases hmax : size ≤ 320
    · rw [dif_pos hmax] at h
      cases h
      exact List.take_append_drop _ _
    · rw [dif_neg hmax] at h
      cases h

/-! ## Pieces -/

/-- The packet as the deparser would write it now. -/
def Parsing.image (s : Parsing) : List Bool := deparserInst s.hdr ++ s.pkt

/-- The pieces from `k` on are empty. -/
def Headers.FreeFrom (hdr : Headers) (k : Nat) : Prop := (hdr.pieces.drop k).flatten = []

theorem Headers.FreeFrom.mono {hdr : Headers} {j k : Nat} (h : hdr.FreeFrom j) (hjk : j ≤ k) :
    hdr.FreeFrom k := by
  have hsplit := List.take_append_drop (k - j) (hdr.pieces.drop j)
  rw [List.drop_drop, Nat.add_sub_cancel' hjk] at hsplit
  have hflat := congrArg List.flatten hsplit
  rw [List.flatten_append, h] at hflat
  exact (List.append_eq_nil_iff.mp hflat).2

/-- A header becomes the last piece. -/
theorem image_set {s : Parsing} {t : Headers} {bs pkt : List Bool} (k : Nat) (hk : k < 11)
    (hfree : s.hdr.FreeFrom k) (hpieces : t.pieces = s.hdr.pieces.set k bs)
    (hpkt : bs ++ pkt = s.pkt) :
    (⟨t, pkt⟩ : Parsing).image = s.image ∧ t.FreeFrom (k + 1) := by
  have hlen : k < s.hdr.pieces.length := hk
  have hlater : (s.hdr.pieces.drop (k + 1)).flatten = [] := hfree.mono (Nat.le_succ k)
  have hset : t.pieces = s.hdr.pieces.take k ++ bs :: s.hdr.pieces.drop (k + 1) := by
    rw [hpieces, List.set_eq_take_append_cons_drop, if_pos hlen]
  constructor
  · have hold : s.hdr.pieces.flatten = (s.hdr.pieces.take k).flatten := by
      conv_lhs => rw [← List.take_append_drop k s.hdr.pieces]
      rw [List.flatten_append, hfree, List.append_nil]
    rw [Parsing.image, Parsing.image, deparserInst, deparserInst, hset, hold, List.flatten_append,
      List.flatten_cons, hlater, List.append_nil, List.append_assoc, hpkt]
  · rw [Headers.FreeFrom, hpieces, List.drop_set_of_lt (Nat.lt_succ_self k)]
    exact hlater

/-- A VLAN header goes to the end of the piece of the stack. -/
theorem image_push {s : Parsing} {x : VlanH × List Bool} (h : s.hdr.vlan.headers.length < 2)
    (hfree : s.hdr.FreeFrom 2) (hpkt : vlanH.write x.1 ++ x.2 = s.pkt) :
    (⟨{ s.hdr with vlan := s.hdr.vlan.push x.1 h }, x.2⟩ : Parsing).image = s.image := by
  have hlater : (s.hdr.pieces.drop 2).flatten = [] := hfree
  have hold : s.hdr.pieces.flatten =
      emit ethH s.hdr.eth ++ (s.hdr.vlan.headers.flatMap vlanH.write ++
        (s.hdr.pieces.drop 2).flatten) := rfl
  have hnew : ({ s.hdr with vlan := s.hdr.vlan.push x.1 h } : Headers).pieces.flatten =
      emit ethH s.hdr.eth ++ ((s.hdr.vlan.headers ++ [x.1]).flatMap vlanH.write ++
        (s.hdr.pieces.drop 2).flatten) := rfl
  rw [Parsing.image, Parsing.image, deparserInst, deparserInst, hold, hnew, hlater, ← hpkt]
  simp

/-! ## The states -/

section States

variable {s s' : Parsing}

theorem parseImmdt_image (h : parseImmdt s = .ok s') (hfree : s.hdr.FreeFrom 9) :
    s'.image = s.image := by
  obtain ⟨x, hx, hs'⟩ := bind_eq_ok.mp h
  cases hs'
  exact (image_set (t := { s.hdr with immdt := some x.1 }) 9 (by decide) hfree rfl
    (extract_ok hx)).1

theorem parseIeth_image (h : parseIeth s = .ok s') (hfree : s.hdr.FreeFrom 10) :
    s'.image = s.image := by
  obtain ⟨x, hx, hs'⟩ := bind_eq_ok.mp h
  cases hs'
  exact (image_set (t := { s.hdr with ieth := some x.1 }) 10 (by decide) hfree rfl
    (extract_ok hx)).1

theorem parseAeth_image (h : parseAeth s = .ok s') (hfree : s.hdr.FreeFrom 8) :
    s'.image = s.image := by
  obtain ⟨x, hx, hs'⟩ := bind_eq_ok.mp h
  cases hs'
  exact (image_set (t := { s.hdr with aeth := some x.1 }) 8 (by decide) hfree rfl
    (extract_ok hx)).1

theorem parseReth_image {op : BitVec 5} (h : parseReth op s = .ok s')
    (hfree : s.hdr.FreeFrom 7) : s'.image = s.image := by
  obtain ⟨x, hx, h'⟩ := bind_eq_ok.mp h
  obtain ⟨himage, hfree'⟩ := image_set
    (t := { s.hdr with reth := some x.1 }) 7 (by decide) hfree rfl (extract_ok hx)
  by_cases hop : op = writeOnlyImm
  · rw [if_pos hop] at h'
    exact (parseImmdt_image h' (hfree'.mono (by decide))).trans himage
  · rw [if_neg hop] at h'
    cases h'
    exact himage

theorem selectOnOp_image {op : BitVec 5} (h : selectOnOp op s = .ok s')
    (hfree : s.hdr.FreeFrom 7) : s'.image = s.image := by
  unfold selectOnOp at h
  split_ifs at h
  · exact parseReth_image h hfree
  · exact parseAeth_image h (hfree.mono (by decide))
  · exact parseIeth_image h (hfree.mono (by decide))
  · exact parseImmdt_image h (hfree.mono (by decide))
  · cases h
    rfl

theorem parseUdp_image (h : parseUdp s = .ok s') (hfree : s.hdr.FreeFrom 5) :
    s'.image = s.image := by
  obtain ⟨x, hx, h⟩ := bind_eq_ok.mp h
  obtain ⟨y, hy, h⟩ := bind_eq_ok.mp h
  obtain ⟨hudp, hfree⟩ := image_set
    (t := { s.hdr with udp := some x.1 }) 5 (by decide) hfree rfl (extract_ok hx)
  obtain ⟨hbth, hfree⟩ := image_set
    (s := ⟨{ s.hdr with udp := some x.1 }, x.2⟩)
    (t := { s.hdr with udp := some x.1, bth := some y.1 }) 6 (by decide) hfree rfl
    (extract_ok hy)
  exact ((selectOnOp_image h hfree).trans hbth).trans hudp

theorem parseIpv6_image (h : parseIpv6 s = .ok s') (hfree : s.hdr.FreeFrom 4) :
    s'.image = s.image := by
  obtain ⟨x, hx, h⟩ := bind_eq_ok.mp h
  obtain ⟨-, -, h⟩ := bind_eq_ok.mp h
  obtain ⟨himage, hfree⟩ := image_set
    (t := { s.hdr with ipv6 := some x.1 }) 4 (by decide) hfree rfl (extract_ok hx)
  by_cases hproto : x.1.protocol = ipprotoUdp
  · rw [if_pos hproto] at h
    exact (parseUdp_image h hfree).trans himage
  · rw [if_neg hproto] at h
    cases h
    exact himage

theorem dispatchOnProtocol_image {proto : BitVec 8} (h : dispatchOnProtocol proto s = .ok s')
    (hfree : s.hdr.FreeFrom 5) : s'.image = s.image := by
  unfold dispatchOnProtocol at h
  by_cases hproto : proto = ipprotoUdp
  · rw [if_pos hproto] at h
    exact parseUdp_image h hfree
  · rw [if_neg hproto] at h
    cases h
    rfl

theorem parseIpv4Options_image {ip : Ipv4H} (h : parseIpv4Options ip s = .ok s')
    (hfree : s.hdr.FreeFrom 3) : s'.image = s.image := by
  obtain ⟨x, hx, h⟩ := bind_eq_ok.mp h
  obtain ⟨himage, hfree⟩ := image_set
    (t := { s.hdr with ipv4Opt := some x.1 }) 3 (by decide) hfree rfl (extractOptions_ok hx)
  exact (dispatchOnProtocol_image h (hfree.mono (by decide))).trans himage

theorem parseIpv4_image (h : parseIpv4 s = .ok s') (hfree : s.hdr.FreeFrom 2) :
    s'.image = s.image := by
  obtain ⟨x, hx, h⟩ := bind_eq_ok.mp h
  obtain ⟨-, -, h⟩ := bind_eq_ok.mp h
  obtain ⟨himage, hfree⟩ := image_set
    (t := { s.hdr with ipv4 := some x.1 }) 2 (by decide) hfree rfl (extract_ok hx)
  by_cases hihl : x.1.ihl = 5
  · rw [if_pos hihl] at h
    exact (dispatchOnProtocol_image h (hfree.mono (by decide))).trans himage
  · rw [if_neg hihl] at h
    exact (parseIpv4Options_image h hfree).trans himage

/-- One entry of the stack after the other. -/
theorem parseVlan_image (h : parseVlan s = .ok s') (hfree : s.hdr.FreeFrom 2) :
    s'.image = s.image := by
  induction s using parseVlan.induct with
  | case1 s hlen ih =>
    rw [parseVlan, dif_pos hlen] at h
    obtain ⟨x, hx, h⟩ := bind_eq_ok.mp h
    have himage := image_push hlen hfree (extract_ok hx)
    have hfree' : s.hdr.FreeFrom 4 := hfree.mono (by decide)
    split_ifs at h
    · exact (ih x h hfree).trans himage
    · exact (parseIpv4_image h hfree).trans himage
    · exact (parseIpv6_image h hfree').trans himage
    · cases h
      exact himage
  | case2 s hlen =>
    rw [parseVlan, dif_neg hlen] at h
    cases h

theorem start_image (h : start s = .ok s') (hfree : s.hdr.FreeFrom 0) : s'.image = s.image := by
  obtain ⟨x, hx, h⟩ := bind_eq_ok.mp h
  obtain ⟨himage, hfree⟩ := image_set
    (t := { s.hdr with eth := some x.1 }) 0 (by decide) hfree rfl (extract_ok hx)
  have hfree' := hfree.mono (k := 2) (by decide)
  split_ifs at h
  · exact (parseVlan_image h hfree').trans himage
  · exact (parseIpv4_image h hfree').trans himage
  · exact (parseIpv6_image h (hfree'.mono (by decide))).trans himage
  · cases h
    exact himage

end States

/-- What the deparser writes for an accepted packet, and the rest, are the packet. -/
theorem parserInst_image {pkt : List Bool} {s : Parsing} (h : parserInst pkt = .ok s) :
    deparserInst s.hdr ++ s.pkt = pkt :=
  start_image h rfl

/-- **Parser and deparser are inverse.**  A packet that the pipeline accepts leaves it as it
came, byte for byte. -/
theorem xilinxPipeline_packet (pkt out : List (BitVec 8)) (m m' : PcMetadata)
    (h : xilinxPipeline pkt m = .ok (out, m')) : out = pkt := by
  obtain ⟨s, hs, hout⟩ := bind_eq_ok.mp h
  rw [parserInst_image hs] at hout
  cases hout
  exact bitsBytes_bytesBits pkt

/-- An Ethernet and an IPv4 header, and a UDP header with this destination port. -/
def udpHeaders (dport : List (BitVec 8)) : List (BitVec 8) :=
  [0x10, 0, 0x10, 0, 0x10, 0, 0x20, 0, 0x20, 0, 0x20, 0, 0x08, 0x00,
    0x45, 0, 0, 40, 0, 0, 0x40, 0, 64, 0x11, 0, 0, 10, 10, 0, 1, 10, 10, 0, 2,
    0x43, 0x21] ++ dport ++ [0, 20, 0, 0]

/-- An acknowledgement of a reliable connection. -/
def roceAck : List (BitVec 8) :=
  udpHeaders [0x12, 0xb7] ++
    [0x11, 0, 0x12, 0x34, 0, 0, 0, 2, 0, 0, 0, 7, 0, 0, 0, 1, 0xca, 0xfe, 0xba, 0xbe]

/-- All fields zero. -/
def PcMetadata.zero : PcMetadata := ⟨0, 0, 0, 0, 0, 0, 0, 0, 0, 0, 0, 0, 0⟩

/-- What holds of the outcome of a run. -/
theorem exists_ok_of_any {α : Type} {x : Except ParserError α} {p : α → Bool}
    (h : x.toOption.any p = true) : ∃ a, x = .ok a ∧ p a = true := by
  cases x with
  | error e => cases h
  | ok a => exact ⟨a, rfl, h⟩

/-- The pipeline accepts the acknowledgement. -/
theorem xilinxPipeline_roceAck :
    ∃ out m', xilinxPipeline roceAck .zero = .ok (out, m') ∧ out = roceAck := by
  obtain ⟨⟨out, m'⟩, hout, -⟩ := exists_ok_of_any (x := xilinxPipeline roceAck .zero)
    (p := fun _ => true) (by decide +kernel)
  exact ⟨out, m', hout, xilinxPipeline_packet roceAck out .zero m' hout⟩

end PacketParser
end RecoNIC
