import RecoNIC.PacketClassification.PacketFilter
import RecoNIC.PacketClassification.RoundTrip

/-!
# What counts as RoCE

The bit that steers a packet is computed in the control from the headers that are valid.
For an accepted packet these follow from the protocol field of the IP header: the UDP header
and the BTH are extracted together, or neither is.  So the bit says that the packet is UDP
and that three bits behind its UDP header are zero.  The port is parsed and put into the
metadata, but nothing compares it.
-/

namespace RecoNIC
namespace PacketParser

open BitFormat

/-! ## Valid headers -/

/-- The protocol field of the IP header says UDP. -/
def Headers.isUdp (hdr : Headers) : Bool :=
  hdr.ipv4.any (fun ip => ip.proto == ipprotoUdp) ||
    hdr.ipv6.any fun ip => ip.protocol == ipprotoUdp

/-- The headers the bit depends on. -/
def Headers.core (hdr : Headers) : Option Ipv4H × Option Ipv6H × Option UdpH × Option BthH :=
  (hdr.ipv4, hdr.ipv6, hdr.udp, hdr.bth)

/-- UDP header and BTH are valid if the packet is UDP, and only then. -/
structure Headers.Shaped (hdr : Headers) : Prop where
  udp : hdr.udp.isSome = hdr.isUdp
  bth : hdr.bth.isSome = hdr.isUdp

theorem Headers.shaped_of_core {hdr : Headers} {ip4 : Option Ipv4H} {ip6 : Option Ipv6H}
    {udp : Option UdpH} {bth : Option BthH} (h : hdr.core = (ip4, ip6, udp, bth))
    (hudp : udp.isSome = (ip4.any (fun ip => ip.proto == ipprotoUdp) ||
      ip6.any fun ip => ip.protocol == ipprotoUdp))
    (hbth : bth.isSome = udp.isSome) : hdr.Shaped := by
  obtain ⟨rfl, rfl, rfl, rfl⟩ :
      hdr.ipv4 = ip4 ∧ hdr.ipv6 = ip6 ∧ hdr.udp = udp ∧ hdr.bth = bth := by
    simpa [core] using h
  exact ⟨hudp, hbth.trans hudp⟩

section States

variable {s s' : Parsing}

theorem parseImmdt_core (h : parseImmdt s = .ok s') : s'.hdr.core = s.hdr.core := by
  obtain ⟨x, -, h⟩ := bind_eq_ok.mp h
  cases h
  rfl

theorem parseIeth_core (h : parseIeth s = .ok s') : s'.hdr.core = s.hdr.core := by
  obtain ⟨x, -, h⟩ := bind_eq_ok.mp h
  cases h
  rfl

theorem parseAeth_core (h : parseAeth s = .ok s') : s'.hdr.core = s.hdr.core := by
  obtain ⟨x, -, h⟩ := bind_eq_ok.mp h
  cases h
  rfl

theorem parseReth_core {op : BitVec 5} (h : parseReth op s = .ok s') :
    s'.hdr.core = s.hdr.core := by
  obtain ⟨x, -, h⟩ := bind_eq_ok.mp h
  by_cases hop : op = writeOnlyImm
  · rw [if_pos hop] at h
    have hcore := parseImmdt_core h
    exact hcore
  · rw [if_neg hop] at h
    cases h
    rfl

/-- The extended headers do not matter. -/
theorem selectOnOp_core {op : BitVec 5} (h : selectOnOp op s = .ok s') :
    s'.hdr.core = s.hdr.core := by
  unfold selectOnOp at h
  split_ifs at h
  · exact parseReth_core h
  · exact parseAeth_core h
  · exact parseIeth_core h
  · exact parseImmdt_core h
  · cases h
    rfl

theorem parseUdp_core (h : parseUdp s = .ok s') :
    ∃ udp bth, s'.hdr.core = (s.hdr.ipv4, s.hdr.ipv6, some udp, some bth) := by
  obtain ⟨x, -, h⟩ := bind_eq_ok.mp h
  obtain ⟨y, -, h⟩ := bind_eq_ok.mp h
  exact ⟨x.1, y.1, selectOnOp_core h⟩

theorem dispatchOnProtocol_shaped {ip : Ipv4H} (h : dispatchOnProtocol ip.proto s = .ok s')
    (hcore : s.hdr.core = (some ip, none, none, none)) : s'.hdr.Shaped := by
  unfold dispatchOnProtocol at h
  by_cases hproto : ip.proto = ipprotoUdp
  · rw [if_pos hproto] at h
    obtain ⟨udp, bth, hcore'⟩ := parseUdp_core h
    simp only [Headers.core, Prod.mk.injEq] at hcore
    rw [hcore.1, hcore.2.1] at hcore'
    exact Headers.shaped_of_core hcore' (by simp [hproto]) rfl
  · rw [if_neg hproto] at h
    cases h
    exact Headers.shaped_of_core hcore (by simp [hproto]) rfl

theorem parseIpv4_shaped (h : parseIpv4 s = .ok s')
    (hcore : s.hdr.core = (none, none, none, none)) : s'.hdr.Shaped := by
  obtain ⟨x, -, h⟩ := bind_eq_ok.mp h
  obtain ⟨-, -, h⟩ := bind_eq_ok.mp h
  have hcore' :
      ({ s.hdr with ipv4 := some x.1 } : Headers).core = (some x.1, none, none, none) := by
    simp only [Headers.core, Prod.mk.injEq] at hcore ⊢
    exact ⟨trivial, hcore.2⟩
  by_cases hihl : x.1.ihl = 5
  · rw [if_pos hihl] at h
    exact dispatchOnProtocol_shaped h hcore'
  · rw [if_neg hihl] at h
    obtain ⟨y, -, h⟩ := bind_eq_ok.mp h
    exact dispatchOnProtocol_shaped h hcore'

theorem parseIpv6_shaped (h : parseIpv6 s = .ok s')
    (hcore : s.hdr.core = (none, none, none, none)) : s'.hdr.Shaped := by
  obtain ⟨x, -, h⟩ := bind_eq_ok.mp h
  obtain ⟨-, -, h⟩ := bind_eq_ok.mp h
  simp only [Headers.core, Prod.mk.injEq] at hcore
  by_cases hproto : x.1.protocol = ipprotoUdp
  · rw [if_pos hproto] at h
    obtain ⟨udp, bth, hcore'⟩ := parseUdp_core h
    rw [hcore.1] at hcore'
    exact Headers.shaped_of_core hcore' (by simp [hproto]) rfl
  · rw [if_neg hproto] at h
    cases h
    have hcore' : Headers.core { s.hdr with ipv6 := some x.1 } = (none, some x.1, none, none) := by
      simp only [Headers.core, Prod.mk.injEq]
      exact ⟨hcore.1, trivial, hcore.2.2⟩
    exact Headers.shaped_of_core hcore' (by simp [hproto]) rfl

theorem shaped_of_noIp (hcore : s.hdr.core = (none, none, none, none)) : s.hdr.Shaped :=
  Headers.shaped_of_core hcore rfl rfl

theorem parseVlan_shaped (h : parseVlan s = .ok s')
    (hcore : s.hdr.core = (none, none, none, none)) : s'.hdr.Shaped := by
  induction s using parseVlan.induct with
  | case1 s hlen ih =>
    rw [parseVlan, dif_pos hlen] at h
    obtain ⟨x, -, h⟩ := bind_eq_ok.mp h
    split_ifs at h
    · exact ih x h hcore
    · exact parseIpv4_shaped h hcore
    · exact parseIpv6_shaped h hcore
    · cases h
      exact shaped_of_noIp hcore
  | case2 s hlen =>
    rw [parseVlan, dif_neg hlen] at h
    cases h

end States

/-- Every path of the parser agrees with the protocol field. -/
theorem parserInst_shaped {pkt : List Bool} {s : Parsing} (h : parserInst pkt = .ok s) :
    s.hdr.Shaped := by
  obtain ⟨x, -, h⟩ := bind_eq_ok.mp h
  split_ifs at h
  · exact parseVlan_shaped h rfl
  · exact parseIpv4_shaped h rfl
  · exact parseIpv6_shaped h rfl
  · cases h
    exact shaped_of_noIp rfl

/-! ## The bit -/

/-- The filter looks at `is_rdma`. -/
theorem isRdma_word (m : PcMetadata) : PacketFilter.isRdma m.word = (m.isRdma == 1) := by
  have hbit : PacketFilter.isRdma m.word = m.isRdma.getLsbD 0 := by
    rw [PacketFilter.isRdma, PcMetadata.word, BitVec.getLsbD_append]
    rfl
  rw [hbit]
  rcases BitVec.eq_zero_or_eq_one m.isRdma with h | h <;> rw [h] <;> rfl

/-- The bit of an accepted packet. -/
theorem isRdma_iff {hdr : Headers} (h : hdr.Shaped) (m : PcMetadata) :
    PacketFilter.isRdma (forwardInst hdr m).word = true ↔
      hdr.isUdp = true ∧ ∃ bth, hdr.bth = some bth ∧ bth.connType = 0#3 := by
  rw [isRdma_word, beq_iff_eq, forwardInst, h.udp]
  cases hudp : hdr.isUdp with
  | false => simp
  | true =>
    obtain ⟨bth, hbth⟩ := Option.isSome_iff_exists.mp (h.bth.trans hudp)
    by_cases hconn : bth.connType = 0#3 <;> simp [hbth, hconn]

/-- RoCE as it is meant: UDP to port 4791, and a reliable connection. -/
structure Headers.IsRoce (hdr : Headers) : Prop where
  udp : hdr.isUdp = true
  dport : ∃ udp, hdr.udp = some udp ∧ udp.dport = 4791#16
  connType : ∃ bth, hdr.bth = some bth ∧ bth.connType = 0#3

/-- UDP that would be taken for a reliable connection goes to port 4791. -/
def Headers.PortFits (hdr : Headers) : Prop :=
  hdr.isUdp = true → (∃ bth, hdr.bth = some bth ∧ bth.connType = 0#3) →
    ∃ udp, hdr.udp = some udp ∧ udp.dport = 4791#16

/-- **When the classification is right.**  The bit of an accepted packet says RoCE for RoCE
packets and only for them, if and only if the port fits. -/
theorem isRdma_iff_isRoce_iff (pkt : List (BitVec 8)) (s : Parsing) (m : PcMetadata)
    (h : parserInst (bytesBits pkt) = .ok s) :
    (PacketFilter.isRdma (forwardInst s.hdr m).word = true ↔ s.hdr.IsRoce) ↔
      s.hdr.PortFits := by
  rw [isRdma_iff (parserInst_shaped h)]
  constructor
  · exact fun hiff hudp hconn => (hiff.mp ⟨hudp, hconn⟩).dport
  · exact fun hfits => ⟨fun hbit => ⟨hbit.1, hfits hbit.1 hbit.2, hbit.2⟩,
      fun hroce => ⟨hroce.udp, hroce.connType⟩⟩

/-- A question to a name server, with the identifier 42. -/
def dnsQuery : List (BitVec 8) :=
  udpHeaders [0, 53] ++ [0, 42, 1, 0, 0, 1, 0, 0, 0, 0, 0, 0]

/-- The question is not RoCE, and the bit says it is. -/
theorem dnsQuery_isRdma :
    ∃ s, parserInst (bytesBits dnsQuery) = .ok s ∧
      ¬ (PacketFilter.isRdma (forwardInst s.hdr .zero).word = true ↔ s.hdr.IsRoce) := by
  obtain ⟨s, hs, hrun⟩ := exists_ok_of_any (x := parserInst (bytesBits dnsQuery))
    (p := fun s => PacketFilter.isRdma (forwardInst s.hdr .zero).word &&
      s.hdr.udp.all fun udp => udp.dport != 4791#16) (by decide +kernel)
  obtain ⟨hbit, hport⟩ := Bool.and_eq_true_iff.mp hrun
  refine ⟨s, hs, fun hiff => ?_⟩
  obtain ⟨udp, hudp, hdport⟩ := (hiff.mp hbit).dport
  rw [hudp, Option.all_some, hdport] at hport
  exact absurd hport (by decide)

/-- An acknowledgement. -/
theorem roceAck_isRdma :
    ∃ s, parserInst (bytesBits roceAck) = .ok s ∧
      ((PacketFilter.isRdma (forwardInst s.hdr .zero).word = true ↔ s.hdr.IsRoce) ↔
        s.hdr.PortFits) := by
  obtain ⟨s, hs, -⟩ := exists_ok_of_any (x := parserInst (bytesBits roceAck))
    (p := fun _ => true) (by decide +kernel)
  exact ⟨s, hs, isRdma_iff_isRoce_iff roceAck s .zero hs⟩

end PacketParser
end RecoNIC
