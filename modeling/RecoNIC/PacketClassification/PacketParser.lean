import RecoNIC.Arithmetic.BitFormat

/-!
# The packet parser

`packet_parser.p4`: the headers, the states of the parser, the control that fills in the
metadata, and the deparser.  A packet is a string of bits.  `extract` fails when the packet
is too short, the stack of VLAN headers has two entries, the options of IPv4 are at most
320 bits long, and `verify` fails with the error the program gives.

Each state of the parser is a function that calls the states it can go to.  Only
`parse_vlan` goes to itself, and each time it fills an entry of the stack.
-/

namespace RecoNIC
namespace PacketParser

open BitFormat

/-! ## Constants -/

def ethVlan : BitVec 16 := 0x8100
def ethIpv4 : BitVec 16 := 0x0800
def ethIpv6 : BitVec 16 := 0x86DD

def ipprotoUdp : BitVec 8 := 0x11

/-- The operations with a RETH header. -/
def writeFirst : BitVec 5 := 0x06
def writeOnly : BitVec 5 := 0x0a
def writeOnlyImm : BitVec 5 := 0x0b
def readReq : BitVec 5 := 0x0c

/-- The operations with an AETH header. -/
def readRspFirst : BitVec 5 := 0x0d
def readRspLast : BitVec 5 := 0x0f
def readRspOnly : BitVec 5 := 0x10
def ack : BitVec 5 := 0x11

/-- The operations with an IETH header. -/
def sendLastInv : BitVec 5 := 0x16
def sendOnlyInv : BitVec 5 := 0x17

/-- The operations with an ImmDt header. -/
def sendLastImm : BitVec 5 := 0x03
def sendOnlyImm : BitVec 5 := 0x05
def writeLastImm : BitVec 5 := 0x09

/-! ## Headers -/

/-- `bth_h`. -/
structure BthH where
  connType : BitVec 3
  op : BitVec 5
  se : BitVec 1
  migEeq : BitVec 1
  padding : BitVec 2
  tver : BitVec 4
  pKey : BitVec 16
  resv1 : BitVec 8
  destqp : BitVec 24
  ackreq : BitVec 1
  resv2 : BitVec 7
  psn : BitVec 24

/-- The fields of `bth_h` on the wire. -/
def bthH : Format BthH :=
  ((.bit 3 : Format _).seq <| (Format.bit 5).seq <| (Format.bit 1).seq <| (Format.bit 1).seq <|
    (Format.bit 2).seq <| (Format.bit 4).seq <| (Format.bit 16).seq <| (Format.bit 8).seq <|
    (Format.bit 24).seq <| (Format.bit 1).seq <| (Format.bit 7).seq <| .bit 24).map
    (fun x => ⟨x.1, x.2.1, x.2.2.1, x.2.2.2.1, x.2.2.2.2.1, x.2.2.2.2.2.1, x.2.2.2.2.2.2.1,
      x.2.2.2.2.2.2.2.1, x.2.2.2.2.2.2.2.2.1, x.2.2.2.2.2.2.2.2.2.1,
      x.2.2.2.2.2.2.2.2.2.2.1, x.2.2.2.2.2.2.2.2.2.2.2⟩)
    (fun h => (h.connType, h.op, h.se, h.migEeq, h.padding, h.tver, h.pKey, h.resv1, h.destqp,
      h.ackreq, h.resv2, h.psn))
    fun _ => rfl

/-- `reth_h`. -/
structure RethH where
  virHighAddr : BitVec 32
  virLowAddr : BitVec 32
  rKey : BitVec 32
  dmaLength : BitVec 32

/-- The fields of `reth_h` on the wire. -/
def rethH : Format RethH :=
  ((Format.bit 32).seq <| (Format.bit 32).seq <| (Format.bit 32).seq <| .bit 32).map
    (fun x => ⟨x.1, x.2.1, x.2.2.1, x.2.2.2⟩)
    (fun h => (h.virHighAddr, h.virLowAddr, h.rKey, h.dmaLength)) fun _ => rfl

/-- `aeth_h`. -/
structure AethH where
  syndrome : BitVec 8
  msn : BitVec 24

/-- The fields of `aeth_h` on the wire. -/
def aethH : Format AethH :=
  ((Format.bit 8).seq (.bit 24)).map (fun x => ⟨x.1, x.2⟩) (fun h => (h.syndrome, h.msn))
    fun _ => rfl

/-- `immdt_h`. -/
structure ImmdtH where
  immData : BitVec 32

/-- The field of `immdt_h` on the wire. -/
def immdtH : Format ImmdtH := (Format.bit 32).map ImmdtH.mk ImmdtH.immData fun _ => rfl

/-- `ieth_h`. -/
structure IethH where
  rKey : BitVec 32

/-- The field of `ieth_h` on the wire. -/
def iethH : Format IethH := (Format.bit 32).map IethH.mk IethH.rKey fun _ => rfl

/-- `eth_h`. -/
structure EthH where
  dstMac : BitVec 48
  srcMac : BitVec 48
  type : BitVec 16

/-- The fields of `eth_h` on the wire. -/
def ethH : Format EthH :=
  ((Format.bit 48).seq <| (Format.bit 48).seq <| .bit 16).map
    (fun x => ⟨x.1, x.2.1, x.2.2⟩) (fun h => (h.dstMac, h.srcMac, h.type)) fun _ => rfl

/-- `vlan_h`. -/
structure VlanH where
  pcp : BitVec 3
  cfi : BitVec 1
  vid : BitVec 12
  tpid : BitVec 16

/-- The fields of `vlan_h` on the wire. -/
def vlanH : Format VlanH :=
  ((Format.bit 3).seq <| (Format.bit 1).seq <| (Format.bit 12).seq <| .bit 16).map
    (fun x => ⟨x.1, x.2.1, x.2.2.1, x.2.2.2⟩) (fun h => (h.pcp, h.cfi, h.vid, h.tpid))
    fun _ => rfl

/-- `ipv4_h`. -/
structure Ipv4H where
  version : BitVec 4
  ihl : BitVec 4
  dscp : BitVec 6
  ecn : BitVec 2
  len : BitVec 16
  id : BitVec 16
  flags : BitVec 3
  frag : BitVec 13
  ttl : BitVec 8
  proto : BitVec 8
  chksum : BitVec 16
  src : BitVec 32
  dst : BitVec 32

/-- The fields of `ipv4_h` on the wire. -/
def ipv4H : Format Ipv4H :=
  ((Format.bit 4).seq <| (Format.bit 4).seq <| (Format.bit 6).seq <| (Format.bit 2).seq <|
    (Format.bit 16).seq <| (Format.bit 16).seq <| (Format.bit 3).seq <| (Format.bit 13).seq <|
    (Format.bit 8).seq <| (Format.bit 8).seq <| (Format.bit 16).seq <| (Format.bit 32).seq <|
    .bit 32).map
    (fun x => ⟨x.1, x.2.1, x.2.2.1, x.2.2.2.1, x.2.2.2.2.1, x.2.2.2.2.2.1, x.2.2.2.2.2.2.1,
      x.2.2.2.2.2.2.2.1, x.2.2.2.2.2.2.2.2.1, x.2.2.2.2.2.2.2.2.2.1,
      x.2.2.2.2.2.2.2.2.2.2.1, x.2.2.2.2.2.2.2.2.2.2.2.1, x.2.2.2.2.2.2.2.2.2.2.2.2⟩)
    (fun h => (h.version, h.ihl, h.dscp, h.ecn, h.len, h.id, h.flags, h.frag, h.ttl, h.proto,
      h.chksum, h.src, h.dst))
    fun _ => rfl

/-- `ipv6_h`. -/
structure Ipv6H where
  version : BitVec 4
  priority : BitVec 8
  flowLabel : BitVec 20
  length : BitVec 16
  protocol : BitVec 8
  hopLimit : BitVec 8
  src : BitVec 128
  dst : BitVec 128

/-- The fields of `ipv6_h` on the wire. -/
def ipv6H : Format Ipv6H :=
  ((Format.bit 4).seq <| (Format.bit 8).seq <| (Format.bit 20).seq <| (Format.bit 16).seq <|
    (Format.bit 8).seq <| (Format.bit 8).seq <| (Format.bit 128).seq <| .bit 128).map
    (fun x => ⟨x.1, x.2.1, x.2.2.1, x.2.2.2.1, x.2.2.2.2.1, x.2.2.2.2.2.1, x.2.2.2.2.2.2.1,
      x.2.2.2.2.2.2.2⟩)
    (fun h => (h.version, h.priority, h.flowLabel, h.length, h.protocol, h.hopLimit, h.src,
      h.dst))
    fun _ => rfl

/-- `ipv4_opt_t`: a `varbit<320>`. -/
structure Ipv4OptT where
  options : List Bool
  length_le : options.length ≤ 320

/-- `udp_h`. -/
structure UdpH where
  sport : BitVec 16
  dport : BitVec 16
  len : BitVec 16
  chksum : BitVec 16

/-- The fields of `udp_h` on the wire. -/
def udpH : Format UdpH :=
  ((Format.bit 16).seq <| (Format.bit 16).seq <| (Format.bit 16).seq <| .bit 16).map
    (fun x => ⟨x.1, x.2.1, x.2.2.1, x.2.2.2⟩) (fun h => (h.sport, h.dport, h.len, h.chksum))
    fun _ => rfl

/-- A header stack of `n` entries: those that have been extracted. -/
structure HeaderStack (α : Type) (n : Nat) where
  headers : List α
  length_le : headers.length ≤ n

namespace HeaderStack

variable {α : Type} {n : Nat}

/-- No header has been extracted. -/
def empty : HeaderStack α n := ⟨[], Nat.zero_le _⟩

/-- The stack with `hs.next` extracted. -/
def push (hs : HeaderStack α n) (h : α) (hlt : hs.headers.length < n) : HeaderStack α n where
  headers := hs.headers ++ [h]
  length_le := by
    rw [List.length_append]
    exact hlt

@[simp] theorem headers_push (hs : HeaderStack α n) (h : α) (hlt : hs.headers.length < n) :
    (hs.push h hlt).headers = hs.headers ++ [h] := rfl

end HeaderStack

/-- `headers_t`: a header that is not valid is `none`. -/
structure Headers where
  eth : Option EthH
  vlan : HeaderStack VlanH 2
  ipv4 : Option Ipv4H
  ipv4Opt : Option Ipv4OptT
  ipv6 : Option Ipv6H
  udp : Option UdpH
  bth : Option BthH
  reth : Option RethH
  aeth : Option AethH
  immdt : Option ImmdtH
  ieth : Option IethH

/-- No header is valid. -/
def Headers.empty : Headers :=
  ⟨none, .empty, none, none, none, none, none, none, none, none, none⟩

/-- `pc_metadata_t`. -/
structure PcMetadata where
  index : BitVec 32
  ipSrc : BitVec 32
  ipDst : BitVec 32
  udpSport : BitVec 16
  udpDport : BitVec 16
  opcode : BitVec 5
  pktlen : BitVec 16
  dmaLength : BitVec 32
  rKey : BitVec 32
  se : BitVec 1
  psn : BitVec 24
  msn : BitVec 24
  isRdma : BitVec 1

/-- The metadata as one word, the first field on top. -/
def PcMetadata.word (m : PcMetadata) : BitVec 263 :=
  m.index ++ m.ipSrc ++ m.ipDst ++ m.udpSport ++ m.udpDport ++ m.opcode ++ m.pktlen ++
    m.dmaLength ++ m.rKey ++ m.se ++ m.psn ++ m.msn ++ m.isRdma

/-! ## The parser -/

/-- The errors of the parser. -/
inductive ParserError
  | packetTooShort
  | stackOutOfBounds
  | headerTooShort
  | invalidIPpacket
  deriving DecidableEq

/-- `hdr`, and the part of `pkt` that has not been extracted. -/
structure Parsing where
  hdr : Headers
  pkt : List Bool

/-- What a state of the parser leaves when it accepts. -/
abbrev Parsed := Except ParserError Parsing

/-- `pkt.extract`. -/
def extract {α : Type} (f : Format α) (pkt : List Bool) : Except ParserError (α × List Bool) :=
  if pkt.length < f.size then .error .packetTooShort
  else .ok (f.read (pkt.take f.size), pkt.drop f.size)

/-- `pkt.extract` of the options, which are `size` bits. -/
def extractOptions (size : Nat) (pkt : List Bool) : Except ParserError (Ipv4OptT × List Bool) :=
  if pkt.length < size then .error .packetTooShort
  else if h : size ≤ 320 then
    .ok (⟨pkt.take size, Nat.le_trans (List.length_take_le _ _) h⟩, pkt.drop size)
  else .error .headerTooShort

/-- `verify`. -/
def verify (cond : Bool) (error : ParserError) : Except ParserError Unit :=
  if cond then .ok () else .error error

/-- `parse_immdt`. -/
def parseImmdt (s : Parsing) : Parsed := do
  let x ← extract immdtH s.pkt
  return ⟨{ s.hdr with immdt := some x.1 }, x.2⟩

/-- `parse_ieth`. -/
def parseIeth (s : Parsing) : Parsed := do
  let x ← extract iethH s.pkt
  return ⟨{ s.hdr with ieth := some x.1 }, x.2⟩

/-- `parse_aeth`. -/
def parseAeth (s : Parsing) : Parsed := do
  let x ← extract aethH s.pkt
  return ⟨{ s.hdr with aeth := some x.1 }, x.2⟩

/-- `parse_reth`, with the opcode of the BTH. -/
def parseReth (op : BitVec 5) (s : Parsing) : Parsed := do
  let x ← extract rethH s.pkt
  let s' : Parsing := ⟨{ s.hdr with reth := some x.1 }, x.2⟩
  if op = writeOnlyImm then parseImmdt s' else return s'

/-- The extended header that the opcode selects. -/
def selectOnOp (op : BitVec 5) (s : Parsing) : Parsed :=
  if op ∈ [writeFirst, writeOnly, writeOnlyImm, readReq] then parseReth op s
  else if op ∈ [readRspFirst, readRspLast, readRspOnly, ack] then parseAeth s
  else if op ∈ [sendLastInv, sendOnlyInv] then parseIeth s
  else if op ∈ [sendLastImm, sendOnlyImm, writeLastImm] then parseImmdt s
  else .ok s

/-- `parse_udp`. -/
def parseUdp (s : Parsing) : Parsed := do
  let x ← extract udpH s.pkt
  let y ← extract bthH x.2
  selectOnOp y.1.op ⟨{ s.hdr with udp := some x.1, bth := some y.1 }, y.2⟩

/-- `parse_ipv6`. -/
def parseIpv6 (s : Parsing) : Parsed := do
  let x ← extract ipv6H s.pkt
  verify (x.1.version == 6) .invalidIPpacket
  let s' : Parsing := ⟨{ s.hdr with ipv6 := some x.1 }, x.2⟩
  if x.1.protocol = ipprotoUdp then parseUdp s' else return s'

/-- `dispatch_on_protocol`, with the protocol of the IPv4 header. -/
def dispatchOnProtocol (proto : BitVec 8) (s : Parsing) : Parsed :=
  if proto = ipprotoUdp then parseUdp s else .ok s

/-- The length of the options in bits, as the 32-bit expression of the source gives it. -/
def optionsSize (ihl : BitVec 4) : Nat := ((ihl.setWidth 32 - 5) * 32).toNat

/-- `parse_ipv4_options`. -/
def parseIpv4Options (ip : Ipv4H) (s : Parsing) : Parsed := do
  let x ← extractOptions (optionsSize ip.ihl) s.pkt
  dispatchOnProtocol ip.proto ⟨{ s.hdr with ipv4Opt := some x.1 }, x.2⟩

/-- `parse_ipv4`. -/
def parseIpv4 (s : Parsing) : Parsed := do
  let x ← extract ipv4H s.pkt
  verify (x.1.version == 4 && decide (5 ≤ x.1.len)) .invalidIPpacket
  let s' : Parsing := ⟨{ s.hdr with ipv4 := some x.1 }, x.2⟩
  if x.1.ihl = 5 then dispatchOnProtocol x.1.proto s' else parseIpv4Options x.1 s'

/-- `parse_vlan`. -/
def parseVlan (s : Parsing) : Parsed :=
  if h : s.hdr.vlan.headers.length < 2 then do
    let x ← extract vlanH s.pkt
    let s' : Parsing := ⟨{ s.hdr with vlan := s.hdr.vlan.push x.1 h }, x.2⟩
    if x.1.tpid = ethVlan then parseVlan s'
    else if x.1.tpid = ethIpv4 then parseIpv4 s'
    else if x.1.tpid = ethIpv6 then parseIpv6 s'
    else return s'
  else .error .stackOutOfBounds
termination_by 2 - s.hdr.vlan.headers.length
decreasing_by simp only [HeaderStack.headers_push, List.length_append, List.length_singleton]; omega

/-- `start`. -/
def start (s : Parsing) : Parsed := do
  let x ← extract ethH s.pkt
  let s' : Parsing := ⟨{ s.hdr with eth := some x.1 }, x.2⟩
  if x.1.type = ethVlan then parseVlan s'
  else if x.1.type = ethIpv4 then parseIpv4 s'
  else if x.1.type = ethIpv6 then parseIpv6 s'
  else return s'

/-- `parser_inst`. -/
def parserInst (pkt : List Bool) : Parsed := start ⟨.empty, pkt⟩

/-! ## The control -/

/-- `forward_inst`.  The fields of a header that is not valid are undefined, and are `0`
here. -/
def forwardInst (hdr : Headers) (m : PcMetadata) : PcMetadata :=
  { m with
    ipSrc :=
      if hdr.udp.isSome then
        if hdr.ipv6.isSome then 6 else hdr.ipv4.elim 0 Ipv4H.src
      else 0
    ipDst :=
      if hdr.udp.isSome then
        if hdr.ipv6.isSome then 6 else hdr.ipv4.elim 0 Ipv4H.dst
      else 0
    udpSport := hdr.udp.elim 0 UdpH.sport
    udpDport := hdr.udp.elim 0 UdpH.dport
    opcode := if hdr.udp.isSome then hdr.bth.elim 0 BthH.op else 0
    dmaLength := if hdr.udp.isSome then hdr.reth.elim 0 RethH.dmaLength else 0
    rKey :=
      if hdr.udp.isSome then hdr.ieth.elim (hdr.reth.elim 0 RethH.rKey) IethH.rKey else 0
    se := if hdr.udp.isSome then hdr.bth.elim 0 BthH.se else 0
    psn := if hdr.udp.isSome then hdr.bth.elim 0 BthH.psn else 0
    msn := if hdr.udp.isSome then hdr.aeth.elim 0 AethH.msn else 0
    isRdma :=
      if hdr.udp.isSome then
        hdr.bth.elim
          (if hdr.reth.isSome || hdr.aeth.isSome || hdr.ieth.isSome then 1 else 0)
          fun bth => if bth.connType ≠ 0 then 0 else 1
      else 0 }

/-! ## The deparser -/

/-- What `pkt.emit` writes for a header. -/
def emit {α : Type} (f : Format α) (h : Option α) : List Bool := h.elim [] f.write

/-- The pieces of the packet that the headers become, in the order of the deparser. -/
def Headers.pieces (hdr : Headers) : List (List Bool) :=
  [emit ethH hdr.eth, hdr.vlan.headers.flatMap vlanH.write, emit ipv4H hdr.ipv4,
    hdr.ipv4Opt.elim [] Ipv4OptT.options, emit ipv6H hdr.ipv6, emit udpH hdr.udp,
    emit bthH hdr.bth, emit rethH hdr.reth, emit aethH hdr.aeth, emit immdtH hdr.immdt,
    emit iethH hdr.ieth]

/-- `deparser_inst`. -/
def deparserInst (hdr : Headers) : List Bool := hdr.pieces.flatten

/-- `main`: the packet and the metadata that leave.  The part of the packet that was not
parsed follows the headers. -/
def xilinxPipeline (pkt : List (BitVec 8)) (m : PcMetadata) :
    Except ParserError (List (BitVec 8) × PcMetadata) := do
  let s ← parserInst (bytesBits pkt)
  return (bitsBytes (deparserInst s.hdr ++ s.pkt), forwardInst s.hdr m)

end PacketParser
end RecoNIC
