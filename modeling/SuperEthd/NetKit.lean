import SuperEthd.Codec

/-! # Building packets

`libsethnetkit`: the Internet checksum of `checksum.cpp` and the packet classes that use it.  A class
is a structure over that of its base class; where a member of a base class calls a virtual function,
the size that the most derived class gives is an argument here.  `be16_t` and `be32_t` are the numbers
the code stores in them, which are in network order in the memory of the host. -/
namespace SuperEthd.NetKit
open BigEndian

/-! ## `endian.hpp` -/

def bswap16 (x : UInt16) : UInt16 := UInt16.ofNat (x.toNat % 256 * 256 + x.toNat / 256)

def cpu_to_be_16 (host : ByteOrder) (x : UInt16) : UInt16 :=
  match host with
  | .little => bswap16 x
  | .big => x

def be_to_cpu_16 (host : ByteOrder) (x : UInt16) : UInt16 :=
  match host with
  | .little => bswap16 x
  | .big => x

def bswap32 (x : UInt32) : UInt32 :=
  UInt32.ofNat (x.toNat % 256 * 16777216 + x.toNat / 256 % 256 * 65536 + x.toNat / 65536 % 256 * 256 +
    x.toNat / 16777216)

def be_to_cpu_32 (host : ByteOrder) (x : UInt32) : UInt32 :=
  match host with
  | .little => bswap32 x
  | .big => x

/-- A `uint16_t` in memory. -/
def memory16 (host : ByteOrder) (x : UInt16) : List UInt8 :=
  match host with
  | .little => (bytes16 x.toNat).reverse
  | .big => bytes16 x.toNat

/-- A `uint32_t` in memory. -/
def memory32 (host : ByteOrder) (x : UInt32) : List UInt8 :=
  match host with
  | .little => (bytes32 x).reverse
  | .big => bytes32 x

/-- The `uint16_t` that two bytes of memory hold. -/
def load16 (host : ByteOrder) (a b : UInt8) : UInt16 :=
  match host with
  | .little => UInt16.ofNat (read16 b a)
  | .big => UInt16.ofNat (read16 a b)

/-! ## `checksum.cpp` -/

/-- `compute_checksum_partial` of the bytes at an address, `count` of them. -/
def compute_checksum_partial (host : ByteOrder) : List UInt8 → UInt32 → UInt32
  | a :: b :: data, sum =>
    compute_checksum_partial host data (sum + (be_to_cpu_16 host (load16 host a b)).toUInt32)
  | [a], sum => sum + a.toUInt32
  | [], sum => sum

theorem carry_decreasing {sum : UInt32} (h : sum >>> 16 ≠ 0) :
    (sum &&& (0xffff : UInt32)).toNat + (sum >>> 16).toNat < sum.toNat ∧
      (sum &&& (0xffff : UInt32)).toNat = sum.toNat % 65536 ∧ (sum >>> 16).toNat = sum.toNat / 65536 := by
  have hlow : (sum &&& (0xffff : UInt32)).toNat = sum.toNat % 65536 := by
    rw [UInt32.toNat_and]
    exact Nat.and_two_pow_sub_one_eq_mod (n := 16) sum.toNat
  have hhigh : (sum >>> 16).toNat = sum.toNat / 65536 := by
    rw [UInt32.toNat_shiftRight]
    exact Nat.shiftRight_eq_div_pow sum.toNat 16
  have hpos : sum.toNat / 65536 ≠ 0 := fun h0 => h (UInt32.toNat_inj.mp (hhigh.trans h0))
  omega

/-- The loop of `compute_checksum_finalize`. -/
def carry (sum : UInt32) : UInt32 :=
  if sum >>> 16 ≠ 0 then carry ((sum &&& (0xffff : UInt32)) + (sum >>> 16)) else sum
termination_by sum.toNat
decreasing_by
  rename_i h
  obtain ⟨hlt, -⟩ := carry_decreasing h
  have hsum := sum.toNat_lt
  rw [UInt32.toNat_add, Nat.mod_eq_of_lt (by omega)]
  exact hlt

def compute_checksum_finalize (sum : UInt32) : UInt16 := (~~~carry sum).toUInt16

/-- `compute_checksum` of the bytes at an address, as many as its `int` says. -/
def compute_checksum (host : ByteOrder) (addr8 : List UInt8) : UInt16 :=
  let sum := compute_checksum_partial host addr8 0
  compute_checksum_finalize sum

/-! ## `packet.cpp`, `ethernet_packet.cpp`, `ip_packet.cpp` -/

structure Packet where
  payload : List UInt8

namespace Packet
variable (p : Packet)

def getPayloadSize : UInt16 := UInt16.ofNat p.payload.length

/-- `addPayload`, which refuses nothing. -/
def addPayload (_ : Packet) (data : List UInt8) : Packet where
  payload := data

/-- The `getPayloadSize()` bytes at `getPayloadPointer()`. -/
def payloadBytes : List UInt8 := p.payload.take p.getPayloadSize.toNat

end Packet

structure EthernetPacket extends Packet where
  dst_mac : Vector UInt8 6
  src_mac : Vector UInt8 6
  ethertype : UInt16

def EthernetPacket.asBinary (host : ByteOrder) (p : EthernetPacket) : List UInt8 :=
  p.dst_mac.toList ++ p.src_mac.toList ++ memory16 host p.ethertype

structure IPPacket extends EthernetPacket where
  version : UInt8

def IPPacket.asBinary (host : ByteOrder) (p : IPPacket) : List UInt8 := p.toEthernetPacket.asBinary host

/-! ## `ipv4_packet.cpp` -/

/-- `ipv4_header_t`. -/
structure IPv4Header where
  ihl : UInt8
  version : UInt8
  dscp : UInt8
  ecn : UInt8
  total_length : UInt16
  id : UInt16
  frag_off : UInt16
  ttl : UInt8
  protocol : UInt8
  checksum : UInt16
  src_addr : Vector UInt8 4
  dst_addr : Vector UInt8 4

namespace IPv4Header

/-- The byte of `dscp : 6` and `ecn : 2`, in this order on every host. -/
def dscpByte (host : ByteOrder) (h : IPv4Header) : Nat :=
  match host with
  | .little => h.dscp.toNat % 64 + h.ecn.toNat % 4 * 64
  | .big => h.dscp.toNat % 64 * 4 + h.ecn.toNat % 4

/-- The header in memory.  `version : 4` is above `ihl : 4` on both kinds of host. -/
def bytes (host : ByteOrder) (h : IPv4Header) : List UInt8 :=
  [UInt8.ofNat (h.version.toNat % 16 * 16 + h.ihl.toNat % 16), UInt8.ofNat (h.dscpByte host)] ++
    memory16 host h.total_length ++ memory16 host h.id ++ memory16 host h.frag_off ++
    [h.ttl, h.protocol] ++ memory16 host h.checksum ++ h.src_addr.toList ++ h.dst_addr.toList

end IPv4Header

/-- An `IPv4Packet`.  `_clear` sets `ihl`, and nothing else does. -/
structure IPv4Packet extends IPPacket where
  ihl : UInt8
  dscp : UInt8
  ecn : UInt8
  id : UInt16
  frag_off : UInt16
  ttl : UInt8
  protocol : UInt8
  src_addr : Vector UInt8 4
  dst_addr : Vector UInt8 4
  ihl_eq : ihl = 5

namespace IPv4Packet
variable (host : ByteOrder) (p : IPv4Packet) (headerSizeTotal : UInt16)

/-- `IPv4Packet()`. -/
def new : IPv4Packet where
  payload := []
  dst_mac := Vector.replicate 6 0
  src_mac := Vector.replicate 6 0
  ethertype := cpu_to_be_16 host 0x0800
  version := 4
  ihl := 5
  dscp := 0
  ecn := 0
  id := 0
  frag_off := 0
  ttl := 64
  protocol := 0
  src_addr := Vector.replicate 4 0
  dst_addr := Vector.replicate 4 0
  ihl_eq := rfl

def getDSCP : UInt8 := p.dscp
def setDSCP (newDSCP : UInt8) : IPv4Packet := { p with dscp := newDSCP }
def getECN : UInt8 := p.ecn
def setECN (newECN : UInt8) : IPv4Packet := { p with ecn := newECN }
def getId : UInt16 := be_to_cpu_16 host p.id
def setId (newId : UInt16) : IPv4Packet := { p with id := cpu_to_be_16 host newId }
def getFragOff : UInt16 := be_to_cpu_16 host p.frag_off
def setFragOff (newFragOff : UInt16) : IPv4Packet := { p with frag_off := cpu_to_be_16 host newFragOff }
def getTtl : UInt8 := p.ttl
def setTtl (newTTL : UInt8) : IPv4Packet := { p with ttl := newTTL }
def getProtocol : UInt8 := p.protocol
def setProtocol (newProtocol : UInt8) : IPv4Packet := { p with protocol := newProtocol }
def getDstAddr : Vector UInt8 4 := p.dst_addr
def setDstAddr (newDstAddr : Vector UInt8 4) : IPv4Packet := { p with dst_addr := newDstAddr }
def getSrcAddr : Vector UInt8 4 := p.src_addr
def setSrcAddr (newSrcAddr : Vector UInt8 4) : IPv4Packet := { p with src_addr := newSrcAddr }

def getHeaderSize : UInt16 := p.ihl.toUInt16 * 4

def getHeaderSizeTotal : UInt16 := p.getHeaderSize

/-- `getLayer3Size`, whose call of `getHeaderSizeTotal` is a virtual one. -/
def getLayer3Size : UInt16 := headerSizeTotal + p.getPayloadSize

def _getIPv4Checksum : UInt16 :=
  let header : IPv4Header := {
    ihl := p.ihl
    version := 4
    dscp := p.dscp
    ecn := p.ecn
    total_length := cpu_to_be_16 host (p.getLayer3Size headerSizeTotal)
    id := cpu_to_be_16 host p.id
    frag_off := cpu_to_be_16 host p.frag_off
    ttl := p.ttl
    protocol := p.protocol
    src_addr := p.src_addr
    dst_addr := p.dst_addr
    checksum := 0 }
  let partial_checksum := compute_checksum_partial host (header.bytes host) 0
  compute_checksum_finalize partial_checksum

/-- `ipv4_pseudo_header_t` in memory. -/
def pseudoHeader (length : UInt16) : List UInt8 :=
  p.src_addr.toList ++ p.dst_addr.toList ++ [0, p.protocol] ++ memory16 host (cpu_to_be_16 host length)

def getPseudoChecksumLayer3 (length : UInt16) : UInt32 :=
  compute_checksum_partial host (p.pseudoHeader host length) 0

def asBinary : List UInt8 :=
  let header : IPv4Header := {
    ihl := p.ihl
    version := 4
    dscp := p.dscp
    ecn := p.ecn
    total_length := cpu_to_be_16 host (p.getLayer3Size headerSizeTotal)
    id := cpu_to_be_16 host p.id
    frag_off := cpu_to_be_16 host p.frag_off
    ttl := p.ttl
    protocol := p.protocol
    src_addr := p.src_addr
    dst_addr := p.dst_addr
    checksum := cpu_to_be_16 host (p._getIPv4Checksum host headerSizeTotal) }
  p.toIPPacket.asBinary host ++ header.bytes host

end IPv4Packet

/-! ## `ipv6_packet.cpp` -/

/-- `ipv6_header_t`. -/
structure IPv6Header where
  version : UInt8
  priority : UInt8
  flow_label : UInt32
  payload_length : UInt16
  next_header : UInt8
  hop_limit : UInt8
  src_addr : Vector UInt8 16
  dst_addr : Vector UInt8 16

namespace IPv6Header

/-- The bytes of `flow_label : 24`. -/
def flowLabelBytes (host : ByteOrder) (h : IPv6Header) : List UInt8 :=
  match host with
  | .little => ((bytes32 h.flow_label).drop 1).reverse
  | .big => (bytes32 h.flow_label).drop 1

/-- The header in memory.  `version : 4` is above `priority : 4` on both kinds of host. -/
def bytes (host : ByteOrder) (h : IPv6Header) : List UInt8 :=
  [UInt8.ofNat (h.version.toNat % 16 * 16 + h.priority.toNat % 16)] ++ h.flowLabelBytes host ++
    memory16 host h.payload_length ++ [h.next_header, h.hop_limit] ++ h.src_addr.toList ++
    h.dst_addr.toList

end IPv6Header

structure IPv6Packet extends IPPacket where
  priority : UInt8
  flow_label : UInt32
  next_header : UInt8
  hop_limit : UInt8
  src_addr : Vector UInt8 16
  dst_addr : Vector UInt8 16

namespace IPv6Packet
variable (host : ByteOrder) (p : IPv6Packet) (headerSizeTotal : UInt16)

/-- `IPv6Packet()`. -/
def new : IPv6Packet where
  payload := []
  dst_mac := Vector.replicate 6 0
  src_mac := Vector.replicate 6 0
  ethertype := cpu_to_be_16 host 0x86dd
  version := 6
  priority := 0
  flow_label := 0
  next_header := 0
  hop_limit := 64
  src_addr := Vector.replicate 16 0
  dst_addr := Vector.replicate 16 0

def getTrafficClass : UInt8 := p.priority
def setTrafficClass (newTrafficClass : UInt8) : IPv6Packet := { p with priority := newTrafficClass }
def getFlowLabel : UInt8 := p.flow_label.toUInt8
def setFlowLabel (newFlowLabel : UInt8) : IPv6Packet := { p with flow_label := newFlowLabel.toUInt32 }
def getNextHeader : UInt8 := p.next_header
def setNextHeader (newNextHeader : UInt8) : IPv6Packet := { p with next_header := newNextHeader }
def getHopLimit : UInt8 := p.hop_limit
def setHopLimit (newHopLimit : UInt8) : IPv6Packet := { p with hop_limit := newHopLimit }
def getDstAddr : Vector UInt8 16 := p.dst_addr
def setDstAddr (newDstAddr : Vector UInt8 16) : IPv6Packet := { p with dst_addr := newDstAddr }
def getSrcAddr : Vector UInt8 16 := p.src_addr
def setSrcAddr (newSrcAddr : Vector UInt8 16) : IPv6Packet := { p with src_addr := newSrcAddr }

/-- `sizeof(ipv6_header_t)`. -/
def getHeaderSize : UInt16 := 40

def getHeaderSizeTotal : UInt16 := getHeaderSize

/-- `getLayer3Size`, whose call of `getHeaderSizeTotal` is a virtual one. -/
def getLayer3Size : UInt16 := headerSizeTotal + p.getPayloadSize

def _ipv6HeaderPayloadLength : UInt16 := p.getLayer3Size headerSizeTotal - getHeaderSize

/-- `ipv6_pseudo_header_t` in memory.  `length` has 32 bits, but is given a swapped number of 16. -/
def pseudoHeader (length : UInt16) : List UInt8 :=
  p.src_addr.toList ++ p.dst_addr.toList ++ memory32 host (cpu_to_be_16 host length).toUInt32 ++
    [0, 0, 0, p.next_header]

def getPseudoChecksumLayer3 (length : UInt16) : UInt32 :=
  compute_checksum_partial host (p.pseudoHeader host length) 0

def asBinary : List UInt8 :=
  let header : IPv6Header := {
    version := p.version
    priority := p.priority
    flow_label := p.flow_label
    next_header := p.next_header
    hop_limit := p.hop_limit
    payload_length := cpu_to_be_16 host (p._ipv6HeaderPayloadLength headerSizeTotal)
    src_addr := p.src_addr
    dst_addr := p.dst_addr }
  p.toIPPacket.asBinary host ++ header.bytes host

end IPv6Packet

/-- What the layer-4 packets use of the class they are derived from. -/
class Layer3 (T : Type) where
  toPacket : T → Packet
  getHeaderSizeTotal : T → UInt16
  getPseudoChecksumLayer3 : ByteOrder → T → UInt16 → UInt32
  asBinary : ByteOrder → T → UInt16 → List UInt8

instance : Layer3 IPv4Packet where
  toPacket p := p.toPacket
  getHeaderSizeTotal := IPv4Packet.getHeaderSizeTotal
  getPseudoChecksumLayer3 := IPv4Packet.getPseudoChecksumLayer3
  asBinary := IPv4Packet.asBinary

instance : Layer3 IPv6Packet where
  toPacket p := p.toPacket
  getHeaderSizeTotal _ := IPv6Packet.getHeaderSizeTotal
  getPseudoChecksumLayer3 := IPv6Packet.getPseudoChecksumLayer3
  asBinary := IPv6Packet.asBinary

/-! ## `udp_packet.cpp` -/

/-- `udp_header_t`. -/
structure UDPHeader where
  src_port : UInt16
  dst_port : UInt16
  length : UInt16
  checksum : UInt16

def UDPHeader.bytes (host : ByteOrder) (h : UDPHeader) : List UInt8 :=
  memory16 host h.src_port ++ memory16 host h.dst_port ++ memory16 host h.length ++
    memory16 host h.checksum

structure UDPPacketTmpl (T : Type) where
  base : T
  src_port : UInt16
  dst_port : UInt16

namespace UDPPacketTmpl
variable {T : Type} [Layer3 T] (host : ByteOrder) (p : UDPPacketTmpl T)

/-- `sizeof(udp_header_t)`. -/
def getHeaderSize : UInt16 := 8

def getHeaderSizeTotal : UInt16 := Layer3.getHeaderSizeTotal p.base + getHeaderSize

def getLayer4Size : UInt16 := getHeaderSize + (Layer3.toPacket p.base).getPayloadSize

def getChecksumLayer4 : UInt16 :=
  let header : UDPHeader := {
    src_port := p.src_port
    dst_port := p.dst_port
    length := cpu_to_be_16 host p.getLayer4Size
    checksum := 0 }
  let partial_checksum := Layer3.getPseudoChecksumLayer3 host p.base p.getLayer4Size
  let partial_checksum := compute_checksum_partial host (header.bytes host) partial_checksum
  let partial_checksum :=
    compute_checksum_partial host (Layer3.toPacket p.base).payloadBytes partial_checksum
  compute_checksum_finalize partial_checksum

def asBinary : List UInt8 :=
  let header : UDPHeader := {
    src_port := p.src_port
    dst_port := p.dst_port
    length := cpu_to_be_16 host p.getLayer4Size
    checksum := cpu_to_be_16 host (p.getChecksumLayer4 host) }
  Layer3.asBinary host p.base p.getHeaderSizeTotal ++ header.bytes host ++
    (Layer3.toPacket p.base).payloadBytes

end UDPPacketTmpl

/-! ## `tcp_packet.cpp` -/

/-- `tcp_options_header_t`. -/
structure TCPOptionsHeader where
  cwr : Bool
  ece : Bool
  urg : Bool
  ack : Bool
  psh : Bool
  rst : Bool
  syn : Bool
  fin : Bool

/-- The byte of the eight flags, `cwr` uppermost on both kinds of host. -/
def TCPOptionsHeader.byte (o : TCPOptionsHeader) : UInt8 :=
  UInt8.ofNat (o.cwr.toNat * 128 + o.ece.toNat * 64 + o.urg.toNat * 32 + o.ack.toNat * 16 +
    o.psh.toNat * 8 + o.rst.toNat * 4 + o.syn.toNat * 2 + o.fin.toNat)

/-- `tcp_header_t`. -/
structure TCPHeader where
  src_port : UInt16
  dst_port : UInt16
  sequence : UInt32
  ack : UInt32
  offset : UInt8
  reserved : UInt8
  options : TCPOptionsHeader
  window : UInt16
  checksum : UInt16
  urgent : UInt16

/-- The header in memory.  Where the host is big-endian `offset` is called otherwise, and the code does
not compile. -/
def TCPHeader.bytes (host : ByteOrder) (h : TCPHeader) : List UInt8 :=
  memory16 host h.src_port ++ memory16 host h.dst_port ++ memory32 host h.sequence ++
    memory32 host h.ack ++
    [UInt8.ofNat (h.reserved.toNat % 16 + h.offset.toNat % 16 * 16), h.options.byte] ++
    memory16 host h.window ++ memory16 host h.checksum ++ memory16 host h.urgent

structure TCPPacketTmpl (T : Type) where
  base : T
  src_port : UInt16
  dst_port : UInt16
  sequence : UInt32
  ack : UInt32
  offset : UInt8
  opt_cwr : Bool
  opt_ece : Bool
  opt_urg : Bool
  opt_ack : Bool
  opt_psh : Bool
  opt_rst : Bool
  opt_syn : Bool
  opt_fin : Bool
  window : UInt16
  urgent : UInt16

namespace TCPPacketTmpl
section Accessors
variable {T : Type} (host : ByteOrder) (p : TCPPacketTmpl T)

def getSrcPort : UInt16 := be_to_cpu_16 host p.src_port
def setSrcPort (newSrcPort : UInt16) : TCPPacketTmpl T := { p with src_port := cpu_to_be_16 host newSrcPort }
def getDstPort : UInt16 := be_to_cpu_16 host p.dst_port
def setDstPort (newDstPort : UInt16) : TCPPacketTmpl T := { p with dst_port := cpu_to_be_16 host newDstPort }
def getSequence : UInt32 := be_to_cpu_32 host p.sequence
def setSequence (newSequence : UInt32) : TCPPacketTmpl T :=
  { p with sequence := be_to_cpu_32 host newSequence }
def getAck : UInt32 := be_to_cpu_32 host p.ack
def setAck (newAck : UInt32) : TCPPacketTmpl T := { p with ack := be_to_cpu_32 host newAck }
def getOffset : UInt8 := p.offset
/-- It stores the offset in `ack`. -/
def setOffset (newOffset : UInt8) : TCPPacketTmpl T := { p with ack := newOffset.toUInt32 }
def getOptCWR : Bool := p.opt_cwr
def setOptCWR (newOptCWR : Bool) : TCPPacketTmpl T := { p with opt_cwr := newOptCWR }
def getOptECE : Bool := p.opt_ece
def setOptECE (newOptECE : Bool) : TCPPacketTmpl T := { p with opt_ece := newOptECE }
def getOptURG : Bool := p.opt_urg
def setOptURG (newOptURG : Bool) : TCPPacketTmpl T := { p with opt_urg := newOptURG }
def getOptACK : Bool := p.opt_ack
def setOptACK (newOptAck : Bool) : TCPPacketTmpl T := { p with opt_ack := newOptAck }
def getOptPSH : Bool := p.opt_psh
def setOptPSH (newOptPsh : Bool) : TCPPacketTmpl T := { p with opt_psh := newOptPsh }
def getOptRST : Bool := p.opt_rst
def setOptRST (newOptRst : Bool) : TCPPacketTmpl T := { p with opt_rst := newOptRst }
def getOptSYN : Bool := p.opt_syn
def setOptSYN (newOptSyn : Bool) : TCPPacketTmpl T := { p with opt_syn := newOptSyn }
def getOptFIN : Bool := p.opt_fin
def setOptFIN (newOptFin : Bool) : TCPPacketTmpl T := { p with opt_fin := newOptFin }
/-- A `uint16_t` swapped as one of 32 bits. -/
def getWindow : UInt16 := (be_to_cpu_32 host p.window.toUInt32).toUInt16
/-- It stores the window in `ack`. -/
def setWindow (newWindow : UInt16) : TCPPacketTmpl T :=
  { p with ack := be_to_cpu_32 host newWindow.toUInt32 }
/-- A `uint16_t` swapped as one of 32 bits. -/
def getUrgent : UInt16 := (be_to_cpu_32 host p.urgent.toUInt32).toUInt16
/-- It stores the pointer in `ack`. -/
def setUrgent (newUrgent : UInt16) : TCPPacketTmpl T :=
  { p with ack := be_to_cpu_32 host newUrgent.toUInt32 }

end Accessors
variable {T : Type} [Layer3 T] (host : ByteOrder) (p : TCPPacketTmpl T)

/-- `sizeof(tcp_header_t)`. -/
def getHeaderSize : UInt16 := 20

def getHeaderSizeTotal : UInt16 := Layer3.getHeaderSizeTotal p.base + getHeaderSize

def getLayer4Size : UInt16 := getHeaderSize + (Layer3.toPacket p.base).getPayloadSize

def getChecksumLayer4 : UInt16 :=
  let header : TCPHeader := {
    src_port := p.src_port
    dst_port := p.dst_port
    sequence := p.sequence
    ack := p.ack
    offset := p.offset
    reserved := 0
    options := ⟨p.opt_cwr, p.opt_ece, p.opt_urg, p.opt_ack, p.opt_psh, p.opt_rst, p.opt_syn, p.opt_fin⟩
    window := p.window
    urgent := p.urgent
    checksum := 0 }
  let partial_checksum := Layer3.getPseudoChecksumLayer3 host p.base p.getLayer4Size
  let partial_checksum := compute_checksum_partial host (header.bytes host) partial_checksum
  let partial_checksum :=
    compute_checksum_partial host (Layer3.toPacket p.base).payloadBytes partial_checksum
  compute_checksum_finalize partial_checksum

def asBinary : List UInt8 :=
  let header : TCPHeader := {
    src_port := p.src_port
    dst_port := p.dst_port
    sequence := p.sequence
    ack := p.ack
    offset := p.offset
    reserved := 0
    options := ⟨p.opt_cwr, p.opt_ece, p.opt_urg, p.opt_ack, p.opt_psh, p.opt_rst, p.opt_syn, p.opt_fin⟩
    window := p.window
    urgent := p.urgent
    checksum := cpu_to_be_16 host (p.getChecksumLayer4 host) }
  Layer3.asBinary host p.base p.getHeaderSizeTotal ++ header.bytes host ++
    (Layer3.toPacket p.base).payloadBytes

end TCPPacketTmpl

/-! ## `icmpv4_packet.cpp`, `icmpv6_packet.cpp` -/

/-- `icmp_header_t`. -/
structure ICMPHeader where
  type : UInt8
  code : UInt8
  checksum : UInt16
  unused : UInt32

def ICMPHeader.bytes (host : ByteOrder) (h : ICMPHeader) : List UInt8 :=
  [h.type, h.code] ++ memory16 host h.checksum ++ memory32 host h.unused

structure ICMPv4Packet extends IPv4Packet where
  type : UInt8
  code : UInt8

namespace ICMPv4Packet
variable (host : ByteOrder) (p : ICMPv4Packet)

/-- `sizeof(icmp_header_t)`. -/
def getHeaderSize : UInt16 := 8

def getHeaderSizeTotal : UInt16 := p.toIPv4Packet.getHeaderSizeTotal + getHeaderSize

def getChecksumLayer4 : UInt16 :=
  let header : ICMPHeader := {
    type := p.type
    code := p.code
    checksum := 0
    unused := 0 }
  let partial_checksum := compute_checksum_partial host (header.bytes host) 0
  let partial_checksum := compute_checksum_partial host p.payloadBytes partial_checksum
  compute_checksum_finalize partial_checksum

def asBinary : List UInt8 :=
  let header : ICMPHeader := {
    type := p.type
    code := p.code
    unused := 0
    checksum := cpu_to_be_16 host (p.getChecksumLayer4 host) }
  p.toIPv4Packet.asBinary host p.getHeaderSizeTotal ++ header.bytes host ++ p.payloadBytes

end ICMPv4Packet

/-- `icmp6_header_t`. -/
structure ICMP6Header where
  type : UInt8
  code : UInt8
  checksum : UInt16
  unused1 : UInt32
  unused2 : UInt32

def ICMP6Header.bytes (host : ByteOrder) (h : ICMP6Header) : List UInt8 :=
  [h.type, h.code] ++ memory16 host h.checksum ++ memory32 host h.unused1 ++ memory32 host h.unused2

structure ICMPv6Packet extends IPv6Packet where
  type : UInt8
  code : UInt8

namespace ICMPv6Packet
variable (host : ByteOrder) (p : ICMPv6Packet)

/-- `sizeof(icmp6_header_t)`. -/
def getHeaderSize : UInt16 := 12

def getHeaderSizeTotal : UInt16 := IPv6Packet.getHeaderSizeTotal + getHeaderSize

def getLayer4Size : UInt16 := getHeaderSize + p.getPayloadSize

def getChecksumLayer4 : UInt16 :=
  let header : ICMP6Header := {
    type := p.type
    code := p.code
    checksum := 0
    unused1 := 0
    unused2 := 0 }
  let partial_checksum := p.toIPv6Packet.getPseudoChecksumLayer3 host p.getLayer4Size
  let partial_checksum := compute_checksum_partial host (header.bytes host) partial_checksum
  let partial_checksum := compute_checksum_partial host p.payloadBytes partial_checksum
  compute_checksum_finalize partial_checksum

def asBinary : List UInt8 :=
  let header : ICMP6Header := {
    type := p.type
    code := p.code
    unused1 := 0
    unused2 := 0
    checksum := cpu_to_be_16 host (p.getChecksumLayer4 host) }
  p.toIPv6Packet.asBinary host getHeaderSizeTotal ++ header.bytes host ++ p.payloadBytes

end ICMPv6Packet
end SuperEthd.NetKit
