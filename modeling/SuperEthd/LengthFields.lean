import SuperEthd.ChecksumVerification

/-! # Length fields

Sizes are `uint16_t` throughout `libsethnetkit`, and a payload is a vector of any length: the fields
are right up to 65535 bytes, and beyond that `addPayload` takes what `asBinary` cannot send. -/
namespace SuperEthd.NetKit
open BigEndian

/-- **Where the IP header counts its bytes**: the length includes `counted` bytes of the header, and not
the `uncounted` others. -/
class CountsLength (T : Type) [Layer3 T] where
  lengthAt : Nat
  counted : Nat
  uncounted : Nat
  header_length : ∀ (host : ByteOrder) (p : T) (headerSizeTotal : UInt16),
    (Layer3.asBinary host p headerSizeTotal).length = 14 + (counted + uncounted)
  length_eq : ∀ (host : ByteOrder) (p : T) (size : UInt16) (rest : List UInt8),
    field ((Layer3.asBinary host p (Layer3.getHeaderSizeTotal p + size)).drop 14 ++ rest) lengthAt =
      (counted + size.toNat + (Layer3.toPacket p).payload.length) % 65536

/-- The bytes of the header. -/
def CountsLength.headerSize (T : Type) [Layer3 T] [CountsLength T] : Nat :=
  CountsLength.counted T + CountsLength.uncounted T

theorem getPayloadSize_mod (p : Packet) : p.getPayloadSize.toNat = p.payload.length % 65536 := by
  rw [Packet.getPayloadSize, UInt16.toNat_ofNat']

theorem payloadBytes_take (p : Packet) :
    p.payloadBytes = p.payload.take (p.payload.length % 65536) := by
  rw [Packet.payloadBytes, getPayloadSize_mod]

/-- The Ethernet header and the IPv4 header. -/
theorem IPv4Packet.asBinary_length (host : ByteOrder) (p : IPv4Packet) (headerSizeTotal : UInt16) :
    (Layer3.asBinary host p headerSizeTotal).length = 14 + (20 + 0) := by
  show (p.asBinary host headerSizeTotal).length = 34
  rw [IPv4Packet.asBinary_eq, List.length_append, ethernet_length]
  simp [IPv4Packet.firstBytes]

theorem IPv4Packet.length_field (host : ByteOrder) (p : IPv4Packet) (size : UInt16)
    (rest : List UInt8) :
    field ((Layer3.asBinary host p (Layer3.getHeaderSizeTotal p + size)).drop 14 ++ rest) 2 =
      (20 + size.toNat + (Layer3.toPacket p).payload.length) % 65536 := by
  have hip := p.ip_eq host (p.getHeaderSizeTotal + size) rest
  have hheader : p.getHeaderSizeTotal = 20 := by
    rw [IPv4Packet.getHeaderSizeTotal, IPv4Packet.getHeaderSize, p.ihl_eq]
    rfl
  have hsize : (p.getLayer3Size (p.getHeaderSizeTotal + size)).toNat =
      (20 + size.toNat + p.payload.length) % 65536 := by
    have h20 : UInt16.toNat 20 = 20 := rfl
    have hpayload := getPayloadSize_mod p.toPacket
    rw [IPv4Packet.getLayer3Size, hheader, UInt16.toNat_add, UInt16.toNat_add, hpayload, h20]
    omega
  show field ((p.asBinary host (p.getHeaderSizeTotal + size)).drop 14 ++ rest) 2 = _
  rw [hip]
  exact (read16_bytes16 (UInt16.toNat_lt _)).trans hsize

instance : CountsLength IPv4Packet where
  lengthAt := 2
  counted := 20
  uncounted := 0
  header_length := IPv4Packet.asBinary_length
  length_eq := IPv4Packet.length_field

/-- The Ethernet header and the IPv6 header. -/
theorem IPv6Packet.asBinary_length (host : ByteOrder) (p : IPv6Packet) (headerSizeTotal : UInt16) :
    (Layer3.asBinary host p headerSizeTotal).length = 14 + (0 + 40) := by
  have hlabel : ∀ h : IPv6Header, (h.flowLabelBytes host).length = 3 := by
    intro h
    cases host <;> rfl
  show (p.asBinary host headerSizeTotal).length = 54
  rw [IPv6Packet.asBinary, List.length_append]
  simp [IPv6Header.bytes, hlabel, ethernet_length]

theorem IPv6Packet.length_field (host : ByteOrder) (p : IPv6Packet) (size : UInt16)
    (rest : List UInt8) :
    field ((Layer3.asBinary host p (Layer3.getHeaderSizeTotal p + size)).drop 14 ++ rest) 4 =
      (0 + size.toNat + (Layer3.toPacket p).payload.length) % 65536 := by
  obtain ⟨b0, b1, b2, b3, hip⟩ := p.ip_eq host (IPv6Packet.getHeaderSizeTotal + size) rest
  have hfield : p._ipv6HeaderPayloadLength (IPv6Packet.getHeaderSizeTotal + size) =
      size + p.getPayloadSize := by
    show 40 + size + p.getPayloadSize - 40 = size + p.getPayloadSize
    rw [add_assoc, add_sub_cancel_left]
  have hsize : (size + p.getPayloadSize).toNat = (0 + size.toNat + p.payload.length) % 65536 := by
    have hpayload := getPayloadSize_mod p.toPacket
    rw [UInt16.toNat_add, hpayload]
    omega
  show field ((p.asBinary host (IPv6Packet.getHeaderSizeTotal + size)).drop 14 ++ rest) 4 = _
  rw [hip, hfield]
  exact (read16_bytes16 (UInt16.toNat_lt _)).trans hsize

instance : CountsLength IPv6Packet where
  lengthAt := 4
  counted := 0
  uncounted := 40
  header_length := IPv6Packet.asBinary_length
  length_eq := IPv6Packet.length_field

section Matches
variable {T : Type} [Layer3 T] [CountsLength T]

/-- **The lengths of a packet from its IP header on match**: the IP header counts what is there, and
the payload is behind a header of layer 4 of `size` bytes. -/
def IPLengthMatches (T : Type) [Layer3 T] [CountsLength T] (ip payload : List UInt8) (size : Nat) : Prop :=
  field ip (CountsLength.lengthAt T) + CountsLength.uncounted T = ip.length ∧
    ip.drop (CountsLength.headerSize T + size) = payload

/-- **The length of the IP header is right and the payload is complete** if and only if 16 bits hold
the length. -/
theorem ipLengthMatches_iff (host : ByteOrder) (p : T) (size : UInt16) (head : List UInt8)
    (hhead : head.length = size.toNat) :
    IPLengthMatches T ((Layer3.asBinary host p (Layer3.getHeaderSizeTotal p + size) ++ head ++
      (Layer3.toPacket p).payloadBytes).drop 14) (Layer3.toPacket p).payload size.toNat ↔
      CountsLength.counted T + size.toNat + (Layer3.toPacket p).payload.length < 65536 := by
  obtain ⟨payload, hpayload⟩ : ∃ l, (Layer3.toPacket p).payload = l := ⟨_, rfl⟩
  obtain ⟨front, hfront⟩ : ∃ l, l = Layer3.asBinary host p (Layer3.getHeaderSizeTotal p + size) := ⟨_, rfl⟩
  have hlen : front.length = 14 + CountsLength.headerSize T := hfront ▸ CountsLength.header_length host p _
  have hsplit : CountsLength.headerSize T = CountsLength.counted T + CountsLength.uncounted T := rfl
  have hip : (front ++ head ++ (Layer3.toPacket p).payloadBytes).drop 14 =
      front.drop 14 ++ (head ++ payload.take (payload.length % 65536)) := by
    rw [payloadBytes_take, hpayload, List.append_assoc, List.drop_append_of_le_length (by omega)]
  have hfield := CountsLength.length_eq host p size (head ++ payload.take (payload.length % 65536))
  rw [← hfront, hpayload] at hfield
  have hmod : payload.length % 65536 ≤ payload.length := Nat.mod_le _ _
  have hdrop : (front.drop 14 ++ (head ++ payload.take (payload.length % 65536))).drop
      (CountsLength.headerSize T + size.toNat) = payload.take (payload.length % 65536) := by
    rw [← List.append_assoc, List.drop_left']
    rw [List.length_append, List.length_drop, hlen, hhead, Nat.add_sub_cancel_left]
  rw [← hfront, hip, hpayload, IPLengthMatches, hfield, hdrop]
  simp only [List.length_append, List.length_drop, List.length_take, hlen, hhead, Nat.min_eq_left hmod,
    Nat.add_sub_cancel_left]
  constructor
  · rintro ⟨hcount, hall⟩
    have hcomplete := congrArg List.length hall
    rw [List.length_take, Nat.min_eq_left hmod] at hcomplete
    have hlt : (CountsLength.counted T + size.toNat + payload.length) % 65536 < 65536 :=
      Nat.mod_lt _ (by decide)
    omega
  · intro hfits
    have hsmall : payload.length % 65536 = payload.length := Nat.mod_eq_of_lt (by omega)
    rw [Nat.mod_eq_of_lt hfits, hsmall]
    exact ⟨by omega, List.take_length⟩

/-- The length in a UDP header counts what is there. -/
def UDPLengthMatches (udp : List UInt8) : Prop := field udp 4 = udp.length

theorem udpLengthMatches (host : ByteOrder) (p : UDPPacketTmpl T)
    (hfits : 8 + (Layer3.toPacket p.base).payload.length < 65536) :
    UDPLengthMatches (((p.asBinary host).drop 14).drop (CountsLength.headerSize T)) := by
  have hsmall : (Layer3.toPacket p.base).payload.length < 65536 := by omega
  have hsize := getLayer4Size_toNat p hfits
  have hfront : (Layer3.asBinary host p.base p.getHeaderSizeTotal).length = 14 + CountsLength.headerSize T :=
    CountsLength.header_length host p.base p.getHeaderSizeTotal
  obtain ⟨s0, s1, hsrc⟩ := exists_memory16 host p.src_port
  obtain ⟨d0, d1, hdst⟩ := exists_memory16 host p.dst_port
  rw [UDPPacketTmpl.asBinary, List.append_assoc, List.drop_drop, List.drop_left' hfront, UDPLengthMatches,
    payloadBytes_eq hsmall, UDPHeader.bytes, hsrc, hdst, memory16_cpu_to_be, hsize]
  simp only [List.length_append, memory16_length, bytes16_length, List.length_cons, List.length_nil]
  exact read16_bytes16 hfits

end Matches

namespace BuiltPacket

/-- `addPayload`, which refuses nothing. -/
def addPayload (p : BuiltPacket) (data : List UInt8) : BuiltPacket :=
  match p with
  | udpv4 p => udpv4 { p with base := { p.base with toPacket := p.base.toPacket.addPayload data } }
  | udpv6 p => udpv6 { p with base := { p.base with toPacket := p.base.toPacket.addPayload data } }
  | tcpv4 p => tcpv4 { p with base := { p.base with toPacket := p.base.toPacket.addPayload data } }
  | tcpv6 p => tcpv6 { p with base := { p.base with toPacket := p.base.toPacket.addPayload data } }
  | icmpv4 p => icmpv4 { p with toPacket := p.toPacket.addPayload data }
  | icmpv6 p => icmpv6 { p with toPacket := p.toPacket.addPayload data }

/-- **The length fields match** what is sent, and the payload is sent whole. -/
def LengthsMatch (host : ByteOrder) (p : BuiltPacket) : Prop :=
  let ip := (p.asBinary host).drop 14
  match p with
  | udpv4 _ => IPLengthMatches IPv4Packet ip p.payload 8 ∧ UDPLengthMatches (ip.drop 20)
  | udpv6 _ => IPLengthMatches IPv6Packet ip p.payload 8 ∧ UDPLengthMatches (ip.drop 40)
  | tcpv4 _ => IPLengthMatches IPv4Packet ip p.payload 20
  | tcpv6 _ => IPLengthMatches IPv6Packet ip p.payload 20
  | icmpv4 _ => IPLengthMatches IPv4Packet ip p.payload 8
  | icmpv6 _ => IPLengthMatches IPv6Packet ip p.payload 12

variable (host : ByteOrder)

theorem udp_lengths_iff {T : Type} [Layer3 T] [CountsLength T] (p : UDPPacketTmpl T) :
    IPLengthMatches T ((p.asBinary host).drop 14) (Layer3.toPacket p.base).payload 8 ∧
        UDPLengthMatches (((p.asBinary host).drop 14).drop (CountsLength.headerSize T)) ↔
      CountsLength.counted T + 8 + (Layer3.toPacket p.base).payload.length < 65536 := by
  have hip := ipLengthMatches_iff host p.base 8
    (UDPHeader.bytes host ⟨p.src_port, p.dst_port, cpu_to_be_16 host p.getLayer4Size,
      cpu_to_be_16 host (p.getChecksumLayer4 host)⟩) (by simp [UDPHeader.bytes])
  constructor
  · intro h
    exact hip.mp h.1
  · intro hfits
    have hudp : 8 + (Layer3.toPacket p.base).payload.length < 65536 := by omega
    exact ⟨hip.mpr hfits, udpLengthMatches host p hudp⟩

theorem tcp_lengths_iff {T : Type} [Layer3 T] [CountsLength T] (p : TCPPacketTmpl T) :
    IPLengthMatches T ((p.asBinary host).drop 14) (Layer3.toPacket p.base).payload 20 ↔
      CountsLength.counted T + 20 + (Layer3.toPacket p.base).payload.length < 65536 :=
  ipLengthMatches_iff host p.base 20
    (TCPHeader.bytes host ⟨p.src_port, p.dst_port, p.sequence, p.ack, p.offset, 0, ⟨p.opt_cwr, p.opt_ece,
      p.opt_urg, p.opt_ack, p.opt_psh, p.opt_rst, p.opt_syn, p.opt_fin⟩, p.window,
      cpu_to_be_16 host (p.getChecksumLayer4 host), p.urgent⟩) (by simp [TCPHeader.bytes])

theorem icmpv4_lengths_iff (p : ICMPv4Packet) :
    IPLengthMatches IPv4Packet ((p.asBinary host).drop 14) p.payload 8 ↔
      20 + 8 + p.payload.length < 65536 :=
  ipLengthMatches_iff host p.toIPv4Packet 8
    (ICMPHeader.bytes host ⟨p.type, p.code, cpu_to_be_16 host (p.getChecksumLayer4 host), 0⟩)
    (by simp [ICMPHeader.bytes])

theorem icmpv6_lengths_iff (p : ICMPv6Packet) :
    IPLengthMatches IPv6Packet ((p.asBinary host).drop 14) p.payload 12 ↔
      0 + 12 + p.payload.length < 65536 :=
  ipLengthMatches_iff host p.toIPv6Packet 12
    (ICMP6Header.bytes host ⟨p.type, p.code, cpu_to_be_16 host (p.getChecksumLayer4 host), 0, 0⟩)
    (by simp [ICMP6Header.bytes])

/-- **Lengths match** if and only if the length of the packet, in IPv6 that of the payload, is below
65536. -/
theorem lengthsMatch_iff (host : ByteOrder) (p : BuiltPacket) (data : List UInt8) :
    (p.addPayload data).LengthsMatch host ↔ (p.addPayload data).totalLength < 65536 := by
  cases p.addPayload data with
  | udpv4 p => exact udp_lengths_iff host p
  | udpv6 p => exact (udp_lengths_iff host p).trans (by rw [totalLength]; exact Nat.zero_add 8 ▸ Iff.rfl)
  | tcpv4 p => exact tcp_lengths_iff host p
  | tcpv6 p => exact (tcp_lengths_iff host p).trans (by rw [totalLength]; exact Nat.zero_add 20 ▸ Iff.rfl)
  | icmpv4 p => exact icmpv4_lengths_iff host p
  | icmpv6 p => exact (icmpv6_lengths_iff host p).trans (by rw [totalLength, Nat.zero_add]; rfl)

/-- **A payload of 65536 bytes** is taken, and none of it sent. -/
theorem payload_not_sent :
    ¬((udpv4 ⟨IPv4Packet.sample [], 0x0100, 0x0200⟩).addPayload (List.replicate 65536 1)).LengthsMatch .little := by
  have hfits : ∀ data, ((udpv4 ⟨IPv4Packet.sample [], 0x0100, 0x0200⟩).addPayload data).LengthsMatch .little →
      20 + 8 + data.length < 65536 := by
    intro data h
    exact (udp_lengths_iff .little _).mp h
  intro h
  have hlt := hfits _ h
  rw [List.length_replicate] at hlt
  omega

end BuiltPacket
end SuperEthd.NetKit
