import SuperEthd.Checksum

/-! # Whether built packets verify

A receiver takes the layer-4 bytes and the pseudo-header from the packet it got, and adds them up as
RFC 1071 says.  The code's sum differs from that in an odd last byte, which it adds as it is and not as
the upper half of a word. -/
namespace SuperEthd.NetKit
open BigEndian OnesComplement

section Sums
variable {data payload front head tail : List UInt8}

/-- The checksum of a packet whose parts are added up one after the other. -/
theorem checksum_of_parts (host : ByteOrder) {front head : List UInt8} (payload : List UInt8)
    (hfront : front.length % 2 = 0) (hhead : head.length % 2 = 0)
    (hlen : front.length + head.length + payload.length ≤ 70000) :
    (compute_checksum_finalize <| compute_checksum_partial host payload <|
      compute_checksum_partial host head <| compute_checksum_partial host front 0).toNat =
      65535 - fold 65536 (wordSum front + wordSum head + partialSum payload) := by
  have hzero : UInt32.toNat 0 = 0 := rfl
  have hparts : partialSum (front ++ (head ++ payload)) =
      wordSum front + wordSum head + partialSum payload := by
    rw [partialSum_append hfront, partialSum_append hhead, partialSum_of_even hfront,
      partialSum_of_even hhead, Nat.add_assoc]
  have hle := partialSum_le (front ++ (head ++ payload))
  rw [List.length_append, List.length_append] at hle
  have hlt : UInt32.toNat 0 + partialSum (front ++ (head ++ payload)) < 2 ^ 32 := by omega
  rw [← compute_checksum_partial_append host hhead, ← compute_checksum_partial_append host hfront,
    compute_checksum_finalize_toNat, compute_checksum_partial_toNat host hlt, hzero, Nat.zero_add,
    hparts]

/-- **The parts with their checksum** add up to all ones if no odd last byte is missing. -/
theorem onesSum_iff {c : Nat} (hfront : front.length % 2 = 0) (hhead : head.length % 2 = 0)
    (htail : tail.length % 2 = 0) (hc : c = 65535 - fold 65536 (wordSum front +
      wordSum (head ++ [0, 0] ++ tail) + partialSum payload)) :
    onesSum (front ++ (head ++ bytes16 c ++ tail ++ payload)) = 0xFFFF ↔ oddByte payload = 0 := by
  obtain ⟨n, hn⟩ : ∃ n, n = wordSum front + wordSum (head ++ [0, 0] ++ tail) + partialSum payload :=
    ⟨_, rfl⟩
  rw [← hn] at hc
  have hzeros : wordSum (head ++ [0, 0] ++ tail) = wordSum head + wordSum tail := by
    have hmiddle : (head ++ [0, 0]).length % 2 = 0 := by
      rw [List.length_append, List.length_cons, List.length_singleton]
      omega
    rw [wordSum_append hmiddle, wordSum_append hhead]
    rfl
  have hwords : wordSum (front ++ (head ++ bytes16 c ++ tail ++ payload)) =
      n + c + 255 * (oddByte payload).toNat := by
    have h1 : (head ++ bytes16 c).length % 2 = 0 := by
      rw [List.length_append, bytes16_length]
      omega
    have h2 : (head ++ bytes16 c ++ tail).length % 2 = 0 := by
      rw [List.length_append]
      omega
    rw [wordSum_append hfront, wordSum_append h2, wordSum_append h1, wordSum_append hhead,
      wordSum_bytes16 (by omega), wordSum_eq payload, hn, hzeros]
    omega
  have hones : fold 65536 (n + c) = 65536 - 1 := hc ▸ fold_add_complement (by decide)
  obtain ⟨hpos, hdvd⟩ := (fold_eq_top (by decide)).mp hones
  have hbyte := (oddByte payload).toNat_lt
  rw [onesSum, hwords]
  refine (fold_eq_top (by decide)).trans ⟨?_, ?_⟩
  · rintro ⟨-, hall⟩
    have hrest : 65535 ∣ 255 * (oddByte payload).toNat := (Nat.dvd_add_right hdvd).mp hall
    apply UInt8.toNat_inj.mp
    rw [UInt8.toNat_zero]
    omega
  · intro hzero
    rw [hzero, UInt8.toNat_zero, Nat.mul_zero, Nat.add_zero]
    exact ⟨hpos, hdvd⟩

end Sums

/-! ## The receiver -/

/-- The 16-bit field at an offset. -/
def field (data : List UInt8) (i : Nat) : Nat := read16 (data.getD i 0) (data.getD (i + 1) 0)

/-- What a receiver makes of a packet of this kind, from its IP header on. -/
class Receiver (T : Type) where
  headerVerifies : List UInt8 → Prop
  layer4 : List UInt8 → List UInt8
  pseudoHeader : List UInt8 → List UInt8

/-- The header sums up, the total length and the header length say where layer 4 is. -/
instance : Receiver IPv4Packet where
  headerVerifies ip := onesSum (ip.take ((ip.getD 0 0).toNat % 16 * 4)) = 0xFFFF
  layer4 ip := (ip.take (field ip 2)).drop ((ip.getD 0 0).toNat % 16 * 4)
  pseudoHeader ip := (ip.drop 12).take 8 ++ [0, ip.getD 9 0] ++
    bytes16 (field ip 2 - (ip.getD 0 0).toNat % 16 * 4)

/-- There is no checksum in the header, which is followed by as many bytes as it says. -/
instance : Receiver IPv6Packet where
  headerVerifies _ := True
  layer4 ip := (ip.drop 40).take (field ip 4)
  pseudoHeader ip := (ip.drop 8).take 32 ++ bytes32 (UInt32.ofNat (field ip 4)) ++
    [0, 0, 0, ip.getD 6 0]

/-- **A receiver finds what was put in**: the layer 4 that follows the IP header, and the pseudo-header
that the code adds up.  `counted` is what the length in the IP header counts beside layer 4. -/
class Received (T : Type) [Layer3 T] [Receiver T] where
  counted : Nat
  ethernet : ∀ host p headerSizeTotal, 14 ≤ (Layer3.asBinary (T := T) host p headerSizeTotal).length
  pseudoHeader : ByteOrder → T → UInt16 → List UInt8
  pseudoHeader_length : ∀ host p length, (pseudoHeader host p length).length % 2 = 0 ∧
    (pseudoHeader host p length).length ≤ 40
  getPseudoChecksumLayer3_eq : ∀ host p length, Layer3.getPseudoChecksumLayer3 host p length =
    compute_checksum_partial host (pseudoHeader host p length) 0
  found : ∀ host p (size : UInt16) (layer4 : List UInt8),
    layer4.length = size.toNat + (Layer3.toPacket p).payload.length → counted + layer4.length < 65536 →
    let ip := (Layer3.asBinary host p (Layer3.getHeaderSizeTotal p + size)).drop 14 ++ layer4
    Receiver.headerVerifies T ip ∧ Receiver.layer4 T ip = layer4 ∧
      (Receiver.pseudoHeader T ip).length % 2 = 0 ∧
      wordSum (Receiver.pseudoHeader T ip) =
        wordSum (pseudoHeader host p (size + (Layer3.toPacket p).getPayloadSize))

theorem ethernet_length (host : ByteOrder) (p : IPPacket) : (p.asBinary host).length = 14 := by
  simp [IPPacket.asBinary, EthernetPacket.asBinary]

theorem exists_memory16 (host : ByteOrder) (x : UInt16) : ∃ a b, memory16 host x = [a, b] := by
  cases host with
  | little => exact ⟨_, _, rfl⟩
  | big => exact ⟨_, _, rfl⟩

section Sizes
variable {p : Packet}

theorem getPayloadSize_toNat (h : p.payload.length < 65536) :
    p.getPayloadSize.toNat = p.payload.length := by
  rw [Packet.getPayloadSize, UInt16.toNat_ofNat', Nat.mod_eq_of_lt h]

theorem payloadBytes_eq (h : p.payload.length < 65536) : p.payloadBytes = p.payload := by
  rw [Packet.payloadBytes, getPayloadSize_toNat h, List.take_length]

end Sizes

namespace IPv4Packet
variable (host : ByteOrder) (p : IPv4Packet) (headerSizeTotal : UInt16)

/-- The second byte of the header. -/
def serviceByte : UInt8 :=
  UInt8.ofNat (IPv4Header.dscpByte host ⟨p.ihl, 4, p.dscp, p.ecn, 0, 0, 0, 0, 0, 0, p.src_addr, p.dst_addr⟩)

/-- The header up to its checksum. -/
def firstBytes : List UInt8 :=
  [0x45, p.serviceByte host] ++ bytes16 (p.getLayer3Size headerSizeTotal).toNat ++
    memory16 host (cpu_to_be_16 host p.id) ++ memory16 host (cpu_to_be_16 host p.frag_off) ++
    [p.ttl, p.protocol]

/-- Its checksum. -/
theorem getIPv4Checksum_toNat : (p._getIPv4Checksum host headerSizeTotal).toNat =
    65535 - fold 65536 (wordSum [] + wordSum (p.firstBytes host headerSizeTotal ++ [0, 0] ++
      (p.src_addr.toList ++ p.dst_addr.toList)) + partialSum []) := by
  have hzeros : memory16 host 0 = [0, 0] := by cases host <;> rfl
  have heven : (p.firstBytes host headerSizeTotal ++ [0, 0] ++
      (p.src_addr.toList ++ p.dst_addr.toList)).length = 20 := by simp [firstBytes]
  rw [← checksum_of_parts host [] rfl (heven ▸ rfl) (by rw [heven]; decide)]
  simp only [_getIPv4Checksum, IPv4Header.bytes, IPv4Header.dscpByte, firstBytes, serviceByte, memory16_cpu_to_be,
    hzeros, p.ihl_eq, List.append_assoc]
  rfl

/-- What `asBinary` gives. -/
theorem asBinary_eq : p.asBinary host headerSizeTotal = p.toIPPacket.asBinary host ++
    (p.firstBytes host headerSizeTotal ++ bytes16 (p._getIPv4Checksum host headerSizeTotal).toNat ++
      (p.src_addr.toList ++ p.dst_addr.toList)) := by
  simp only [asBinary, IPv4Header.bytes, IPv4Header.dscpByte, firstBytes, serviceByte, memory16_cpu_to_be, p.ihl_eq,
    List.append_assoc]
  rfl

/-- The packet with some layer 4 behind it, as the receiver sees it. -/
theorem ip_eq (layer4 : List UInt8) : (p.asBinary host headerSizeTotal).drop 14 ++ layer4 =
    [0x45, p.serviceByte host, UInt8.ofNat ((p.getLayer3Size headerSizeTotal).toNat / 256),
      UInt8.ofNat (p.getLayer3Size headerSizeTotal).toNat,
      UInt8.ofNat (p.id.toNat / 256), UInt8.ofNat p.id.toNat,
      UInt8.ofNat (p.frag_off.toNat / 256), UInt8.ofNat p.frag_off.toNat, p.ttl, p.protocol,
      UInt8.ofNat ((p._getIPv4Checksum host headerSizeTotal).toNat / 256),
      UInt8.ofNat (p._getIPv4Checksum host headerSizeTotal).toNat] ++
      (p.src_addr.toList ++ p.dst_addr.toList ++ layer4) := by
  rw [asBinary_eq, List.drop_left' (ethernet_length host p.toIPPacket), firstBytes, memory16_cpu_to_be,
    memory16_cpu_to_be]
  simp only [bytes16, List.cons_append, List.nil_append, List.append_assoc]

theorem headerVerifies (layer4 : List UInt8) :
    onesSum (((p.asBinary host headerSizeTotal).drop 14 ++ layer4).take 20) = 0xFFFF := by
  rw [asBinary_eq, List.drop_left' (ethernet_length host p.toIPPacket), List.take_left' (by simp [firstBytes])]
  have hall := onesSum_iff (rfl : [].length % 2 = 0)
    (by simp [firstBytes] : (p.firstBytes host headerSizeTotal).length % 2 = 0)
    (by simp : (p.src_addr.toList ++ p.dst_addr.toList).length % 2 = 0)
    (p.getIPv4Checksum_toNat host headerSizeTotal)
  rw [List.nil_append, List.append_nil] at hall
  exact hall.mpr rfl

end IPv4Packet

/-- What the receiver reads in a header without options. -/
theorem ipv4_receiver (ip layer4 : List UInt8) {addresses : List UInt8} {tos i0 i1 f0 f1 ttl protocol c0 c1 : UInt8}
    (haddresses : addresses.length = 8) (hfits : 20 + layer4.length < 65536)
    (hip : ip = [0x45, tos, UInt8.ofNat ((20 + layer4.length) / 256), UInt8.ofNat (20 + layer4.length),
      i0, i1, f0, f1, ttl, protocol, c0, c1] ++ (addresses ++ layer4)) :
    (Receiver.headerVerifies IPv4Packet ip ↔ onesSum (ip.take 20) = 0xFFFF) ∧
      Receiver.layer4 IPv4Packet ip = layer4 ∧
      Receiver.pseudoHeader IPv4Packet ip = addresses ++ [0, protocol] ++ bytes16 layer4.length := by
  have hfield : field ip 2 = 20 + layer4.length := by
    rw [hip]
    exact read16_bytes16 hfits
  have hfirst : (ip.getD 0 0).toNat % 16 * 4 = 20 := by
    rw [hip]
    show UInt8.toNat 0x45 % 16 * 4 = 20
    decide
  have hrest : ip.drop 12 = addresses ++ layer4 := by
    rw [hip]
    rfl
  refine ⟨?_, ?_, ?_⟩
  · show onesSum (ip.take ((ip.getD 0 0).toNat % 16 * 4)) = 0xFFFF ↔ _
    rw [hfirst]
  · show (ip.take (field ip 2)).drop ((ip.getD 0 0).toNat % 16 * 4) = layer4
    have hlen : ip.length = 20 + layer4.length := by
      rw [hip]
      simp only [List.length_append, List.length_cons, List.length_nil, haddresses]
      omega
    rw [hfield, hfirst, List.take_of_length_le (Nat.le_of_eq hlen),
      show 20 = 12 + addresses.length by rw [haddresses], ← List.drop_drop, hrest, List.drop_left]
  · show (ip.drop 12).take 8 ++ [0, ip.getD 9 0] ++
      bytes16 (field ip 2 - (ip.getD 0 0).toNat % 16 * 4) = _
    rw [hrest, List.take_left' haddresses, hfield, hfirst, Nat.add_sub_cancel_left, hip]
    rfl

instance : Received IPv4Packet where
  counted := 20
  ethernet host p headerSizeTotal := by
    show 14 ≤ (p.asBinary host headerSizeTotal).length
    rw [IPv4Packet.asBinary_eq, List.length_append, ethernet_length]
    exact Nat.le_add_right _ _
  pseudoHeader := IPv4Packet.pseudoHeader
  pseudoHeader_length host p length := by simp [IPv4Packet.pseudoHeader]
  getPseudoChecksumLayer3_eq _ _ _ := rfl
  found := by
    intro host p size layer4 hlen hfits ip
    have hsize := getPayloadSize_toNat (p := Layer3.toPacket p) (by omega)
    have htotal : (p.getLayer3Size (p.getHeaderSizeTotal + size)).toNat = 20 + layer4.length := by
      have hheader : p.getHeaderSizeTotal = 20 := by
        rw [IPv4Packet.getHeaderSizeTotal, IPv4Packet.getHeaderSize, p.ihl_eq]
        rfl
      have h20 : UInt16.toNat 20 = 20 := rfl
      have hpayload : p.getPayloadSize.toNat = (Layer3.toPacket p).payload.length := hsize
      rw [IPv4Packet.getLayer3Size, hheader, UInt16.toNat_add, UInt16.toNat_add, hpayload, h20]
      omega
    have hlength : (size + (Layer3.toPacket p).getPayloadSize).toNat = layer4.length := by
      rw [UInt16.toNat_add, hsize]
      omega
    have hip := p.ip_eq host (p.getHeaderSizeTotal + size) layer4
    rw [htotal] at hip
    obtain ⟨hheader, hlayer4, hpseudo⟩ :=
      ipv4_receiver ip layer4 (by simp) hfits hip
    rw [hpseudo, IPv4Packet.pseudoHeader, memory16_cpu_to_be, hlength]
    exact ⟨hheader.mpr (p.headerVerifies host _ layer4), hlayer4, by simp, rfl⟩

namespace IPv6Packet
variable (host : ByteOrder) (p : IPv6Packet) (headerSizeTotal : UInt16)

/-- The packet with some layer 4 behind it, as the receiver sees it. -/
theorem ip_eq (layer4 : List UInt8) : ∃ b0 b1 b2 b3,
    (p.asBinary host headerSizeTotal).drop 14 ++ layer4 =
      [b0, b1, b2, b3, UInt8.ofNat ((p._ipv6HeaderPayloadLength headerSizeTotal).toNat / 256),
        UInt8.ofNat (p._ipv6HeaderPayloadLength headerSizeTotal).toNat, p.next_header, p.hop_limit] ++
      (p.src_addr.toList ++ p.dst_addr.toList ++ layer4) := by
  have hflow : ∀ h : IPv6Header, ∃ b1 b2 b3, h.flowLabelBytes host = [b1, b2, b3] := by
    intro h
    cases host with
    | little => exact ⟨_, _, _, rfl⟩
    | big => exact ⟨_, _, _, rfl⟩
  obtain ⟨b1, b2, b3, hlabel⟩ := hflow ⟨p.version, p.priority, p.flow_label,
    cpu_to_be_16 host (p._ipv6HeaderPayloadLength headerSizeTotal), p.next_header, p.hop_limit,
    p.src_addr, p.dst_addr⟩
  refine ⟨UInt8.ofNat (p.version.toNat % 16 * 16 + p.priority.toNat % 16), b1, b2, b3, ?_⟩
  simp only [asBinary, IPv6Header.bytes, hlabel, memory16_cpu_to_be]
  rw [List.drop_left' (ethernet_length host p.toIPPacket)]
  simp only [bytes16, List.cons_append, List.nil_append, List.append_assoc]

end IPv6Packet

/-- A 16-bit length, swapped and kept in 32 bits, adds up to what the 32-bit length does. -/
theorem wordSum_swapped_length (host : ByteOrder) (length : UInt16) :
    wordSum (memory32 host (cpu_to_be_16 host length).toUInt32) =
      wordSum (bytes32 (UInt32.ofNat length.toNat)) := by
  have hlt := length.toNat_lt
  have hbytes : ∀ x : UInt32, wordSum (bytes32 x) =
      x.toNat / 16777216 % 256 * 256 + x.toNat / 65536 % 256 + (x.toNat / 256 % 256 * 256 + x.toNat % 256) := by
    intro x
    simp only [bytes32, wordSum, read16, UInt8.toNat_ofNat', Nat.add_zero]
  have hreverse : ∀ x : UInt32, wordSum (bytes32 x).reverse =
      x.toNat % 256 * 256 + x.toNat / 256 % 256 + (x.toNat / 65536 % 256 * 256 + x.toNat / 16777216 % 256) := by
    intro x
    show wordSum [UInt8.ofNat x.toNat, UInt8.ofNat (x.toNat / 256), UInt8.ofNat (x.toNat / 65536),
      UInt8.ofNat (x.toNat / 16777216)] = _
    simp only [wordSum, read16, UInt8.toNat_ofNat', Nat.add_zero]
  have hlength : (UInt32.ofNat length.toNat).toNat = length.toNat := by
    rw [UInt32.toNat_ofNat', Nat.mod_eq_of_lt (by omega)]
  rw [hbytes, hlength]
  cases host with
  | big =>
    show wordSum (bytes32 length.toUInt32) = _
    rw [hbytes, UInt16.toNat_toUInt32]
  | little =>
    show wordSum (bytes32 (bswap16 length).toUInt32).reverse = _
    rw [hreverse, UInt16.toNat_toUInt32, bswap16_toNat]
    obtain ⟨hi, lo, hhi, hlo, heq⟩ : ∃ hi lo, hi < 256 ∧ lo < 256 ∧ length.toNat = hi * 256 + lo :=
      ⟨length.toNat / 256, length.toNat % 256, by omega, by omega, by omega⟩
    have h1 : length.toNat / 256 = hi := by omega
    have h2 : length.toNat % 256 = lo := by omega
    have h3 : (lo * 256 + hi) / 256 = lo := by omega
    have h8 : (lo * 256 + hi) % 256 = hi := by omega
    have hsmall : ∀ n, n < 65536 → n / 65536 = 0 ∧ n / 16777216 = 0 := by
      intro n hn
      omega
    obtain ⟨h4, h5⟩ := hsmall (lo * 256 + hi) (by omega)
    obtain ⟨h6, h7⟩ := hsmall length.toNat hlt
    rw [h1, h2, h3, h4, h5, h6, h7, h8, Nat.mod_eq_of_lt hhi, Nat.mod_eq_of_lt hlo]
    omega

/-- What the receiver reads in a header without extensions. -/
theorem ipv6_receiver (ip layer4 : List UInt8) {addresses : List UInt8} {b0 b1 b2 b3 next_header hop_limit : UInt8}
    (haddresses : addresses.length = 32) (hfits : layer4.length < 65536)
    (hip : ip = [b0, b1, b2, b3, UInt8.ofNat (layer4.length / 256), UInt8.ofNat layer4.length,
      next_header, hop_limit] ++ (addresses ++ layer4)) :
    Receiver.layer4 IPv6Packet ip = layer4 ∧ Receiver.pseudoHeader IPv6Packet ip =
      addresses ++ bytes32 (UInt32.ofNat layer4.length) ++ [0, 0, 0, next_header] := by
  have hfield : field ip 4 = layer4.length := by
    rw [hip]
    exact read16_bytes16 hfits
  have hrest : ip.drop 8 = addresses ++ layer4 := by
    rw [hip]
    rfl
  constructor
  · show (ip.drop 40).take (field ip 4) = layer4
    rw [hfield, show 40 = 8 + addresses.length by rw [haddresses], ← List.drop_drop, hrest,
      List.drop_left, List.take_length]
  · show (ip.drop 8).take 32 ++ bytes32 (UInt32.ofNat (field ip 4)) ++ [0, 0, 0, ip.getD 6 0] = _
    rw [hrest, List.take_left' haddresses, hfield, hip]
    rfl

instance : Received IPv6Packet where
  counted := 0
  ethernet host p headerSizeTotal := by
    show 14 ≤ (p.asBinary host headerSizeTotal).length
    rw [IPv6Packet.asBinary, List.length_append, ethernet_length]
    exact Nat.le_add_right _ _
  pseudoHeader := IPv6Packet.pseudoHeader
  pseudoHeader_length host p length := by simp [IPv6Packet.pseudoHeader]
  getPseudoChecksumLayer3_eq _ _ _ := rfl
  found := by
    intro host p size layer4 hlen hfits ip
    have hsize := getPayloadSize_toNat (p := Layer3.toPacket p) (by omega)
    have hlength : (size + (Layer3.toPacket p).getPayloadSize).toNat = layer4.length := by
      rw [UInt16.toNat_add, hsize]
      omega
    have hfield : p._ipv6HeaderPayloadLength (IPv6Packet.getHeaderSizeTotal + size) =
        size + (Layer3.toPacket p).getPayloadSize := by
      show 40 + size + p.getPayloadSize - 40 = size + p.getPayloadSize
      rw [add_assoc, add_sub_cancel_left]
    obtain ⟨b0, b1, b2, b3, hip⟩ := p.ip_eq host (IPv6Packet.getHeaderSizeTotal + size) layer4
    rw [hfield, hlength] at hip
    obtain ⟨hlayer4, hpseudo⟩ := ipv6_receiver ip layer4 (by simp) (by omega) hip
    refine ⟨trivial, hlayer4, ?_, ?_⟩
    · rw [hpseudo]
      simp
    · have hparts : ∀ length : List UInt8, length.length = 4 →
          wordSum (p.src_addr.toList ++ p.dst_addr.toList ++ length ++ [0, 0, 0, p.next_header]) =
            wordSum (p.src_addr.toList ++ p.dst_addr.toList) + wordSum length +
              wordSum [0, 0, 0, p.next_header] := by
        intro length h4
        rw [wordSum_append (by simp [h4]), wordSum_append (by simp)]
      rw [hpseudo, IPv6Packet.pseudoHeader, hparts _ (bytes32_length _), hparts _ (memory32_length _ _),
        wordSum_swapped_length, hlength]

/-! ## Layer 4 -/

/-- **Standard verification** of what is behind the Ethernet header. -/
def Verifies (T : Type) [Receiver T] (ip : List UInt8) : Prop :=
  Receiver.headerVerifies T ip ∧ onesSum (Receiver.pseudoHeader T ip ++ Receiver.layer4 T ip) = 0xFFFF

/-- The same where there is no pseudo-header. -/
def VerifiesAlone (T : Type) [Receiver T] (ip : List UInt8) : Prop :=
  Receiver.headerVerifies T ip ∧ onesSum (Receiver.layer4 T ip) = 0xFFFF

section Layer4
variable {T : Type} [Layer3 T] [Receiver T] [Received T] (host : ByteOrder) (p : T) (size checksum : UInt16)
  (head tail : List UInt8) {payload : List UInt8} (hpayload : (Layer3.toPacket p).payload = payload)
  (hhead : head.length % 2 = 0) (htail : tail.length % 2 = 0)
  (hsize : head.length + 2 + tail.length = size.toNat)
  (hfits : Received.counted T + (size.toNat + payload.length) < 65536)

/-- The packet with this layer 4, from the IP header on. -/
def ipBytes (layer4 : List UInt8) : List UInt8 :=
  (Layer3.asBinary host p (Layer3.getHeaderSizeTotal p + size) ++ layer4).drop 14

theorem ipBytes_eq (layer4 : List UInt8) : ipBytes host p size layer4 =
    (Layer3.asBinary host p (Layer3.getHeaderSizeTotal p + size)).drop 14 ++ layer4 :=
  List.drop_append_of_le_length (Received.ethernet host p _)

include hsize

/-- A checksum field, full or empty, has two bytes. -/
theorem layer4_length {field : List UInt8} (hfield : field.length = 2) :
    (head ++ field ++ tail).length = size.toNat := by
  rw [List.length_append, List.length_append, hfield, hsize]

include hpayload hhead htail hfits

/-- **A layer-4 packet** whose checksum is that of its pseudo-header, header and payload verifies if
there is no odd last byte. -/
theorem verifies_iff_of_parts (hchecksum : checksum = (compute_checksum_finalize <|
      compute_checksum_partial host payload <| compute_checksum_partial host (head ++ [0, 0] ++ tail) <|
      Layer3.getPseudoChecksumLayer3 host p (size + (Layer3.toPacket p).getPayloadSize))) :
    (Verifies T (ipBytes host p size (head ++ bytes16 checksum.toNat ++ tail ++ payload)) ↔
      oddByte payload = 0) ∧
    Receiver.layer4 T (ipBytes host p size (head ++ bytes16 checksum.toNat ++ tail ++ payload)) =
      head ++ bytes16 checksum.toNat ++ tail ++ payload ∧
    checksum.toNat = 65535 - fold 65536 (wordSum (Received.pseudoHeader host p
      (size + (Layer3.toPacket p).getPayloadSize)) + wordSum (head ++ [0, 0] ++ tail) +
      partialSum payload) := by
  obtain ⟨layer4, hlayer4⟩ : ∃ l, l = head ++ bytes16 checksum.toNat ++ tail ++ payload := ⟨_, rfl⟩
  have hlen : layer4.length = size.toNat + payload.length := by
    rw [hlayer4, List.length_append, layer4_length size head tail hsize (bytes16_length _)]
  obtain ⟨hheader, hfound, heven, hwords⟩ := Received.found host p size layer4
    (by rw [hlen, hpayload]) (by rw [hlen]; exact hfits)
  obtain ⟨hpseudo, hpseudoLen⟩ := Received.pseudoHeader_length host p
    (size + (Layer3.toPacket p).getPayloadSize)
  have hfull : (head ++ [0, 0] ++ tail).length = size.toNat := layer4_length size head tail hsize rfl
  rw [← hlayer4, Verifies, ipBytes_eq, hfound]
  rw [Received.getPseudoChecksumLayer3_eq] at hchecksum
  have hvalue := checksum_of_parts host payload hpseudo
    (by rw [hfull]; omega : (head ++ [0, 0] ++ tail).length % 2 = 0) (by rw [hfull]; omega)
  rw [← hchecksum] at hvalue
  have hsum := onesSum_iff heven hhead htail (hwords ▸ hvalue)
  rw [← hlayer4] at hsum
  exact ⟨⟨fun h => hsum.mp h.2, fun h => ⟨hheader, hsum.mpr h⟩⟩, rfl, hvalue⟩

/-- The same where the checksum is that of the header and the payload. -/
theorem verifiesAlone_iff_of_parts (hchecksum : checksum = (compute_checksum_finalize <|
      compute_checksum_partial host payload <| compute_checksum_partial host (head ++ [0, 0] ++ tail) 0)) :
    VerifiesAlone T (ipBytes host p size (head ++ bytes16 checksum.toNat ++ tail ++ payload)) ↔
      oddByte payload = 0 := by
  obtain ⟨layer4, hlayer4⟩ : ∃ l, l = head ++ bytes16 checksum.toNat ++ tail ++ payload := ⟨_, rfl⟩
  have hlen : layer4.length = size.toNat + payload.length := by
    rw [hlayer4, List.length_append, layer4_length size head tail hsize (bytes16_length _)]
  obtain ⟨hheader, hfound, -, -⟩ := Received.found host p size layer4
    (by rw [hlen, hpayload]) (by rw [hlen]; exact hfits)
  have hfull : (head ++ [0, 0] ++ tail).length = size.toNat := layer4_length size head tail hsize rfl
  rw [← hlayer4, VerifiesAlone, ipBytes_eq, hfound]
  have hvalue := checksum_of_parts host payload (rfl : [].length % 2 = 0)
    (by rw [hfull]; omega : (head ++ [0, 0] ++ tail).length % 2 = 0)
    (by rw [hfull, List.length_nil]; omega)
  have hsum := onesSum_iff rfl hhead htail ((congrArg UInt16.toNat hchecksum).trans hvalue)
  rw [List.nil_append, ← hlayer4] at hsum
  exact ⟨fun h => hsum.mp h.2, fun h => ⟨hheader, hsum.mpr h⟩⟩

end Layer4

/-- The sum of the words that a UDP checksum is taken of, its own field empty. -/
def UDPPacketTmpl.checkedSum {T : Type} [Layer3 T] [Receiver T] [Received T] (host : ByteOrder)
    (p : UDPPacketTmpl T) : Nat :=
  wordSum (Received.pseudoHeader host p.base p.getLayer4Size) +
    wordSum (memory16 host p.src_port ++ memory16 host p.dst_port ++ bytes16 p.getLayer4Size.toNat) +
    wordSum (Layer3.toPacket p.base).payload

/-- A packet that the library builds. -/
inductive BuiltPacket
  | udpv4 (p : UDPPacketTmpl IPv4Packet)
  | udpv6 (p : UDPPacketTmpl IPv6Packet)
  | tcpv4 (p : TCPPacketTmpl IPv4Packet)
  | tcpv6 (p : TCPPacketTmpl IPv6Packet)
  | icmpv4 (p : ICMPv4Packet)
  | icmpv6 (p : ICMPv6Packet)

namespace BuiltPacket
variable (host : ByteOrder)

def asBinary : BuiltPacket → List UInt8
  | udpv4 p => p.asBinary host
  | udpv6 p => p.asBinary host
  | tcpv4 p => p.asBinary host
  | tcpv6 p => p.asBinary host
  | icmpv4 p => p.asBinary host
  | icmpv6 p => p.asBinary host

def payload : BuiltPacket → List UInt8
  | udpv4 p => p.base.payload
  | udpv6 p => p.base.payload
  | tcpv4 p => p.base.payload
  | tcpv6 p => p.base.payload
  | icmpv4 p => p.payload
  | icmpv6 p => p.payload

/-- What the length field of the IP header counts: the whole of an IPv4 packet, of an IPv6 packet what
is behind the header. -/
def totalLength (p : BuiltPacket) : Nat :=
  match p with
  | udpv4 _ => 20 + 8 + p.payload.length
  | udpv6 _ => 8 + p.payload.length
  | tcpv4 _ => 20 + 20 + p.payload.length
  | tcpv6 _ => 20 + p.payload.length
  | icmpv4 _ => 20 + 8 + p.payload.length
  | icmpv6 _ => 12 + p.payload.length

/-- **The claim about a packet**: it verifies, and a UDP packet has a checksum. -/
def Sound (p : BuiltPacket) : Prop :=
  let ip := (p.asBinary host).drop 14
  match p with
  | udpv4 _ => Verifies IPv4Packet ip ∧ field (Receiver.layer4 IPv4Packet ip) 6 ≠ 0
  | udpv6 _ => Verifies IPv6Packet ip ∧ field (Receiver.layer4 IPv6Packet ip) 6 ≠ 0
  | tcpv4 _ => Verifies IPv4Packet ip
  | tcpv6 _ => Verifies IPv6Packet ip
  | icmpv4 _ => VerifiesAlone IPv4Packet ip
  | icmpv6 _ => Verifies IPv6Packet ip

/-- The words that a UDP checksum is taken of do not add up to a multiple of 65535. -/
def SumNonzero (p : BuiltPacket) : Prop :=
  match p with
  | udpv4 p => ¬65535 ∣ p.checkedSum host
  | udpv6 p => ¬65535 ∣ p.checkedSum host
  | _ => True

end BuiltPacket

section Built
variable {T : Type} [Layer3 T] [Receiver T] [Received T] (host : ByteOrder)

theorem memory16_zero : memory16 host 0 = [0, 0] := by
  cases host <;> rfl

omit [Receiver T] [Received T] in
/-- The length of the header is the size of header and payload, where that fits. -/
theorem getLayer4Size_toNat (p : UDPPacketTmpl T)
    (hfits : 8 + (Layer3.toPacket p.base).payload.length < 65536) :
    p.getLayer4Size.toNat = 8 + (Layer3.toPacket p.base).payload.length := by
  have hsize := getPayloadSize_toNat (p := Layer3.toPacket p.base) (by omega)
  have h8 : UInt16.toNat 8 = 8 := rfl
  rw [UDPPacketTmpl.getLayer4Size, UDPPacketTmpl.getHeaderSize, UInt16.toNat_add, hsize, h8,
    Nat.mod_eq_of_lt hfits]

/-- **UDP**: the packet is sound unless its odd last byte counts or its checksum is zero. -/
theorem udp_iff (p : UDPPacketTmpl T)
    (hfits : Received.counted T + (8 + (Layer3.toPacket p.base).payload.length) < 65536) :
    (Verifies T ((p.asBinary host).drop 14) ∧
      field (Receiver.layer4 T ((p.asBinary host).drop 14)) 6 ≠ 0) ↔
    oddByte (Layer3.toPacket p.base).payload = 0 ∧ ¬65535 ∣ p.checkedSum host := by
  obtain ⟨payload, hpayload⟩ : ∃ l, (Layer3.toPacket p.base).payload = l := ⟨_, rfl⟩
  have hbytes := payloadBytes_eq (p := Layer3.toPacket p.base) (by omega)
  obtain ⟨s0, s1, hsrc⟩ := exists_memory16 host p.src_port
  obtain ⟨d0, d1, hdst⟩ := exists_memory16 host p.dst_port
  obtain ⟨c, hc⟩ : ∃ c, p.getChecksumLayer4 host = c := ⟨_, rfl⟩
  have hbinary : (p.asBinary host).drop 14 = ipBytes host p.base 8
      ([s0, s1, d0, d1] ++ bytes16 p.getLayer4Size.toNat ++ bytes16 c.toNat ++ [] ++ payload) := by
    rw [ipBytes, UDPPacketTmpl.asBinary, UDPHeader.bytes, memory16_cpu_to_be, memory16_cpu_to_be, hbytes,
      hsrc, hdst, hc, hpayload]
    simp only [List.append_assoc, List.nil_append]
    rfl
  have hchecksum : c = (compute_checksum_finalize <| compute_checksum_partial host payload <|
      compute_checksum_partial host ([s0, s1, d0, d1] ++ bytes16 p.getLayer4Size.toNat ++ [0, 0] ++ []) <|
      Layer3.getPseudoChecksumLayer3 host p.base (8 + (Layer3.toPacket p.base).getPayloadSize)) := by
    rw [← hc]
    simp only [UDPPacketTmpl.getChecksumLayer4, UDPHeader.bytes, memory16_zero, memory16_cpu_to_be, hbytes,
      hsrc, hdst, hpayload]
    rfl
  obtain ⟨hverifies, hlayer4, hvalue⟩ := verifies_iff_of_parts host p.base 8 c
    ([s0, s1, d0, d1] ++ bytes16 p.getLayer4Size.toNat) [] hpayload (by simp) rfl (by simp)
    (hpayload ▸ hfits) hchecksum
  rw [hbinary, hverifies, hlayer4, hpayload]
  have hfield : field ([s0, s1, d0, d1] ++ bytes16 p.getLayer4Size.toNat ++ bytes16 c.toNat ++ [] ++
      payload) 6 = c.toNat := read16_bytes16 c.toNat_lt
  rw [hfield]
  refine and_congr_right fun hodd => not_congr ?_
  -- without an odd byte the code's sum is the sum of the words
  have hsum : wordSum payload = partialSum payload := by
    rw [wordSum_eq, hodd, UInt8.toNat_zero, Nat.mul_zero, Nat.add_zero]
  have hlength := getLayer4Size_toNat p (by omega)
  have hhead : wordSum ([s0, s1, d0, d1] ++ bytes16 p.getLayer4Size.toNat ++ [0, 0] ++ []) =
      wordSum ([s0, s1, d0, d1] ++ bytes16 p.getLayer4Size.toNat) := by
    have hzeros : wordSum [0, 0] = 0 := rfl
    rw [List.append_nil, wordSum_append (by simp), hzeros, Nat.add_zero]
  have hchecked : p.checkedSum host = wordSum (Received.pseudoHeader host p.base
      (8 + (Layer3.toPacket p.base).getPayloadSize)) +
      wordSum ([s0, s1, d0, d1] ++ bytes16 p.getLayer4Size.toNat ++ [0, 0] ++ []) + partialSum payload := by
    rw [UDPPacketTmpl.checkedSum, hhead, hsrc, hdst, hpayload, hsum]
    rfl
  have hpos : p.checkedSum host ≠ 0 := by
    have hports : wordSum ([s0, s1, d0, d1] ++ bytes16 p.getLayer4Size.toNat) =
        wordSum [s0, s1, d0, d1] + p.getLayer4Size.toNat := by
      rw [wordSum_append (by simp), wordSum_bytes16 p.getLayer4Size.toNat_lt]
    rw [hchecked, hhead, hports]
    omega
  rw [hvalue, ← hchecked]
  have hlt : fold 65536 (p.checkedSum host) < 65536 := fold_lt (by decide)
  have htop := fold_eq_top (b := 65536) (n := p.checkedSum host) (by decide)
  constructor
  · intro hzero
    exact (htop.mp (by omega)).2
  · intro hdvd
    have htop' := htop.mpr ⟨hpos, hdvd⟩
    omega

/-- **TCP.** -/
theorem tcp_iff (p : TCPPacketTmpl T)
    (hfits : Received.counted T + (20 + (Layer3.toPacket p.base).payload.length) < 65536) :
    Verifies T ((p.asBinary host).drop 14) ↔ oddByte (Layer3.toPacket p.base).payload = 0 := by
  obtain ⟨head, hhead⟩ : ∃ head, head = memory16 host p.src_port ++ memory16 host p.dst_port ++
      memory32 host p.sequence ++ memory32 host p.ack ++
      [UInt8.ofNat (UInt8.toNat 0 % 16 + p.offset.toNat % 16 * 16), TCPOptionsHeader.byte ⟨p.opt_cwr,
        p.opt_ece, p.opt_urg, p.opt_ack, p.opt_psh, p.opt_rst, p.opt_syn, p.opt_fin⟩] ++
      memory16 host p.window := ⟨_, rfl⟩
  have hlen : head.length = 16 := by
    rw [hhead]
    simp
  have hbytes := payloadBytes_eq (p := Layer3.toPacket p.base) (by omega)
  have hchecksum : p.getChecksumLayer4 host = (compute_checksum_finalize <|
      compute_checksum_partial host (Layer3.toPacket p.base).payload <|
      compute_checksum_partial host (head ++ [0, 0] ++ memory16 host p.urgent) <|
      Layer3.getPseudoChecksumLayer3 host p.base (20 + (Layer3.toPacket p.base).getPayloadSize)) := by
    simp only [TCPPacketTmpl.getChecksumLayer4, TCPHeader.bytes, memory16_zero, hbytes, hhead]
    rfl
  obtain ⟨hall, -⟩ := verifies_iff_of_parts host p.base 20 (p.getChecksumLayer4 host) head
    (memory16 host p.urgent) rfl (by rw [hlen]) (by rw [memory16_length])
    (by rw [hlen, memory16_length]; rfl) hfits hchecksum
  rw [← hall, ipBytes, TCPPacketTmpl.asBinary, TCPHeader.bytes, memory16_cpu_to_be, hbytes, hhead]
  simp only [List.append_assoc]
  rfl

/-- **ICMPv6.** -/
theorem icmpv6_iff (p : ICMPv6Packet) (hfits : 12 + p.payload.length < 65536) :
    Verifies IPv6Packet ((p.asBinary host).drop 14) ↔ oddByte p.payload = 0 := by
  have hbytes : p.payloadBytes = p.payload := payloadBytes_eq (by omega)
  have hchecksum : p.getChecksumLayer4 host = (compute_checksum_finalize <|
      compute_checksum_partial host p.payload <|
      compute_checksum_partial host ([p.type, p.code] ++ [0, 0] ++ (memory32 host 0 ++ memory32 host 0)) <|
      Layer3.getPseudoChecksumLayer3 host p.toIPv6Packet (12 + p.getPayloadSize)) := by
    simp only [ICMPv6Packet.getChecksumLayer4, ICMP6Header.bytes, memory16_zero, hbytes, List.append_assoc]
    rfl
  obtain ⟨hall, -⟩ := verifies_iff_of_parts host p.toIPv6Packet 12 (p.getChecksumLayer4 host)
    [p.type, p.code] (memory32 host 0 ++ memory32 host 0) rfl (by simp) (by simp) (by simp)
    (by show 0 + (12 + p.payload.length) < 65536; omega) hchecksum
  refine Iff.trans ?_ hall
  rw [ipBytes, ICMPv6Packet.asBinary, ICMP6Header.bytes, memory16_cpu_to_be, hbytes]
  simp only [List.append_assoc]
  rfl

/-- **ICMPv4.** -/
theorem icmpv4_iff (p : ICMPv4Packet) (hfits : 20 + (8 + p.payload.length) < 65536) :
    VerifiesAlone IPv4Packet ((p.asBinary host).drop 14) ↔ oddByte p.payload = 0 := by
  have hbytes : p.payloadBytes = p.payload := payloadBytes_eq (by omega)
  have hchecksum : p.getChecksumLayer4 host = (compute_checksum_finalize <|
      compute_checksum_partial host p.payload <|
      compute_checksum_partial host ([p.type, p.code] ++ [0, 0] ++ memory32 host 0) 0) := by
    simp only [ICMPv4Packet.getChecksumLayer4, ICMPHeader.bytes, memory16_zero, hbytes]
  have hall := verifiesAlone_iff_of_parts host p.toIPv4Packet 8 (p.getChecksumLayer4 host)
    [p.type, p.code] (memory32 host 0) rfl (by simp) (by simp) (by simp)
    hfits hchecksum
  refine Iff.trans ?_ hall
  rw [ipBytes, ICMPv4Packet.asBinary, ICMPHeader.bytes, memory16_cpu_to_be, hbytes]
  simp only [List.append_assoc]
  rfl

end Built

/-- **Built packets**: one whose length fits verifies, and has a checksum if it is a UDP packet, if and
only if there is no odd last byte but zero and a UDP packet's words do not add up to a multiple of
65535. -/
theorem BuiltPacket.sound_iff (host : ByteOrder) (p : BuiltPacket) (hfits : p.totalLength < 65536) :
    p.Sound host ↔
      (p.payload.length % 2 = 1 → p.payload.getLast? = some 0) ∧ p.SumNonzero host := by
  rw [← oddByte_eq_zero_iff]
  cases p with
  | udpv4 p => exact udp_iff host p (by rw [← Nat.add_assoc]; exact hfits)
  | udpv6 p =>
    have hfits' : 8 + p.base.payload.length < 65536 := hfits
    exact udp_iff host p (by rwa [← Nat.zero_add (8 + _)] at hfits')
  | tcpv4 p => exact (tcp_iff host p (by rw [← Nat.add_assoc]; exact hfits)).trans (and_iff_left trivial).symm
  | tcpv6 p =>
    have hfits' : 20 + p.base.payload.length < 65536 := hfits
    exact (tcp_iff host p (by rwa [← Nat.zero_add (20 + _)] at hfits')).trans (and_iff_left trivial).symm
  | icmpv4 p => exact (icmpv4_iff host p (by rw [← Nat.add_assoc]; exact hfits)).trans (and_iff_left trivial).symm
  | icmpv6 p => exact (icmpv6_iff host p hfits).trans (and_iff_left trivial).symm

/-- An IPv4 packet from 192.0.2.1 to 192.0.2.2, as the constructor leaves its other fields. -/
def IPv4Packet.sample (payload : List UInt8) : IPv4Packet where
  payload := payload
  dst_mac := Vector.replicate 6 0
  src_mac := Vector.replicate 6 0
  ethertype := 0x0008
  version := 4
  ihl := 5
  dscp := 0
  ecn := 0
  id := 0
  frag_off := 0
  ttl := 64
  protocol := 17
  src_addr := #v[192, 0, 2, 1]
  dst_addr := #v[192, 0, 2, 2]
  ihl_eq := (IPv4Packet.new .little).ihl_eq

/-- Two bytes from port 1 to port 2. -/
theorem BuiltPacket.sound_iff_udp :
    (BuiltPacket.udpv4 ⟨IPv4Packet.sample [1, 2], 0x0100, 0x0200⟩).Sound .little := by
  refine (sound_iff .little _ (by decide)).mpr ⟨by decide, ?_⟩
  show ¬65535 ∣ UDPPacketTmpl.checkedSum .little _
  decide +kernel

/-- **Packets that do not verify**: one of one byte, and one without a byte whose words add up to
65535, which is sent with checksum zero. -/
theorem BuiltPacket.odd_byte_and_zero_checksum :
    ¬(BuiltPacket.udpv4 ⟨IPv4Packet.sample [1], 0x0100, 0x0200⟩).Sound .little ∧
    ¬(BuiltPacket.udpv4 ⟨IPv4Packet.sample [], 0xd87b, 0x0200⟩).Sound .little := by
  constructor
  · intro h
    have hodd := ((udp_iff .little (⟨IPv4Packet.sample [1], 0x0100, 0x0200⟩ : UDPPacketTmpl IPv4Packet)
      (by decide)).mp h).1
    exact absurd hodd (by decide)
  · intro h
    have hsum := ((udp_iff .little (⟨IPv4Packet.sample [], 0xd87b, 0x0200⟩ : UDPPacketTmpl IPv4Packet)
      (by decide)).mp h).2
    exact hsum (by decide +kernel)

end SuperEthd.NetKit
