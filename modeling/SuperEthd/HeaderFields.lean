import Mathlib.Data.List.GetD
import SuperEthd.ChecksumVerification

/-! # What the IP headers say

The setters of the two IP packets against a reader of the network.  The object keeps `id` and
`frag_off` in network order and `asBinary` swaps them once more; the bit-fields of a little-endian
host begin at the other end of their byte; a traffic class has four bits, a flow label eight. -/
namespace SuperEthd.NetKit
open BigEndian

theorem cpu_to_be_toNat (x : UInt16) :
    (cpu_to_be_16 .little x).toNat = x.toNat % 256 * 256 + x.toNat / 256 := bswap16_toNat x

theorem be_to_cpu_cpu_to_be (host : ByteOrder) (x : UInt16) :
    be_to_cpu_16 host (cpu_to_be_16 host x) = x := by
  cases host with
  | big => rfl
  | little => exact bswap16_bswap16 x

/-- The `n` bytes at an offset. -/
def bytesAt (n offset : Nat) (data : List UInt8) : Vector UInt8 n :=
  Vector.ofFn fun i => data.getD (offset + i) 0

theorem bytesAt_append {n offset : Nat} {front : List UInt8} (h : front.length = offset)
    (v : Vector UInt8 n) (rest : List UInt8) :
    bytesAt n offset (front ++ (v.toList ++ rest)) = v := by
  ext i hi
  have hv : i < v.toList.length := by
    rw [Vector.length_toList]
    exact hi
  rw [bytesAt, Vector.getElem_ofFn, List.getD_append_right _ _ _ _ (by omega),
    show offset + i - front.length = i by omega, List.getD_append _ _ _ _ hv,
    List.getD_eq_getElem _ _ hv, Vector.getElem_toList]

/-- **A header says what its object says**: the fields read from the bytes and those the getters
return are the ones that were set. -/
structure Says {F : Type} (set read got : F) : Prop where
  read_eq : read = set
  got_eq : got = set

/-! ## IPv4 -/

/-- The fields of an IPv4 header that have setters, as numbers. -/
@[ext] structure IPv4Fields where
  dscp : Nat
  ecn : Nat
  id : Nat
  frag_off : Nat
  ttl : Nat
  protocol : Nat
  src_addr : Vector UInt8 4
  dst_addr : Vector UInt8 4

namespace IPv4Fields

/-- What the constructor sets. -/
def initial : IPv4Fields := ⟨0, 0, 0, 0, 64, 0, Vector.replicate 4 0, Vector.replicate 4 0⟩

/-- The header in network order, RFC 791. -/
def wireRead (ip : List UInt8) : IPv4Fields where
  dscp := (ip.getD 1 0).toNat / 4
  ecn := (ip.getD 1 0).toNat % 4
  id := field ip 4
  frag_off := field ip 6 % 8192
  ttl := (ip.getD 8 0).toNat
  protocol := (ip.getD 9 0).toNat
  src_addr := bytesAt 4 12 ip
  dst_addr := bytesAt 4 16 ip

/-- What the getters return. -/
def ofGetters (host : ByteOrder) (p : IPv4Packet) : IPv4Fields where
  dscp := p.getDSCP.toNat
  ecn := p.getECN.toNat
  id := (p.getId host).toNat
  frag_off := (p.getFragOff host).toNat
  ttl := p.getTtl.toNat
  protocol := p.getProtocol.toNat
  src_addr := p.getSrcAddr
  dst_addr := p.getDstAddr

structure InRange (f : IPv4Fields) : Prop where
  dscp : f.dscp < 64
  ecn : f.ecn < 4
  id : f.id < 65536
  frag_off : f.frag_off < 8192
  ttl : f.ttl < 256
  protocol : f.protocol < 256

/-- The fields as a little-endian host sends them. -/
def sent (f : IPv4Fields) : IPv4Fields :=
  { f with
    dscp := (f.dscp + f.ecn * 64) / 4
    ecn := (f.dscp + f.ecn * 64) % 4
    id := f.id % 256 * 256 + f.id / 256
    frag_off := (f.frag_off % 256 * 256 + f.frag_off / 256) % 8192 }

/-- **The fields that read the same either way**: two equal bytes, and a DSCP whose bits repeat
the ECN. -/
structure Mirrored (f : IPv4Fields) : Prop where
  dscp : f.dscp = 21 * f.ecn
  id : f.id % 256 = f.id / 256
  frag_off : f.frag_off % 256 = f.frag_off / 256

variable {f : IPv4Fields}

theorem sent_eq_iff (h : f.InRange) : f.sent = f ↔ f.Mirrored := by
  obtain ⟨hdscp, hecn, hid, hfrag, -, -⟩ := h
  constructor
  · intro heq
    have h1 : (f.dscp + f.ecn * 64) / 4 = f.dscp := congrArg IPv4Fields.dscp heq
    have h2 : (f.dscp + f.ecn * 64) % 4 = f.ecn := congrArg IPv4Fields.ecn heq
    have h3 : f.id % 256 * 256 + f.id / 256 = f.id := congrArg IPv4Fields.id heq
    have h4 : (f.frag_off % 256 * 256 + f.frag_off / 256) % 8192 = f.frag_off :=
      congrArg IPv4Fields.frag_off heq
    exact ⟨by omega, by omega, by omega⟩
  · rintro ⟨h1, h2, h3⟩
    apply IPv4Fields.ext
    · show (f.dscp + f.ecn * 64) / 4 = f.dscp
      omega
    · show (f.dscp + f.ecn * 64) % 4 = f.ecn
      omega
    · show f.id % 256 * 256 + f.id / 256 = f.id
      omega
    · show (f.frag_off % 256 * 256 + f.frag_off / 256) % 8192 = f.frag_off
      omega
    all_goals rfl

end IPv4Fields

/-- A call of a setter of `IPv4Packet`. -/
inductive IPv4Set
  | setDSCP (newDSCP : Nat)
  | setECN (newECN : Nat)
  | setId (newId : Nat)
  | setFragOff (newFragOff : Nat)
  | setTtl (newTTL : Nat)
  | setProtocol (newProtocol : Nat)
  | setDstAddr (newDstAddr : Vector UInt8 4)
  | setSrcAddr (newSrcAddr : Vector UInt8 4)

namespace IPv4Set

/-- The call, its argument converted to the type of the parameter. -/
def call (host : ByteOrder) (p : IPv4Packet) : IPv4Set → IPv4Packet
  | setDSCP v => p.setDSCP (UInt8.ofNat v)
  | setECN v => p.setECN (UInt8.ofNat v)
  | setId v => p.setId host (UInt16.ofNat v)
  | setFragOff v => p.setFragOff host (UInt16.ofNat v)
  | setTtl v => p.setTtl (UInt8.ofNat v)
  | setProtocol v => p.setProtocol (UInt8.ofNat v)
  | setDstAddr v => p.setDstAddr v
  | setSrcAddr v => p.setSrcAddr v

/-- The field that is set. -/
def record (f : IPv4Fields) : IPv4Set → IPv4Fields
  | setDSCP v => { f with dscp := v }
  | setECN v => { f with ecn := v }
  | setId v => { f with id := v }
  | setFragOff v => { f with frag_off := v }
  | setTtl v => { f with ttl := v }
  | setProtocol v => { f with protocol := v }
  | setDstAddr v => { f with dst_addr := v }
  | setSrcAddr v => { f with src_addr := v }

/-- The value is in the range of its field, RFC 791 and RFC 2474. -/
def InRange : IPv4Set → Prop
  | setDSCP v => v < 64
  | setECN v => v < 4
  | setId v => v < 65536
  | setFragOff v => v < 8192
  | setTtl v => v < 256
  | setProtocol v => v < 256
  | setDstAddr _ => True
  | setSrcAddr _ => True

end IPv4Set

/-- **The object and the values set.** -/
structure IPv4Holds (p : IPv4Packet) (f : IPv4Fields) : Prop where
  range : f.InRange
  dscp : p.dscp.toNat = f.dscp
  ecn : p.ecn.toNat = f.ecn
  id : p.id = cpu_to_be_16 .little (UInt16.ofNat f.id)
  frag_off : p.frag_off = cpu_to_be_16 .little (UInt16.ofNat f.frag_off)
  ttl : p.ttl.toNat = f.ttl
  protocol : p.protocol.toNat = f.protocol
  src_addr : p.src_addr = f.src_addr
  dst_addr : p.dst_addr = f.dst_addr

theorem toNat_ofNat8 {n : Nat} (h : n < 256) : (UInt8.ofNat n).toNat = n := by
  rw [UInt8.toNat_ofNat', Nat.mod_eq_of_lt h]

theorem toNat_ofNat16 {n : Nat} (h : n < 65536) : (UInt16.ofNat n).toNat = n := by
  rw [UInt16.toNat_ofNat', Nat.mod_eq_of_lt h]

namespace IPv4Holds
variable {p : IPv4Packet} {f : IPv4Fields}

theorem initial : IPv4Holds (IPv4Packet.new .little) IPv4Fields.initial := by
  refine ⟨⟨?_, ?_, ?_, ?_, ?_, ?_⟩, rfl, rfl, rfl, rfl, rfl, rfl, rfl, rfl⟩ <;> decide

theorem call (h : IPv4Holds p f) {s : IPv4Set} (hs : s.InRange) :
    IPv4Holds (s.call .little p) (s.record f) := by
  cases s with
  | setDSCP v =>
    have hv : v < 256 := Nat.lt_trans hs (by decide)
    exact { h with range := { h.range with dscp := hs }, dscp := toNat_ofNat8 hv }
  | setECN v =>
    have hv : v < 256 := Nat.lt_trans hs (by decide)
    exact { h with range := { h.range with ecn := hs }, ecn := toNat_ofNat8 hv }
  | setId v => exact { h with range := { h.range with id := hs }, id := rfl }
  | setFragOff v => exact { h with range := { h.range with frag_off := hs }, frag_off := rfl }
  | setTtl v => exact { h with range := { h.range with ttl := hs }, ttl := toNat_ofNat8 hs }
  | setProtocol v =>
    exact { h with range := { h.range with protocol := hs }, protocol := toNat_ofNat8 hs }
  | setDstAddr v => exact { h with range := { h.range with }, dst_addr := rfl }
  | setSrcAddr v => exact { h with range := { h.range with }, src_addr := rfl }

/-- After any calls the object holds what was set last. -/
theorem calls (h : IPv4Holds p f) {sets : List IPv4Set} (hsets : ∀ s ∈ sets, s.InRange) :
    IPv4Holds (sets.foldl (IPv4Set.call .little) p) (sets.foldl IPv4Set.record f) :=
  List.foldl_rel h fun s hs _ _ h => h.call (hsets s hs)

theorem ofGetters_eq (h : IPv4Holds p f) : IPv4Fields.ofGetters .little p = f := by
  have hid : (p.getId .little).toNat = f.id := by
    rw [IPv4Packet.getId, h.id, be_to_cpu_cpu_to_be, toNat_ofNat16 h.range.id]
  have hfrag : (p.getFragOff .little).toNat = f.frag_off := by
    have hlt := h.range.frag_off
    rw [IPv4Packet.getFragOff, h.frag_off, be_to_cpu_cpu_to_be, toNat_ofNat16 (by omega)]
  exact IPv4Fields.ext h.dscp h.ecn hid hfrag h.ttl h.protocol h.src_addr h.dst_addr

/-- **What is sent**: the fields with their bytes and bits in the order of the host. -/
theorem wireRead_eq (h : IPv4Holds p f) (headerSizeTotal : UInt16) :
    IPv4Fields.wireRead ((p.asBinary .little headerSizeTotal).drop 14) = f.sent := by
  obtain ⟨ip, hip⟩ : ∃ ip, ip = (p.asBinary .little headerSizeTotal).drop 14 := ⟨_, rfl⟩
  rw [← hip]
  have hbytes := p.ip_eq .little headerSizeTotal []
  rw [List.append_nil, ← hip] at hbytes
  have hservice : (ip.getD 1 0).toNat = f.dscp + f.ecn * 64 := by
    have hdscp := h.range.dscp
    have hecn := h.range.ecn
    rw [hbytes]
    show (UInt8.ofNat (p.dscp.toNat % 64 + p.ecn.toNat % 4 * 64)).toNat = _
    rw [h.dscp, h.ecn, Nat.mod_eq_of_lt hdscp, Nat.mod_eq_of_lt hecn, toNat_ofNat8 (by omega)]
  -- the numbers are swapped by the setter and by `asBinary`
  have hid : field ip 4 = f.id % 256 * 256 + f.id / 256 := by
    rw [← toNat_ofNat16 h.range.id, ← cpu_to_be_toNat, ← h.id, hbytes]
    exact read16_bytes16 p.id.toNat_lt
  have hfrag : field ip 6 = f.frag_off % 256 * 256 + f.frag_off / 256 := by
    have hlt : f.frag_off < 65536 := Nat.lt_trans h.range.frag_off (by decide)
    rw [← toNat_ofNat16 hlt, ← cpu_to_be_toNat, ← h.frag_off, hbytes]
    exact read16_bytes16 p.frag_off.toNat_lt
  have httl : (ip.getD 8 0).toNat = f.ttl := by
    rw [hbytes, ← h.ttl]
    rfl
  have hprotocol : (ip.getD 9 0).toNat = f.protocol := by
    rw [hbytes, ← h.protocol]
    rfl
  have hsrc : bytesAt 4 12 ip = f.src_addr := by
    rw [hbytes, ← h.src_addr, List.append_assoc p.src_addr.toList]
    exact bytesAt_append rfl p.src_addr _
  have hdst : bytesAt 4 16 ip = f.dst_addr := by
    rw [hbytes, ← h.dst_addr, List.append_assoc p.src_addr.toList, ← List.append_assoc]
    exact bytesAt_append (by simp) p.dst_addr _
  exact IPv4Fields.ext (congrArg (· / 4) hservice) (congrArg (· % 4) hservice) hid
    (congrArg (· % 8192) hfrag) httl hprotocol hsrc hdst

end IPv4Holds

/-! ## IPv6 -/

/-- The fields of an IPv6 header that have setters, as numbers. -/
@[ext] structure IPv6Fields where
  traffic_class : Nat
  flow_label : Nat
  next_header : Nat
  hop_limit : Nat
  src_addr : Vector UInt8 16
  dst_addr : Vector UInt8 16

namespace IPv6Fields

/-- What the constructor sets. -/
def initial : IPv6Fields := ⟨0, 0, 0, 64, Vector.replicate 16 0, Vector.replicate 16 0⟩

/-- The header in network order, RFC 8200. -/
def wireRead (ip : List UInt8) : IPv6Fields where
  traffic_class := (ip.getD 0 0).toNat % 16 * 16 + (ip.getD 1 0).toNat / 16
  flow_label := (ip.getD 1 0).toNat % 16 * 65536 + field ip 2
  next_header := (ip.getD 6 0).toNat
  hop_limit := (ip.getD 7 0).toNat
  src_addr := bytesAt 16 8 ip
  dst_addr := bytesAt 16 24 ip

/-- What the getters return. -/
def ofGetters (p : IPv6Packet) : IPv6Fields where
  traffic_class := p.getTrafficClass.toNat
  flow_label := p.getFlowLabel.toNat
  next_header := p.getNextHeader.toNat
  hop_limit := p.getHopLimit.toNat
  src_addr := p.getSrcAddr
  dst_addr := p.getDstAddr

structure InRange (f : IPv6Fields) : Prop where
  traffic_class : f.traffic_class < 256
  flow_label : f.flow_label < 1048576
  next_header : f.next_header < 256
  hop_limit : f.hop_limit < 256

/-- The fields as a little-endian host sends them: four bits of the traffic class, and eight of the
flow label in the byte where the rest of the traffic class should be. -/
def sent (f : IPv6Fields) : IPv6Fields :=
  { f with
    traffic_class := f.traffic_class % 16 * 16 + f.flow_label % 256 / 16
    flow_label := f.flow_label % 16 * 65536 }

/-- What the getters return of the fields set: eight bits of the flow label. -/
def kept (f : IPv6Fields) : IPv6Fields := { f with flow_label := f.flow_label % 256 }

/-- **Neither of the two fields is used.** -/
structure Unlabelled (f : IPv6Fields) : Prop where
  traffic_class : f.traffic_class = 0
  flow_label : f.flow_label = 0

variable {f : IPv6Fields}

theorem sent_eq_and_kept_eq_iff : f.sent = f ∧ f.kept = f ↔ f.Unlabelled := by
  constructor
  · rintro ⟨hsent, -⟩
    have h1 : f.traffic_class % 16 * 16 + f.flow_label % 256 / 16 = f.traffic_class :=
      congrArg IPv6Fields.traffic_class hsent
    have h2 : f.flow_label % 16 * 65536 = f.flow_label := congrArg IPv6Fields.flow_label hsent
    have hlabel : f.flow_label = 0 := by omega
    rw [hlabel] at h1
    exact ⟨by omega, hlabel⟩
  · rintro ⟨h1, h2⟩
    constructor
    · apply IPv6Fields.ext
      · show f.traffic_class % 16 * 16 + f.flow_label % 256 / 16 = f.traffic_class
        rw [h1, h2]
      · show f.flow_label % 16 * 65536 = f.flow_label
        rw [h2]
      all_goals rfl
    · apply IPv6Fields.ext
      · rfl
      · show f.flow_label % 256 = f.flow_label
        rw [h2]
      all_goals rfl

end IPv6Fields

/-- A call of a setter of `IPv6Packet`. -/
inductive IPv6Set
  | setTrafficClass (newTrafficClass : Nat)
  | setFlowLabel (newFlowLabel : Nat)
  | setNextHeader (newNextHeader : Nat)
  | setHopLimit (newHopLimit : Nat)
  | setDstAddr (newDstAddr : Vector UInt8 16)
  | setSrcAddr (newSrcAddr : Vector UInt8 16)

namespace IPv6Set

/-- The call, its argument converted to the type of the parameter, `uint8_t` also for a flow label. -/
def call (p : IPv6Packet) : IPv6Set → IPv6Packet
  | setTrafficClass v => p.setTrafficClass (UInt8.ofNat v)
  | setFlowLabel v => p.setFlowLabel (UInt8.ofNat v)
  | setNextHeader v => p.setNextHeader (UInt8.ofNat v)
  | setHopLimit v => p.setHopLimit (UInt8.ofNat v)
  | setDstAddr v => p.setDstAddr v
  | setSrcAddr v => p.setSrcAddr v

/-- The field that is set. -/
def record (f : IPv6Fields) : IPv6Set → IPv6Fields
  | setTrafficClass v => { f with traffic_class := v }
  | setFlowLabel v => { f with flow_label := v }
  | setNextHeader v => { f with next_header := v }
  | setHopLimit v => { f with hop_limit := v }
  | setDstAddr v => { f with dst_addr := v }
  | setSrcAddr v => { f with src_addr := v }

/-- The value is in the range of its field, RFC 8200. -/
def InRange : IPv6Set → Prop
  | setTrafficClass v => v < 256
  | setFlowLabel v => v < 1048576
  | setNextHeader v => v < 256
  | setHopLimit v => v < 256
  | setDstAddr _ => True
  | setSrcAddr _ => True

end IPv6Set

/-- **The object and the values set.** -/
structure IPv6Holds (p : IPv6Packet) (f : IPv6Fields) : Prop where
  range : f.InRange
  priority : p.priority.toNat = f.traffic_class
  flow_label : p.flow_label.toNat = f.flow_label % 256
  next_header : p.next_header.toNat = f.next_header
  hop_limit : p.hop_limit.toNat = f.hop_limit
  src_addr : p.src_addr = f.src_addr
  dst_addr : p.dst_addr = f.dst_addr

namespace IPv6Holds
variable {p : IPv6Packet} {f : IPv6Fields}

theorem initial : IPv6Holds (IPv6Packet.new .little) IPv6Fields.initial := by
  refine ⟨⟨?_, ?_, ?_, ?_⟩, rfl, rfl, rfl, rfl, rfl, rfl⟩ <;> decide

theorem call (h : IPv6Holds p f) {s : IPv6Set} (hs : s.InRange) :
    IPv6Holds (s.call p) (s.record f) := by
  cases s with
  | setTrafficClass v =>
    exact { h with range := { h.range with traffic_class := hs }, priority := toNat_ofNat8 hs }
  | setFlowLabel v =>
    have hkept : (UInt8.ofNat v).toUInt32.toNat = v % 256 := by
      rw [UInt8.toNat_toUInt32, UInt8.toNat_ofNat']
    exact { h with range := { h.range with flow_label := hs }, flow_label := hkept }
  | setNextHeader v =>
    exact { h with range := { h.range with next_header := hs }, next_header := toNat_ofNat8 hs }
  | setHopLimit v =>
    exact { h with range := { h.range with hop_limit := hs }, hop_limit := toNat_ofNat8 hs }
  | setDstAddr v => exact { h with range := { h.range with }, dst_addr := rfl }
  | setSrcAddr v => exact { h with range := { h.range with }, src_addr := rfl }

/-- After any calls the object holds what was set last. -/
theorem calls (h : IPv6Holds p f) {sets : List IPv6Set} (hsets : ∀ s ∈ sets, s.InRange) :
    IPv6Holds (sets.foldl IPv6Set.call p) (sets.foldl IPv6Set.record f) :=
  List.foldl_rel h fun s hs _ _ h => h.call (hsets s hs)

theorem ofGetters_eq (h : IPv6Holds p f) : IPv6Fields.ofGetters p = f.kept := by
  have hlabel : p.flow_label.toUInt8.toNat = f.flow_label % 256 := by
    rw [UInt32.toNat_toUInt8, h.flow_label, Nat.mod_mod]
  exact IPv6Fields.ext h.priority hlabel h.next_header h.hop_limit h.src_addr h.dst_addr

/-- The header in memory. -/
theorem binary_eq (p : IPv6Packet) (headerSizeTotal : UInt16) :
    (p.asBinary .little headerSizeTotal).drop 14 =
      [UInt8.ofNat (p.version.toNat % 16 * 16 + p.priority.toNat % 16),
        UInt8.ofNat p.flow_label.toNat, UInt8.ofNat (p.flow_label.toNat / 256),
        UInt8.ofNat (p.flow_label.toNat / 65536),
        UInt8.ofNat ((p._ipv6HeaderPayloadLength headerSizeTotal).toNat / 256),
        UInt8.ofNat (p._ipv6HeaderPayloadLength headerSizeTotal).toNat, p.next_header, p.hop_limit] ++
      (p.src_addr.toList ++ p.dst_addr.toList) := by
  simp only [IPv6Packet.asBinary, IPv6Header.bytes, memory16_cpu_to_be]
  rw [List.drop_left' (ethernet_length .little p.toIPPacket)]
  simp only [bytes16, List.cons_append, List.nil_append, List.append_assoc]
  rfl

/-- **What is sent.** -/
theorem wireRead_eq (h : IPv6Holds p f) (headerSizeTotal : UInt16) :
    IPv6Fields.wireRead ((p.asBinary .little headerSizeTotal).drop 14) = f.sent := by
  obtain ⟨ip, hip⟩ : ∃ ip, ip = (p.asBinary .little headerSizeTotal).drop 14 := ⟨_, rfl⟩
  rw [← hip]
  have hbytes := binary_eq p headerSizeTotal
  rw [← hip, h.flow_label] at hbytes
  have hlt : f.flow_label % 256 < 256 := Nat.mod_lt _ (by decide)
  have hfirst : (ip.getD 0 0).toNat % 16 = f.traffic_class % 16 := by
    rw [hbytes, ← h.priority]
    show (UInt8.ofNat (p.version.toNat % 16 * 16 + p.priority.toNat % 16)).toNat % 16 = _
    rw [toNat_ofNat8 (by omega)]
    omega
  have hlabel : (ip.getD 1 0).toNat = f.flow_label % 256 := by
    rw [hbytes]
    exact toNat_ofNat8 hlt
  have hrest : field ip 2 = 0 := by
    have h1 : f.flow_label % 256 / 256 = 0 := Nat.div_eq_of_lt hlt
    have h2 : f.flow_label % 256 / 65536 = 0 := by omega
    rw [hbytes, h1, h2]
    show read16 (UInt8.ofNat 0) (UInt8.ofNat 0) = 0
    decide
  have htraffic : (ip.getD 0 0).toNat % 16 * 16 + (ip.getD 1 0).toNat / 16 =
      f.traffic_class % 16 * 16 + f.flow_label % 256 / 16 := by
    rw [hfirst, hlabel]
  have hflow : (ip.getD 1 0).toNat % 16 * 65536 + field ip 2 = f.flow_label % 16 * 65536 := by
    rw [hlabel, hrest]
    omega
  have hnext : (ip.getD 6 0).toNat = f.next_header := by
    rw [hbytes, ← h.next_header]
    rfl
  have hhop : (ip.getD 7 0).toNat = f.hop_limit := by
    rw [hbytes, ← h.hop_limit]
    rfl
  have hsrc : bytesAt 16 8 ip = f.src_addr := by
    rw [hbytes, ← h.src_addr]
    exact bytesAt_append rfl p.src_addr _
  have hdst : bytesAt 16 24 ip = f.dst_addr := by
    rw [hbytes, ← h.dst_addr, ← List.append_assoc, ← List.append_nil p.dst_addr.toList]
    exact bytesAt_append (by simp) p.dst_addr _
  exact IPv6Fields.ext htraffic hflow hnext hhop hsrc hdst

end IPv6Holds

/-! ## Both -/

/-- Setter calls on a new packet. -/
inductive HeaderCalls
  | ipv4 (sets : List IPv4Set)
  | ipv6 (sets : List IPv6Set)

namespace HeaderCalls

/-- Every value is in the range of its field. -/
def InRange : HeaderCalls → Prop
  | ipv4 sets => ∀ s ∈ sets, s.InRange
  | ipv6 sets => ∀ s ∈ sets, s.InRange

/-- The header of the packet says what was set, and so do the getters.  `headerSizeTotal` is that of
the class of the object, which may be a derived one. -/
def HeaderSays (headerSizeTotal : UInt16) : HeaderCalls → Prop
  | ipv4 sets =>
    let p := sets.foldl (IPv4Set.call .little) (IPv4Packet.new .little)
    Says (sets.foldl IPv4Set.record IPv4Fields.initial)
      (IPv4Fields.wireRead ((p.asBinary .little headerSizeTotal).drop 14))
      (IPv4Fields.ofGetters .little p)
  | ipv6 sets =>
    let p := sets.foldl IPv6Set.call (IPv6Packet.new .little)
    Says (sets.foldl IPv6Set.record IPv6Fields.initial)
      (IPv6Fields.wireRead ((p.asBinary .little headerSizeTotal).drop 14))
      (IPv6Fields.ofGetters p)

/-- The values set last are such as the code does not disturb. -/
def Undisturbed : HeaderCalls → Prop
  | ipv4 sets => (sets.foldl IPv4Set.record IPv4Fields.initial).Mirrored
  | ipv6 sets => (sets.foldl IPv6Set.record IPv6Fields.initial).Unlabelled

/-- **The header says what was set** on a little-endian host if and only if, in IPv4, the DSCP is 21
times the ECN and the two bytes of the id and of the fragment offset are equal and, in IPv6, traffic
class and flow label are zero. -/
theorem headerSays_iff (c : HeaderCalls) (headerSizeTotal : UInt16) (hrange : c.InRange) :
    c.HeaderSays headerSizeTotal ↔ c.Undisturbed := by
  cases c with
  | ipv4 sets =>
    have hholds := IPv4Holds.initial.calls hrange
    refine Iff.trans ?_ (IPv4Fields.sent_eq_iff hholds.range)
    have hwire := hholds.wireRead_eq headerSizeTotal
    have hgot := hholds.ofGetters_eq
    constructor
    · intro h
      exact hwire.symm.trans h.read_eq
    · intro h
      exact ⟨hwire.trans h, hgot⟩
  | ipv6 sets =>
    have hholds := IPv6Holds.initial.calls hrange
    refine Iff.trans ?_ IPv6Fields.sent_eq_and_kept_eq_iff
    have hwire := hholds.wireRead_eq headerSizeTotal
    have hgot := hholds.ofGetters_eq
    constructor
    · intro h
      exact ⟨hwire.symm.trans h.read_eq, hgot.symm.trans h.got_eq⟩
    · rintro ⟨hsent, hkept⟩
      exact ⟨hwire.trans hsent, hgot.trans hkept⟩

/-- DSCP 21 with ECN 1, and an id of two equal bytes. -/
theorem headerSays_iff_mirrored :
    (ipv4 [.setDSCP 21, .setECN 1, .setId 0x0707, .setTtl 63]).HeaderSays 28 := by
  refine (headerSays_iff _ 28 ?_).mpr ⟨by decide, by decide, by decide⟩
  intro s hs
  simp only [List.mem_cons, List.not_mem_nil, or_false] at hs
  rcases hs with rfl | rfl | rfl | rfl
  · exact (by decide : 21 < 64)
  · exact (by decide : 1 < 4)
  · exact (by decide : 0x0707 < 65536)
  · exact (by decide : 63 < 256)

/-- **Headers that say something else**: DSCP 46 is read as 11 with ECN 2, id 1 as 256; traffic class
0xb8 as 0x80, and flow label 0x12345 as 0x50000 under traffic class 4. -/
theorem other_header_sent :
    ¬(ipv4 [.setDSCP 46]).HeaderSays 20 ∧ ¬(ipv4 [.setId 1]).HeaderSays 20 ∧
      ¬(ipv6 [.setTrafficClass 0xb8]).HeaderSays 40 ∧ ¬(ipv6 [.setFlowLabel 0x12345]).HeaderSays 40 := by
  refine ⟨fun h => ?_, fun h => ?_, fun h => ?_, fun h => ?_⟩
  · exact absurd (congrArg IPv4Fields.dscp h.read_eq) (by decide +kernel)
  · exact absurd (congrArg IPv4Fields.id h.read_eq) (by decide +kernel)
  · exact absurd (congrArg IPv6Fields.traffic_class h.read_eq) (by decide +kernel)
  · exact absurd (congrArg IPv6Fields.flow_label h.read_eq) (by decide +kernel)

end HeaderCalls
end SuperEthd.NetKit
