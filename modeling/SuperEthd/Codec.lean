import SuperEthd.Lib.BigEndian
import Mathlib.Data.List.Basic

/-! # The wire format

The packet header and the option header that stands before each payload, as `codec.hpp`
declares them and GCC lays them out. -/
namespace SuperEthd
open BigEndian

/-- Byte order of the host.  GCC allocates bit-fields from the least significant bit on on
little-endian targets and from the most significant bit on on big-endian ones. -/
inductive ByteOrder
  | little
  | big
  deriving DecidableEq

/-- `SETH_PACKET_MAX_SIZE`: `UINT16_MAX` less the 14 bytes of an Ethernet header. -/
def SETH_PACKET_MAX_SIZE : Nat := 65535 - 14

/-- `SETH_PACKET_HEADER_VERSION_V1`. -/
def SETH_PACKET_HEADER_VERSION_V1 : Nat := 0x1

/-- `PacketHeaderFormat::ENCAPSULATED`. -/
def PacketHeaderFormat.ENCAPSULATED : UInt8 := 0x1

/-- `struct PacketHeader`.  The bit-fields hold numbers; what does not fit is cut off when
they are stored. -/
structure PacketHeader where
  ver : Nat
  opt_len : Nat
  oam : Nat
  critical : Nat
  reserved : Nat
  format : UInt8
  channel : UInt8
  sequence : UInt32
  deriving DecidableEq

namespace PacketHeader

/-- `sizeof(PacketHeader)`. -/
abbrev size : Nat := 8

/-- The byte of `ver : 4` and `opt_len : 4`, declared in this order: neither macro of the
`#if` around the declaration is ever defined, so its first branch is compiled on every host. -/
def versionByte (host : ByteOrder) (h : PacketHeader) : Nat :=
  match host with
  | .little => h.ver % 16 + h.opt_len % 16 * 16
  | .big => h.ver % 16 * 16 + h.opt_len % 16

/-- The byte of `oam : 1`, `critical : 1` and `reserved : 6`. -/
def flagsByte (host : ByteOrder) (h : PacketHeader) : Nat :=
  match host with
  | .little => h.oam % 2 + h.critical % 2 * 2 + h.reserved % 64 * 4
  | .big => h.oam % 2 * 128 + h.critical % 2 * 64 + h.reserved % 64

/-- The header in memory. -/
def bytes (host : ByteOrder) (h : PacketHeader) : List UInt8 :=
  [UInt8.ofNat (h.versionByte host), UInt8.ofNat (h.flagsByte host), h.format, h.channel] ++
    bytes32 h.sequence

/-- The header that overlays the bytes `byte 0`, `byte 1`, … -/
def read (host : ByteOrder) (byte : Nat → UInt8) : PacketHeader where
  ver := match host with
    | .little => (byte 0).toNat % 16
    | .big => (byte 0).toNat / 16
  opt_len := match host with
    | .little => (byte 0).toNat / 16
    | .big => (byte 0).toNat % 16
  oam := match host with
    | .little => (byte 1).toNat % 2
    | .big => (byte 1).toNat / 128
  critical := match host with
    | .little => (byte 1).toNat / 2 % 2
    | .big => (byte 1).toNat / 64 % 2
  reserved := match host with
    | .little => (byte 1).toNat / 4
    | .big => (byte 1).toNat % 64
  format := byte 2
  channel := byte 3
  sequence := read32 (byte 4) (byte 5) (byte 6) (byte 7)

@[simp] theorem bytes_length (host : ByteOrder) (h : PacketHeader) : (h.bytes host).length = size :=
  rfl

/-- Only the first eight bytes are read. -/
theorem read_congr (host : ByteOrder) {byte byte' : Nat → UInt8}
    (h : ∀ i, i < 8 → byte i = byte' i) : read host byte = read host byte' := by
  simp only [read, h 0 (by decide), h 1 (by decide), h 2 (by decide), h 3 (by decide),
    h 4 (by decide), h 5 (by decide), h 6 (by decide), h 7 (by decide)]

/-- The values of the bit-fields fit their widths. -/
structure Fits (h : PacketHeader) : Prop where
  ver : h.ver < 16
  opt_len : h.opt_len < 16
  oam : h.oam < 2
  critical : h.critical < 2
  reserved : h.reserved < 64

/-- **Round trip** of the packet header between hosts of one byte order. -/
theorem read_bytes (host : ByteOrder) {h : PacketHeader} (hf : h.Fits) {byte : Nat → UInt8}
    (hb : ∀ i, i < 8 → byte i = (h.bytes host).getD i 0) : read host byte = h := by
  obtain ⟨h1, h2, h3, h4, h5⟩ := hf
  obtain ⟨ver, opt_len, oam, critical, reserved, format, channel, sequence⟩ := h
  simp only at h1 h2 h3 h4 h5
  simp only [bytes, bytes32, versionByte, flagsByte] at hb
  have b0 := hb 0 (by decide)
  have b1 := hb 1 (by decide)
  have b2 := hb 2 (by decide)
  have b3 := hb 3 (by decide)
  have b4 := hb 4 (by decide)
  have b5 := hb 5 (by decide)
  have b6 := hb 6 (by decide)
  have b7 := hb 7 (by decide)
  simp only [List.cons_append, List.nil_append, List.getD_cons_zero, List.getD_cons_succ]
    at b0 b1 b2 b3 b4 b5 b6 b7
  cases host
  all_goals
    simp only [read, b0, b1, b2, b3, b4, b5, b6, b7, read32_bytes32, UInt8.toNat_ofNat',
      PacketHeader.mk.injEq, and_true]
    omega

end PacketHeader

/-- `PacketHeaderOptionType`: an enumeration over `uint8_t`, which on the wire can hold any
byte. -/
abbrev PacketHeaderOptionType := UInt8

namespace PacketHeaderOptionType
def PARTIAL_PACKET : PacketHeaderOptionType := 0x1
def COMPLETE_PACKET : PacketHeaderOptionType := 0x2
end PacketHeaderOptionType

/-- `PacketHeaderOptionFormatType`, likewise any byte on the wire. -/
abbrev PacketHeaderOptionFormatType := UInt8

namespace PacketHeaderOptionFormatType
def NONE : PacketHeaderOptionFormatType := 0x0
def COMPRESSED_LZ4 : PacketHeaderOptionFormatType := 0x1
def COMPRESSED_ZSTD : PacketHeaderOptionFormatType := 0x2
end PacketHeaderOptionFormatType

open PacketHeaderOptionType PacketHeaderOptionFormatType

/-- `struct PacketHeaderOption`, its two big-endian fields as the numbers they stand for. -/
structure PacketHeaderOption where
  type : PacketHeaderOptionType
  packet_size : Nat
  format : PacketHeaderOptionFormatType
  payload_length : Nat
  part : UInt8
  reserved : UInt8
  deriving DecidableEq

namespace PacketHeaderOption

/-- `sizeof(PacketHeaderOption)`. -/
abbrev size : Nat := 8

/-- `SETH_PACKET_HEADER_OPTION_TYPE_IS_VALID`. -/
def typeIsValid (o : PacketHeaderOption) : Bool :=
  o.type &&& ~~~(COMPLETE_PACKET ||| PARTIAL_PACKET) == 0

/-- `SETH_PACKET_HEADER_OPTION_TYPE_IS_PARTIAL`. -/
def typeIsPartial (o : PacketHeaderOption) : Bool := o.type &&& PARTIAL_PACKET == PARTIAL_PACKET

/-- `SETH_PACKET_HEADER_OPTION_TYPE_IS_COMPLETE`. -/
def typeIsComplete (o : PacketHeaderOption) : Bool :=
  o.type &&& COMPLETE_PACKET == COMPLETE_PACKET

/-- `SETH_PACKET_HEADER_OPTION_FORMAT_IS_COMPRESSED`. -/
def formatIsCompressed (o : PacketHeaderOption) : Bool :=
  o.format == COMPRESSED_LZ4 || o.format == COMPRESSED_ZSTD

/-- The option header in memory. -/
def bytes (o : PacketHeaderOption) : List UInt8 :=
  [o.type] ++ bytes16 o.packet_size ++ [o.format] ++ bytes16 o.payload_length ++
    [o.part, o.reserved]

/-- The option header that overlays the bytes `byte 0`, `byte 1`, … -/
def read (byte : Nat → UInt8) : PacketHeaderOption where
  type := byte 0
  packet_size := read16 (byte 1) (byte 2)
  format := byte 3
  payload_length := read16 (byte 4) (byte 5)
  part := byte 6
  reserved := byte 7

@[simp] theorem bytes_length (o : PacketHeaderOption) : o.bytes.length = size := rfl

/-- Only the first eight bytes are read. -/
theorem read_congr {byte byte' : Nat → UInt8} (h : ∀ i, i < 8 → byte i = byte' i) :
    read byte = read byte' := by
  simp only [read, h 0 (by decide), h 1 (by decide), h 2 (by decide), h 3 (by decide),
    h 4 (by decide), h 5 (by decide), h 6 (by decide), h 7 (by decide)]

/-- **Round trip** of the option header. -/
theorem read_bytes {o : PacketHeaderOption} (h1 : o.packet_size < 65536)
    (h2 : o.payload_length < 65536) {byte : Nat → UInt8}
    (hb : ∀ i, i < 8 → byte i = o.bytes.getD i 0) : read byte = o := by
  have b0 := hb 0 (by decide)
  have b1 := hb 1 (by decide)
  have b2 := hb 2 (by decide)
  have b3 := hb 3 (by decide)
  have b4 := hb 4 (by decide)
  have b5 := hb 5 (by decide)
  have b6 := hb 6 (by decide)
  have b7 := hb 7 (by decide)
  simp only [bytes, bytes16, List.cons_append, List.nil_append, List.getD_cons_zero,
    List.getD_cons_succ] at b0 b1 b2 b3 b4 b5 b6 b7
  simp only [read, b0, b1, b2, b3, b4, b5, b6, b7, read16_bytes16 h1, read16_bytes16 h2]

end PacketHeaderOption
end SuperEthd
