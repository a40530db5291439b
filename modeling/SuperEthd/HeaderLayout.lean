import SuperEthd.OptionLoop

/-! # The documented layout of the packet header

The diagram in `codec.hpp` against the declaration under it.  `SETH_BYTE_ORDER` is defined nowhere, so
every host compiles the branch for big-endian ones; on a little-endian host, where bit-fields are
allocated from the least significant bit on, the fields of the first two bytes then stand the other way
round. -/
namespace SuperEthd
open BigEndian

namespace PacketHeader
variable (host : ByteOrder) (h : PacketHeader) (byte : Nat → UInt8)

/-- The header as the diagram has it. -/
def wire : List UInt8 :=
  [UInt8.ofNat (h.ver % 16 * 16 + h.opt_len % 16),
    UInt8.ofNat (h.oam % 2 * 128 + h.critical % 2 * 64 + h.reserved % 64), h.format, h.channel] ++
    bytes32 h.sequence

/-- What the diagram makes of eight bytes. -/
def wireRead : PacketHeader where
  ver := (byte 0).toNat / 16
  opt_len := (byte 0).toNat % 16
  oam := (byte 1).toNat / 128
  critical := (byte 1).toNat / 64 % 2
  reserved := (byte 1).toNat % 64
  format := byte 2
  channel := byte 3
  sequence := read32 (byte 4) (byte 5) (byte 6) (byte 7)

/-- **The first two bytes are the same either way round.** -/
def Mirrored : Prop :=
  h.ver % 16 = h.opt_len % 16 ∧
    (h.oam % 2 = 0 ∧ h.critical % 2 = 0 ∧ h.reserved % 64 = 0 ∨
      h.oam % 2 = 1 ∧ h.critical % 2 = 1 ∧ h.reserved % 64 = 63)

instance : Decidable h.Mirrored := inferInstanceAs (Decidable (_ ∧ _))

/-- The byte of the flags is zero or 255 if it is the same either way round. -/
theorem flags_eq_iff {oam critical reserved : Nat} (hoam : oam < 2) (hcritical : critical < 2) :
    oam + critical * 2 + reserved * 4 = oam * 128 + critical * 64 + reserved ↔
      oam = 0 ∧ critical = 0 ∧ reserved = 0 ∨ oam = 1 ∧ critical = 1 ∧ reserved = 63 := by
  have ho : oam = 0 ∨ oam = 1 := by omega
  have hc : critical = 0 ∨ critical = 1 := by omega
  rcases ho with rfl | rfl
  · rcases hc with rfl | rfl <;> omega
  · rcases hc with rfl | rfl <;> omega

theorem ofNat_nibbles_iff {ver opt_len : Nat} (hver : ver < 16) (hopt : opt_len < 16) :
    UInt8.ofNat (ver + opt_len * 16) = UInt8.ofNat (ver * 16 + opt_len) ↔ ver = opt_len := by
  rw [← UInt8.toNat_inj, UInt8.toNat_ofNat', UInt8.toNat_ofNat', Nat.mod_eq_of_lt (by omega),
    Nat.mod_eq_of_lt (by omega)]
  omega

theorem ofNat_flags_iff {oam critical reserved : Nat} (hoam : oam < 2) (hcritical : critical < 2)
    (hreserved : reserved < 64) :
    UInt8.ofNat (oam + critical * 2 + reserved * 4) = UInt8.ofNat (oam * 128 + critical * 64 + reserved) ↔
      oam = 0 ∧ critical = 0 ∧ reserved = 0 ∨ oam = 1 ∧ critical = 1 ∧ reserved = 63 := by
  rw [← UInt8.toNat_inj, UInt8.toNat_ofNat', UInt8.toNat_ofNat', Nat.mod_eq_of_lt (by omega),
    Nat.mod_eq_of_lt (by omega)]
  exact flags_eq_iff hoam hcritical

/-- A byte by its bit-fields from the least significant bit on. -/
theorem fields_eq_iff {b oam critical reserved : Nat} (hoam : oam < 2) (hcritical : critical < 2) :
    (b % 2 = oam ∧ b / 2 % 2 = critical ∧ b / 4 = reserved) ↔ b = oam + critical * 2 + reserved * 4 := by
  constructor
  · rintro ⟨h0, h1, h2⟩
    omega
  · rintro rfl
    omega

variable {host h byte}

theorem bytes_eq_wire_iff : h.bytes host = h.wire ↔ host = .big ∨ h.Mirrored := by
  cases host with
  | big => exact iff_of_true rfl (Or.inl rfl)
  | little =>
    have hver : h.ver % 16 < 16 := Nat.mod_lt _ (by decide)
    have hopt : h.opt_len % 16 < 16 := Nat.mod_lt _ (by decide)
    have hoam : h.oam % 2 < 2 := Nat.mod_lt _ (by decide)
    have hcritical : h.critical % 2 < 2 := Nat.mod_lt _ (by decide)
    have hreserved : h.reserved % 64 < 64 := Nat.mod_lt _ (by decide)
    simp only [bytes, wire, versionByte, flagsByte, List.cons_append, List.nil_append,
      List.cons.injEq, and_true]
    rw [ofNat_nibbles_iff hver hopt, ofNat_flags_iff hoam hcritical hreserved, Mirrored]
    constructor
    · exact Or.inr
    · rintro (hbig | hmirrored)
      · cases hbig
      · exact hmirrored

theorem read_eq_wireRead_iff :
    read host byte = wireRead byte ↔ host = .big ∨ (wireRead byte).Mirrored := by
  cases host with
  | big => exact iff_of_true rfl (Or.inl rfl)
  | little =>
    have h0 := (byte 0).toNat_lt
    have h1 := (byte 1).toNat_lt
    obtain ⟨oam, critical, reserved, hoam, hcritical, hreserved, hflags⟩ : ∃ oam critical reserved,
        oam < 2 ∧ critical < 2 ∧ reserved < 64 ∧
          (byte 1).toNat = oam * 128 + critical * 64 + reserved :=
      ⟨(byte 1).toNat / 128, (byte 1).toNat / 64 % 2, (byte 1).toNat % 64, by omega, by omega, by omega,
        by omega⟩
    have hoam' : (byte 1).toNat / 128 = oam := by omega
    have hcritical' : (byte 1).toNat / 64 % 2 = critical := by omega
    have hreserved' : (byte 1).toNat % 64 = reserved := by omega
    have hfields : ((byte 1).toNat % 2 = oam ∧ (byte 1).toNat / 2 % 2 = critical ∧ (byte 1).toNat / 4 = reserved) ↔
        oam = 0 ∧ critical = 0 ∧ reserved = 0 ∨ oam = 1 ∧ critical = 1 ∧ reserved = 63 := by
      rw [fields_eq_iff hoam hcritical, hflags, eq_comm]
      exact flags_eq_iff hoam hcritical
    have hver : (byte 0).toNat % 16 = (byte 0).toNat / 16 ∧ (byte 0).toNat / 16 = (byte 0).toNat % 16 ↔
        (byte 0).toNat / 16 % 16 = (byte 0).toNat % 16 % 16 := by
      rw [Nat.mod_mod, Nat.mod_eq_of_lt (show (byte 0).toNat / 16 < 16 by omega)]
      exact ⟨And.right, fun heq => ⟨heq.symm, heq⟩⟩
    simp only [read, wireRead, Mirrored, PacketHeader.mk.injEq, and_true, hoam', hcritical', hreserved',
      Nat.mod_eq_of_lt hoam, Nat.mod_eq_of_lt hcritical, Nat.mod_eq_of_lt hreserved]
    rw [← and_assoc, hver, hfields]
    constructor
    · exact Or.inr
    · rintro (hbig | hmirrored)
      · cases hbig
      · exact hmirrored

/-- The headers that the encoder sends are the same either way round. -/
theorem header_mirrored (sequence : UInt32) : (PacketEncoder.header sequence 1).Mirrored :=
  ⟨rfl, Or.inl ⟨rfl, rfl, rfl⟩⟩

/-- **What the diagram promises** of a header `h` in memory and of eight bytes that `decode` gets. -/
structure Documented (host : ByteOrder) (h : PacketHeader) (byte : Nat → UInt8) : Prop where
  laid_out : h.bytes host = h.wire
  reads : read host byte = wireRead byte
  decides : PacketDecoder.HeaderValid (read host byte) ↔ PacketDecoder.HeaderValid (wireRead byte)

/-- **The layout is the documented one** on a big-endian host, and on a little-endian one just for
headers that are the same either way round. -/
theorem documented_iff (host : ByteOrder) (h : PacketHeader) (byte : Nat → UInt8) :
    Documented host h byte ↔ host = .big ∨ h.Mirrored ∧ (wireRead byte).Mirrored := by
  constructor
  · rintro ⟨hbytes, hread, -⟩
    rcases bytes_eq_wire_iff.mp hbytes with hbig | hmirrored
    · exact Or.inl hbig
    · exact (read_eq_wireRead_iff.mp hread).imp_right fun hread' => ⟨hmirrored, hread'⟩
  · intro hor
    have hbytes := bytes_eq_wire_iff.mpr (hor.imp_right And.left)
    have hread := read_eq_wireRead_iff.mpr (hor.imp_right And.right)
    exact ⟨hbytes, hread, by rw [hread]⟩

/-- **Version 1 with two options**, on a little-endian host: the nibbles of the first byte change
places, and `decode` refuses for its version 2 what the diagram lets pass. -/
theorem nibbles_swapped :
    let h : PacketHeader := ⟨1, 2, 0, 0, 0, PacketHeaderFormat.ENCAPSULATED, 0, 7⟩
    h.bytes .little = 0x21 :: h.wire.tail ∧ h.wire = 0x12 :: h.wire.tail ∧
      PacketDecoder.HeaderValid (wireRead fun i => h.wire.getD i 0) ∧
      ¬PacketDecoder.HeaderValid (read .little fun i => h.wire.getD i 0) ∧
      ¬Documented .little h fun i => h.wire.getD i 0 := by
  intro h
  refine ⟨by decide, by decide, by decide, by decide, fun hdoc => ?_⟩
  exact absurd hdoc.laid_out (by decide)

end PacketHeader
end SuperEthd
