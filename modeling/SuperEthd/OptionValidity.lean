import SuperEthd.OptionLoop

/-! # Which option headers are acted on

The loop over the header options sees only the first option of a datagram and looks at its type
and its reserved byte.  The loop over the payloads looks at neither, nor at whether it knows the
format, so options behind the first are taken as they come. -/
namespace SuperEthd
open PacketHeaderOptionType PacketHeaderOptionFormatType

/-- The format is one of those that `codec.hpp` declares. -/
def PacketHeaderOption.FormatKnown (o : PacketHeaderOption) : Prop :=
  o.format = NONE ∨ o.format = COMPRESSED_LZ4 ∨ o.format = COMPRESSED_ZSTD

instance (o : PacketHeaderOption) : Decidable o.FormatKnown := inferInstanceAs (Decidable (_ ∨ _))

/-- The option header is valid: a type that is known and not zero, no reserved bit, and a format that
is known. -/
structure PacketHeaderOption.Valid (o : PacketHeaderOption) : Prop where
  type : o.typeIsValid = true ∧ o.type ≠ 0
  reserved : o.reserved = 0
  format : o.FormatKnown

namespace PacketDecoder
variable {H : Type} {B : Nat} (cfg : DecoderConfig H)

/-- **Only valid option headers are acted on** in the datagram. -/
structure ValidOnly (d : PacketDecoder H B) (packetBuffer : PacketBuffer B) : Prop where
  acted : ∀ pos flag d1 r d2, Reaches cfg packetBuffer d pos flag d1 →
    pos < packetBuffer.dataSize → (takeOption cfg packetBuffer pos flag).run d1 = .ok r d2 →
    ActedOn d1 d2 → (optionAt cfg packetBuffer pos).Valid
  /-- from an option on that is not valid, the datagram is dropped -/
  dropped : ∀ pos flag d1, Reaches cfg packetBuffer d pos flag d1 → pos < packetBuffer.dataSize →
    ¬(optionAt cfg packetBuffer pos).Valid →
    ∃ d2, (decodeOption cfg packetBuffer pos flag).run d1 = .ok none d2 ∧ Clear d2
  /-- or it is dropped before the loop over the payloads, if that option is the first -/
  first : PacketHeader.size ≤ packetBuffer.dataSize → ¬FirstOptionValid cfg packetBuffer →
    ∃ d2, (decodeHeader cfg packetBuffer).run d = .ok none d2 ∧ Clear d2

/-- **What no loop looks at**: a type of zero or an unknown format, and behind the first option, which
is at the end of the packet header, also an unknown type and the reserved byte. -/
def Unchecked (pos : Nat) (option : PacketHeaderOption) : Prop :=
  option.type = 0 ∨
    ¬option.FormatKnown ∨
    pos ≠ PacketHeader.size ∧ (option.typeIsValid = false ∨ option.reserved ≠ 0)

variable {cfg} {d d' : PacketDecoder H B} {packetBuffer : PacketBuffer B} {pos : Nat} {flag : Bool}
  {option : PacketHeaderOption} {tx : PacketBuffer B}

/-- The first option of a datagram that is read was checked. -/
theorem Reaches.firstOptionValid (h : Reaches cfg packetBuffer d pos flag d')
    (htx : d.tx_buffer = some tx) : FirstOptionValid cfg packetBuffer := by
  induction h with
  | first hrun => exact ((decodeHeader_checks (E := fun _ _ => True) htx).ok rfl hrun).2
  | next _ _ _ ih => exact ih

/-- An option that is not valid has something that no loop looks at. -/
theorem Reaches.unchecked (h : Reaches cfg packetBuffer d pos flag d') (htx : d.tx_buffer = some tx)
    (hinvalid : ¬(optionAt cfg packetBuffer pos).Valid) :
    Unchecked pos (optionAt cfg packetBuffer pos) := by
  by_contra hchecked
  simp only [Unchecked, not_or, not_and, not_not, Bool.not_eq_false] at hchecked
  obtain ⟨htype, hformat, hlater⟩ := hchecked
  refine hinvalid ?_
  by_cases hpos : pos = PacketHeader.size
  · obtain ⟨-, -, hreserved, hvalid⟩ := h.firstOptionValid htx
    rw [← hpos] at hreserved hvalid
    exact ⟨⟨hvalid, htype⟩, hreserved, hformat⟩
  · exact ⟨⟨(hlater hpos).1, htype⟩, (hlater hpos).2, hformat⟩

theorem Unchecked.invalid (h : Unchecked pos option) : ¬option.Valid := by
  rintro ⟨⟨hvalid, htype⟩, hreserved, hformat⟩
  rcases h with h | h | ⟨-, h | h⟩
  · exact htype h
  · exact h hformat
  · exact absurd (hvalid.symm.trans h) Bool.noConfusion
  · exact h hreserved

/-- What no loop looks at must fail a check that is made. -/
theorem ValidOnly.fails (honly : ValidOnly cfg d packetBuffer) (h : Sized cfg d)
    (hlibs : LibsBounded cfg B) (hreach : Reaches cfg packetBuffer d pos flag d')
    (hpos : pos < packetBuffer.dataSize) (hunchecked : Unchecked pos (optionAt cfg packetBuffer pos)) :
    ¬Passes cfg packetBuffer (optionAt cfg packetBuffer pos) pos d' := by
  obtain ⟨d2, hnone, -⟩ := honly.dropped pos flag d' hreach hpos hunchecked.invalid
  obtain ⟨r, d3, htake, hiff⟩ := (hreach.sized hlibs h).takeOption hlibs packetBuffer pos flag
  rw [decodeOption_eq_none.mp hnone] at htake
  obtain ⟨rfl, rfl⟩ := EStateM.Result.ok.inj htake
  exact hiff.mp rfl

/-- **Only valid option headers are acted on** exactly when each option that `decode` comes to and that
has something no loop looks at fails one of the checks that are made. -/
theorem validOnly_iff (hlibs : LibsBounded cfg B) {available pkts : List (PacketBuffer B)}
    {d0 : PacketDecoder H B} (hstart : Starts cfg available d0)
    (hrun : StepPath (Decodes cfg) d0 pkts d) (packetBuffer : PacketBuffer B) :
    ValidOnly cfg d packetBuffer ↔ ∀ pos flag d1, Reaches cfg packetBuffer d pos flag d1 →
      pos < packetBuffer.dataSize → Unchecked pos (optionAt cfg packetBuffer pos) →
      ¬Passes cfg packetBuffer (optionAt cfg packetBuffer pos) pos d1 := by
  have h : Sized cfg d :=
    hrun.invariant (fun _ _ _ h hd => hd.of_meets (decode_sized hlibs) h) hstart.sized
  obtain ⟨tx, htx, -⟩ := h.tx_buffer
  constructor
  · exact fun honly pos flag d1 hreach hpos hunchecked =>
      honly.fails h hlibs hreach hpos hunchecked
  · intro hfails
    have hrefuses : ∀ pos flag d1, Reaches cfg packetBuffer d pos flag d1 →
        pos < packetBuffer.dataSize → ¬(optionAt cfg packetBuffer pos).Valid →
        ∃ d2, (takeOption cfg packetBuffer pos flag).run d1 = .ok .refused d2 ∧ ¬ActedOn d1 d2 ∧
          Clear d2 := by
      intro pos flag d1 hreach hpos hinvalid
      have h1 := hreach.sized hlibs h
      obtain ⟨r, d2, htake, hiff⟩ := h1.takeOption hlibs packetBuffer pos flag
      obtain rfl := hiff.mpr (hfails pos flag d1 hreach hpos (hreach.unchecked htx hinvalid))
      exact ⟨d2, htake, h1.refused htake⟩
    refine ⟨?_, ?_, ?_⟩
    · intro pos flag d1 r d2 hreach hpos htake hacted
      by_contra hinvalid
      obtain ⟨d3, htake', hnot, -⟩ := hrefuses pos flag d1 hreach hpos hinvalid
      rw [htake] at htake'
      obtain ⟨-, rfl⟩ := EStateM.Result.ok.inj htake'
      exact hnot hacted
    · intro pos flag d1 hreach hpos hinvalid
      obtain ⟨d2, htake, -, hclear⟩ := hrefuses pos flag d1 hreach hpos hinvalid
      exact ⟨d2, decodeOption_eq_none.mpr htake, hclear⟩
    · intro hlong hfirst
      by_cases hvalid : HeaderValid (headerOf cfg packetBuffer)
      · exact ⟨_, decodeHeader_first_invalid htx hlong hvalid hfirst, refusing_clear⟩
      · exact ⟨_, decodeHeader_invalid htx hlong hvalid, refusing_clear⟩

/-- A frame of four bytes in a format that is not known, but with a size that does not fit it. -/
theorem validOnly_iff_wrong_size :
    let cfg := (Tunnel.smallestLZ4 (.inet 58023 #v[192, 0, 2, 1])).decoder fun _ => 0
    let datagram : PacketBuffer 1344 := .ofData 20 ((PacketEncoder.header 1 1).bytes .little ++
      (PacketHeaderOption.mk COMPLETE_PACKET 5 7 4 0 0).bytes ++ [10, 20, 30, 40]) (by decide)
    ∃ d0 : PacketDecoder (List (List UInt8)) 1344, Starts cfg (PacketBuffer.fresh 0 10) d0 ∧
      (ValidOnly cfg d0 datagram ↔ ∀ pos flag d1, Reaches cfg datagram d0 pos flag d1 →
        pos < datagram.dataSize → Unchecked pos (optionAt cfg datagram pos) →
        ¬Passes cfg datagram (optionAt cfg datagram pos) pos d1) := by
  intro cfg datagram
  obtain ⟨⟨⟩, d, hrun, -⟩ := Call.exists_of_okAnd (p := fun _ => true)
    (r := (Tunnel.smallestLZ4 (.inet 58023 #v[192, 0, 2, 1])).decoderRun (fun _ => 0) 10
      (PacketBuffer.fresh 0 10) []) (by decide +kernel)
  obtain ⟨d0, hstart, -⟩ := path_of_decoderRun hrun
  exact ⟨d0, hstart, validOnly_iff ⟨StreamCompressor.literals_decompressBounded _,
    StreamCompressor.literals_decompressBounded _⟩ hstart (.nil d0) datagram⟩

/-- **Options that are not valid** deliver frames: the first has a format that is not known, the second
a type with a bit that is not known and the reserved byte set. -/
theorem invalid_options_delivered :
    let cfg := (Tunnel.smallestLZ4 (.inet 58023 #v[192, 0, 2, 1])).decoder fun _ => 0
    let first := PacketHeaderOption.mk COMPLETE_PACKET 4 7 4 0 0
    let second := PacketHeaderOption.mk 0x07 2 NONE 2 1 9
    let datagram : PacketBuffer 1344 := .ofData 20 ((PacketEncoder.header 1 1).bytes .little ++
      first.bytes ++ [10, 20, 30, 40] ++ second.bytes ++ [50, 60]) (by decide)
    ¬first.Valid ∧ ¬second.Valid ∧
    ∃ d0 d : PacketDecoder (List (List UInt8)) 1344, Starts cfg (PacketBuffer.fresh 0 10) d0 ∧
      Decodes cfg d0 datagram d ∧ d.completedBy = [first, second] ∧ ¬ValidOnly cfg d0 datagram := by
  intro cfg first second datagram
  obtain ⟨⟨⟩, d, hrun, hby⟩ := Call.exists_of_okAnd
    (p := fun d : PacketDecoder (List (List UInt8)) 1344 => decide (d.completedBy = [first, second]))
    (r := (Tunnel.smallestLZ4 (.inet 58023 #v[192, 0, 2, 1])).decoderRun (fun _ => 0) 10
      (PacketBuffer.fresh 0 10) [datagram]) (by decide +kernel)
  obtain ⟨d0, hstart, hpath⟩ := path_of_decoderRun hrun
  obtain ⟨d1, hdecodes, hnil⟩ := StepPath.cons_iff.mp hpath
  obtain rfl := StepPath.nil_iff.mp hnil
  have hfirst : ¬first.Valid := fun h => absurd h.format (by decide)
  have hsecond : ¬second.Valid := fun h => absurd h.reserved (by decide)
  refine ⟨hfirst, hsecond, d0, d1, hstart, hdecodes, of_decide_eq_true hby, fun honly => ?_⟩
  have hoption : optionAt cfg datagram PacketHeader.size = first := by decide +kernel
  obtain ⟨tx, htx, -⟩ := hstart.sized.tx_buffer
  refine honly.fails hstart.sized ⟨StreamCompressor.literals_decompressBounded _,
    StreamCompressor.literals_decompressBounded _⟩ (.of_valid htx (by decide) (by decide +kernel)
      (by decide +kernel)) (by decide) (Or.inr (Or.inl (hoption ▸ by decide))) ?_
  rw [hoption]
  refine ⟨by decide, fun _ => ⟨rfl, by decide, ?_⟩, fun hne => absurd rfl hne⟩
  exact congrArg Nat.cast (PacketBuffer.slice_length (by decide))

end PacketDecoder
end SuperEthd
