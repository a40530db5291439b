import Mathlib.Data.List.GetD
import SuperEthd.DecoderSteps
import SuperEthd.Segmentation

/-! # The decoder follows streams of datagrams

A `PacketDecoder` that has read a stream up to a cursor holds the parts of the frame that is
open there, and its stream has the history that the encoder's had (`At`).  Every record that
may follow is then taken, and a frame that ends is delivered as it was (`decodeOption_follows`).
A decoder that holds nothing skips a record that goes on with a frame. -/
namespace SuperEthd
open PacketHeaderOptionType PacketHeaderOptionFormatType

variable {H : Type}

/-- What is relied on of the library; nothing for the format that does not call it. -/
def LosslessLib (T : Tunnel H) : Prop := T.packet_format ≠ NONE → T.lib.Lossless T.l2mtu T.B

/-- The frame that was encoded comes out again. -/
theorem EncodedFrame.Valid.decompress {T : Tunnel H} {f : EncodedFrame H} (hf : f.Valid T) (hlib : LosslessLib T)
    (hne : f.format ≠ NONE) : T.packet_format ≠ NONE ∧ f.format = T.packet_format ∧
      T.lib.decompress f.before f.bytes T.B = ⟨f.frame.length, f.frame, f.after⟩ := by
  rcases hf.encoded with ⟨h, -⟩ | ⟨hfmt, h, hpos, hbytes, hafter⟩
  · exact absurd h hne
  · refine ⟨hfmt, h, ?_⟩
    rw [hbytes, hafter]
    exact (hlib hfmt).decompress_compress _ _ hf.frame_le hpos

/-! ## Records on the wire -/

/-- The record stands behind `pre` in the datagram. -/
structure Stands {B : Nat} (packetBuffer : PacketBuffer B) (pre : List UInt8) (r : Record H) : Prop where
  data : ∃ post, packetBuffer.data = pre ++ r.bytes ++ post

namespace Stands
variable {B : Nat} {packetBuffer : PacketBuffer B} {pre : List UInt8} {r : Record H}

theorem size_le (h : Stands packetBuffer pre r) : pre.length + r.size ≤ packetBuffer.dataSize := by
  obtain ⟨post, h⟩ := h.data
  rw [← packetBuffer.data_length, h, List.length_append, List.length_append, Record.bytes_length]
  exact Nat.le_add_right _ _

/-- The decoder reads the option the encoder wrote. -/
theorem optionAt (h : Stands packetBuffer pre r) (cfg : DecoderConfig H)
    (hframe : r.of.frame.length < 65536) (hlen : r.length < 65536) :
    PacketDecoder.optionAt cfg packetBuffer pre.length = r.option := by
  have hsize := h.size_le
  obtain ⟨post, h⟩ := h.data
  refine PacketHeaderOption.read_bytes hframe hlen fun i hi => ?_
  have h8 : PacketHeaderOption.size = 8 := rfl
  rw [PacketBuffer.byteAt_of_lt (by rw [Record.size] at hsize; omega), h, List.append_assoc,
    List.getD_append_right _ _ _ _ (by omega), Nat.add_sub_cancel_left, List.getD_append _ _ _ _ (by
      rw [Record.bytes_length, Record.size]; omega), Record.bytes,
    List.getD_append _ _ _ _ (by rw [PacketHeaderOption.bytes_length]; omega)]

/-- The payload behind it. -/
theorem slice (h : Stands packetBuffer pre r) :
    packetBuffer.slice (pre.length + PacketHeaderOption.size) r.length = r.payload := by
  have hsize := h.size_le
  obtain ⟨post, h⟩ := h.data
  rw [Record.size] at hsize
  rw [PacketBuffer.slice_eq (by omega), h, Record.bytes, ← r.option.bytes_length, ← List.length_append,
    ← List.append_assoc, List.append_assoc (pre ++ r.option.bytes), List.drop_left,
    ← r.payload_length, List.take_left]

/-- The first of several records stands there. -/
theorem of_cons (rs : List (Record H))
    (hdata : packetBuffer.data = pre ++ (r :: rs).flatMap Record.bytes) :
    Stands packetBuffer pre r := by
  refine ⟨rs.flatMap Record.bytes, ?_⟩
  rw [hdata, List.flatMap_cons, List.append_assoc]

end Stands

/-- Whether there is a record is what the loop over the payloads tests. -/
theorem records_eq_nil_iff {B : Nat} {packetBuffer : PacketBuffer B} {pre : List UInt8} {rs : List (Record H)}
    (hdata : packetBuffer.data = pre ++ rs.flatMap Record.bytes) :
    rs = [] ↔ ¬pre.length < packetBuffer.dataSize := by
  rw [← packetBuffer.data_length, hdata, List.length_append]
  cases rs with
  | nil =>
    rw [List.flatMap_nil]
    exact iff_of_true rfl (Nat.lt_irrefl _)
  | cons r rs =>
    have hsize := r.bytes_length
    have h8 : PacketHeaderOption.size = 8 := rfl
    rw [Record.size] at hsize
    rw [List.flatMap_cons, List.length_append]
    exact iff_of_false (List.cons_ne_nil r rs) (by omega)

namespace PacketDecoder
variable {T : Tunnel H} {heap : Nat → UInt8} {d d' : PacketDecoder H T.B}
  {packetBuffer : PacketBuffer T.B}

/-! ## The state of a decoder in a stream -/

/-- The stream of the tunnel's format; for `NONE` it is never used. -/
def stream (T : Tunnel H) (d : PacketDecoder H T.B) : H :=
  if T.packet_format = COMPRESSED_ZSTD then d.compressorZSTD else d.compressorLZ4

/-- The decoder holds `part` parts of a frame, with the bytes `bytes`. -/
structure Holding (T : Tunnel H) (part : Nat) (format : PacketHeaderOptionFormatType) (size : Nat)
    (bytes : List UInt8) (history : H) (d : PacketDecoder H T.B) : Prop where
  last_part : d.last_part = UInt8.ofNat part
  same : 0 < part → d.last_format = format ∧ d.last_orig_packet_size = size
  tx_buffer : ∃ tx, d.tx_buffer = some tx ∧ tx.data = bytes
  dcomp_buffer : ∃ dc, d.dcomp_buffer = some dc
  stream : stream T d = history

/-- **The decoder has read the stream up to the cursor.** -/
def At (T : Tunnel H) : Cursor H → PacketDecoder H T.B → Prop
  | .between _ history => Holding T 0 NONE 0 [] history
  | .full f k off | .inside f k off =>
    Holding T k f.format f.frame.length (f.bytes.take off) f.before

/-- The decoder holds nothing. -/
abbrev Blank (T : Tunnel H) : PacketDecoder H T.B → Prop := Holding T 0 NONE 0 [] T.lib.reset

/-- What a call leaves alone, and the frames delivered so far. -/
structure Delivered (T : Tunnel H) (sequence : UInt32) (fs : List (List UInt8))
    (d : PacketDecoder H T.B) : Prop where
  first_packet : d.first_packet = false
  last_sequence : d.last_sequence = sequence
  frames : d.tx_buffer_pool.pool.map PacketBuffer.data = fs

theorem stream_reset (heap : Nat → UInt8) (d : PacketDecoder H T.B) :
    stream T (resetStreams (T.decoder heap) d) = T.lib.reset := by
  rw [stream, Tunnel.lib]
  split <;> rfl

theorem blank_of_cleared (htx : d.tx_buffer.isSome) (hdc : ∃ dc, d.dcomp_buffer = some dc) :
    Blank T (d.cleared.flushed (T.decoder heap)) := by
  obtain ⟨tx, htx⟩ := Option.isSome_iff_exists.mp htx
  exact ⟨rfl, fun h => absurd h (Nat.lt_irrefl 0),
    ⟨tx.clear, congrArg (Option.map PacketBuffer.clear) htx, rfl⟩, hdc, stream_reset heap _⟩

/-! ## Decompression -/

/-- The two states differ in the streams and in what records their use. -/
structure SameBuffers (d d' : PacketDecoder H T.B) : Prop where
  first_packet : d'.first_packet = d.first_packet
  last_sequence : d'.last_sequence = d.last_sequence
  tx_buffer : d'.tx_buffer = d.tx_buffer
  dcomp_buffer : d'.dcomp_buffer = d.dcomp_buffer
  tx_buffer_pool : d'.tx_buffer_pool = d.tx_buffer_pool

variable {E : Stop → PacketDecoder H T.B → Prop}

/-- **`decompress`** under the history that its input was compressed under. -/
theorem decompress_follows {input x : List UInt8} {after : H} {output : PacketBuffer T.B}
    (hne : T.packet_format ≠ NONE)
    (hdec : T.lib.decompress (stream T d) input T.B = ⟨x.length, x, after⟩) (hx : x.length ≤ T.B) :
    Call.Meets (· = d) (decompress (T.decoder heap) packetBuffer T.packet_format input output)
      (fun r d' => r.1 = x.length ∧ (∃ out, r.2.setDataSize x.length = .ok out ∧ out.data = x) ∧
        SameBuffers d d' ∧ stream T d' = after) E := by
  obtain ⟨out, h1, h2, -, -⟩ := PacketBuffer.writeAt_ok output 0 x (by omega)
  obtain ⟨out', h3, h4, -, h5⟩ := PacketBuffer.setDataSize_ok out hx
  have hdata : out'.data = x := by
    have := take_overlay output.content 0 x (by rw [output.content_length]; omega)
    rw [Nat.zero_add, List.take_zero, List.nil_append] at this
    rw [PacketBuffer.data, h4, h2, h5, this]
  refine .bind_returns (t := d) rfl ?_
  rcases T.known.resolve_left hne with hf | hf
  · have hnz : T.packet_format ≠ COMPRESSED_ZSTD := by rw [hf]; decide
    rw [Tunnel.lib, if_neg hnz, stream, if_neg hnz] at hdec
    simp only [if_pos hf, Tunnel.decoder, PacketBuffer.getBufferSize_eq, hdec, h1]
    refine .bind_returns rfl (.bind_set (.returns rfl ?_))
    exact ⟨rfl, ⟨out', h3, hdata⟩, ⟨rfl, rfl, rfl, rfl, rfl⟩, by rw [stream, if_neg hnz]⟩
  · have hnl : T.packet_format ≠ COMPRESSED_LZ4 := by rw [hf]; decide
    rw [Tunnel.lib, if_pos hf, stream, if_pos hf] at hdec
    simp only [if_neg hnl, Tunnel.decoder, PacketBuffer.getBufferSize_eq, hdec, h1]
    refine .bind_returns rfl (.bind_set (.returns rfl ?_))
    exact ⟨rfl, ⟨out', h3, hdata⟩, ⟨rfl, rfl, rfl, rfl, rfl⟩, by rw [stream, if_pos hf]⟩

/-- An option of the frame is compressed if the frame is. -/
theorem formatIsCompressed_eq {f : EncodedFrame H} (hf : f.Valid T) {r : Record H} (hr : r.of = f) :
    r.option.formatIsCompressed = true ↔ f.format ≠ NONE := by
  have hopt : r.option.format = f.format := by rw [← hr]; rfl
  rw [PacketHeaderOption.formatIsCompressed, hopt]
  rcases hf.encoded with ⟨h, -⟩ | ⟨hne, h, -⟩
  · rw [h]
    decide
  · rw [h]
    rcases T.known.resolve_left hne with h' | h' <;> rw [h'] <;> decide

/-! ## Frames that end -/

/-- `tx_buffer` holds a whole frame. -/
structure Filled (T : Tunnel H) (sequence : UInt32) (fs : List (List UInt8)) (frame : List UInt8)
    (history : H) (d : PacketDecoder H T.B) : Prop extends Delivered T sequence fs d where
  tx_buffer : ∃ tx, d.tx_buffer = some tx ∧ tx.data = frame
  dcomp_buffer : ∃ dc, d.dcomp_buffer = some dc
  stream : stream T d = history

/-- The frame has been pushed. -/
structure Pushed (T : Tunnel H) (sequence : UInt32) (fs : List (List UInt8)) (history : H)
    (d : PacketDecoder H T.B) : Prop extends Delivered T sequence fs d where
  dcomp_buffer : ∃ dc, d.dcomp_buffer = some dc
  stream : PacketDecoder.stream T d = history

variable {sequence : UInt32} {fs : List (List UInt8)} {frame : List UInt8} {history : H}
  {f : EncodedFrame H} {r : Record H} {pre : List UInt8} {flag : Bool}

variable (packetBuffer) in
theorem deliver_follows (option : PacketHeaderOption) (h : Filled T sequence fs frame history d)
    (hsize : option.packet_size = frame.length) :
    ∃ d', (deliver packetBuffer option).run d = .ok true d' ∧
      Pushed T sequence (fs ++ [frame]) history d' := by
  obtain ⟨tx, htx, hdata⟩ := h.tx_buffer
  have hsz : tx.dataSize = option.packet_size := by rw [hsize, ← hdata, tx.data_length]
  refine ⟨_, (deliver_run htx).trans (if_pos hsz), ⟨h.first_packet, h.last_sequence, ?_⟩,
    h.dcomp_buffer, h.stream⟩
  simp only [pushed, List.map_append, List.map_singleton, h.frames]
  exact congrArg (fs ++ [·]) hdata

/-- `refill` waits, or leaves the decoder with an empty `tx_buffer`. -/
theorem refill_follows (assembled : Bool) :
    Call.Meets (Pushed T sequence fs history) (refill (T.decoder heap) assembled)
      (fun _ d => Delivered T sequence fs d ∧
        Holding T 0 NONE 0 [] (if assembled then T.lib.reset else history) d)
      (fun x _ => x = .blocked) := by
  intro d h
  rcases refill_run (T.decoder heap) assembled d with hb | ⟨b, rest, -, hrun⟩
  · rw [hb]
  · rw [hrun]
    cases assembled with
    | true =>
      exact ⟨⟨h.first_packet, h.last_sequence, h.frames⟩, rfl, fun h0 => absurd h0 (Nat.lt_irrefl 0),
        ⟨b.clear, rfl, rfl⟩, h.dcomp_buffer, stream_reset heap _⟩
    | false =>
      exact ⟨⟨h.first_packet, h.last_sequence, h.frames⟩, rfl, fun h0 => absurd h0 (Nat.lt_irrefl 0),
        ⟨b.clear, rfl, rfl⟩, h.dcomp_buffer, h.stream⟩

/-- A frame whose options are not compressed is carried as it is. -/
theorem EncodedFrame.plain_of_option (hf : f.Valid T) (hr : r.of = f)
    (hc : ¬r.option.formatIsCompressed = true) : f.bytes = f.frame ∧ f.after = f.before := by
  rcases hf.encoded with ⟨-, h1, h2⟩ | ⟨hne, h1, -⟩
  · exact ⟨h1, h2⟩
  · exact absurd ((formatIsCompressed_eq hf hr).mpr (h1 ▸ hne)) hc

/-- `fillComplete` of a whole frame. -/
theorem fillComplete_follows (hf : f.Valid T) (hlib : LosslessLib T)
    (h : Holding T 0 NONE 0 [] f.before d) (hd : Delivered T sequence fs d)
    (hs : Stands packetBuffer pre (.whole f)) :
    Call.Meets (· = d) (fillComplete (T.decoder heap) packetBuffer (Record.whole f).option
        (pre.length + PacketHeaderOption.size))
      (fun filled d' => filled = true ∧ Filled T sequence fs f.frame f.after d') E := by
  obtain ⟨tx, htx, hdata⟩ := h.tx_buffer
  refine .bind_returns (t := d) rfl ?_
  rw [htx]
  refine .bind_returns (deref_some tx d) ?_
  have hslice : packetBuffer.slice (pre.length + PacketHeaderOption.size)
      (Record.whole f).option.payload_length = f.bytes :=
    hs.slice.trans (Record.payload_whole f)
  rw [hslice]
  refine .ite (fun hc => ?_) fun hc => ?_
  · obtain ⟨hne, hformat, hdec⟩ := hf.decompress hlib ((formatIsCompressed_eq hf rfl).mp hc)
    have hopt : (Record.whole f).option.format = T.packet_format := hformat
    rw [hopt]
    rw [← h.stream] at hdec
    refine (decompress_follows hne hdec (hf.frame_le.trans T.size_bounds.2.2.1)).bind ?_
    rintro ⟨n, out⟩ d' ⟨hn, ⟨out', hset, hout⟩, hsame, hstream⟩
    obtain rfl : n = f.frame.length := hn
    have hn : ¬(f.frame.length : Int) < 0 := by omega
    simp only [EStateM.run_bind, EStateM.run_modify, if_neg hn, Int.toNat_natCast, hset,
      Call.run_ofExcept_ok, EStateM.run_pure]
    exact ⟨trivial, ⟨hsame.first_packet.trans hd.1, hsame.last_sequence.trans hd.2,
      hsame.tx_buffer_pool ▸ hd.3⟩, ⟨out', rfl, hout⟩, hsame.dcomp_buffer ▸ h.dcomp_buffer, hstream⟩
  · have hplain := EncodedFrame.plain_of_option hf rfl hc
    have hds : tx.dataSize = 0 := PacketBuffer.data_eq_nil.mp hdata
    have hbytes := hf.bytes_le
    obtain ⟨tx', happ, hdata', -, -⟩ := PacketBuffer.append_ok tx f.bytes (by omega)
    rw [happ]
    refine .bind_returns rfl (.bind_returns rfl (.returns rfl ⟨rfl, ⟨hd.1, hd.2, hd.3⟩,
      ⟨tx', rfl, ?_⟩, h.dcomp_buffer, ?_⟩))
    · rw [hdata', hdata, List.nil_append, hplain.1]
    · rw [hplain.2]
      exact h.stream

/-- The position behind a record. -/
theorem nextPos_option (hs : Stands packetBuffer pre r) :
    nextPos r.option pre.length = pre.length + r.size := by
  have h1 := hs.size_le
  have h2 := packetBuffer.dataSize_le
  have h3 := T.size_bounds
  have h4 : r.option.payload_length = r.length := rfl
  rw [nextPos, h4, Record.size]
  rw [Record.size] at h1
  omega

/-- The size in the option of a record passes the check. -/
theorem packet_size_le (hf : r.of.Valid T) (heap : Nat → UInt8) :
    ¬r.option.packet_size > (T.decoder heap).l2mtu :=
  Nat.not_lt.mpr hf.frame_le

/-- The positions in a datagram are far from the width of `uint16_t`. -/
theorem packet_pos_eq (hs : Stands packetBuffer pre r) :
    (pre.length + PacketHeaderOption.size) % 65536 = pre.length + PacketHeaderOption.size ∧
      ¬pre.length + PacketHeaderOption.size + r.length > packetBuffer.dataSize := by
  have hsize := hs.size_le
  have hdata := packetBuffer.dataSize_le
  have hbounds := T.size_bounds
  rw [Record.size] at hsize
  omega

/-- The option of a record of the stream, as the decoder reads it. -/
theorem optionAt_eq (hf : r.of.Valid T) (hs : Stands packetBuffer pre r) (heap : Nat → UInt8) :
    optionAt (T.decoder heap) packetBuffer pre.length = r.option := by
  have hbounds := T.size_bounds
  have hframe := hf.frame_le
  have hbytes := hf.bytes_le
  have hfits := r.fits
  exact hs.optionAt _ (by omega) (by omega)

/-- **A record with a whole frame**: the frame is pushed. -/
theorem takeOption_whole (hf : f.Valid T) (hlib : LosslessLib T)
    (h : Holding T 0 NONE 0 [] f.before d) (hd : Delivered T sequence fs d)
    (hs : Stands packetBuffer pre (.whole f)) :
    Call.Meets (· = d) (takeOption (T.decoder heap) packetBuffer pre.length flag)
      (fun p d' => p = .delivered false (pre.length + (Record.whole f).size) ∧
        Pushed T sequence (fs ++ [f.frame]) f.after d') E := by
  obtain ⟨hpos, hfit⟩ := packet_pos_eq hs
  have hlen : (Record.whole f).option.payload_length = (Record.whole f).length := rfl
  simp only [takeOption, optionAt_eq (r := .whole f) hf hs,
    if_neg (packet_size_le (r := .whole f) hf heap)]
  rw [if_pos (show (Record.whole f).option.type = COMPLETE_PACKET from rfl)]
  have hlast : ¬d.last_part ≠ 0 := not_not.mpr h.last_part
  have hpart : ¬(Record.whole f).option.part ≠ 0 := not_not.mpr rfl
  refine .bind_returns (t := d) rfl ?_
  simp only [if_neg hlast, if_neg hpart, hpos, hlen, if_neg hfit]
  refine (fillComplete_follows hf hlib h hd hs).bind fun filled => ?_
  rintro d1 ⟨rfl, h1⟩
  obtain ⟨d2, hrun, h2⟩ := deliver_follows packetBuffer (Record.whole f).option h1 rfl
  simp only [Bool.not_true, Bool.false_eq_true, if_false, EStateM.run_bind, hrun, EStateM.run_pure,
    nextPos_option hs]
  exact ⟨trivial, h2⟩

/-- `finishPartial` of the parts of a frame. -/
theorem finishPartial_follows (hf : f.Valid T) (hlib : LosslessLib T) (hr : r.of = f)
    (h : Filled T sequence fs f.bytes f.before d) :
    Call.Meets (· = d) (finishPartial (T.decoder heap) packetBuffer r.option)
      (fun filled d' => filled = true ∧ Filled T sequence fs f.frame f.after d') E := by
  obtain ⟨tx, htx, hdata⟩ := h.tx_buffer
  obtain ⟨dc, hdc⟩ := h.dcomp_buffer
  refine .ite (fun hc => ?_) fun hc => ?_
  · obtain ⟨hne, hformat, hdec⟩ := hf.decompress hlib ((formatIsCompressed_eq hf hr).mp hc)
    have hopt : r.option.format = T.packet_format := by rw [← hformat, ← hr]; rfl
    refine .bind_returns (t := d) rfl ?_
    rw [htx, hdc]
    refine .bind_returns (deref_some tx d) (.bind_returns (deref_some dc d) ?_)
    rw [hopt, hdata]
    rw [← h.stream] at hdec
    refine (decompress_follows hne hdec (hf.frame_le.trans T.size_bounds.2.2.1)).bind ?_
    rintro ⟨n, out⟩ d' ⟨hn, ⟨out', hset, hout⟩, hsame, hstream⟩
    obtain rfl : n = f.frame.length := hn
    have hn : ¬(f.frame.length : Int) < 0 := by omega
    simp only [EStateM.run_bind, EStateM.run_modify, if_neg hn, Int.toNat_natCast, hset,
      Call.run_ofExcept_ok, EStateM.run_pure]
    exact ⟨trivial, ⟨hsame.first_packet.trans h.1.1, hsame.last_sequence.trans h.1.2,
      hsame.tx_buffer_pool ▸ h.1.3⟩, ⟨out', rfl, hout⟩, ⟨tx, hsame.tx_buffer.trans htx⟩, hstream⟩
  · obtain ⟨hbytes, hafter⟩ := EncodedFrame.plain_of_option hf hr hc
    rw [hbytes, ← hafter] at h
    exact .returns rfl ⟨rfl, h⟩

/-- The type of the option of a part. -/
theorem option_type_of_part (hpart : r.part ≠ 0) : r.option.type ≠ COMPLETE_PACKET ∧
    r.option.typeIsPartial = true ∧ r.option.typeIsComplete = r.finishes := by
  have htype : r.option.type = if r.finishes then PARTIAL_PACKET ||| COMPLETE_PACKET
      else PARTIAL_PACKET := if_neg hpart
  rw [PacketHeaderOption.typeIsPartial, PacketHeaderOption.typeIsComplete, htype]
  cases r.finishes <;> decide

theorem option_part_toNat {k : Nat} (hpart : r.part = k + 1) (hk : k < 255) :
    r.option.part.toNat = k + 1 := by
  rw [show r.option.part = UInt8.ofNat r.part from rfl, hpart, UInt8.toNat_ofNat']
  exact Nat.mod_eq_of_lt (by omega)

/-- The part behind those the decoder holds can be used. -/
theorem Holding.usable {k : Nat} {bytes : List UInt8} (hpart : r.part = k + 1) (hk : k < 255)
    (h : Holding T k r.of.format r.of.frame.length bytes history d) :
    unusable d r.option = false := by
  have hlast : d.last_part.toNat = k := by
    rw [h.last_part, UInt8.toNat_ofNat']
    exact Nat.mod_eq_of_lt (by omega)
  have hpart' : r.option.part.toNat = d.last_part.toNat + 1 := by
    rw [option_part_toNat hpart hk, hlast]
  rw [unusable, Bool.or_eq_false_iff, Bool.or_eq_false_iff, Bool.or_eq_false_iff]
  rcases Nat.eq_zero_or_pos k with rfl | hk0
  · have h0 : (d.last_part != 0) = false := bne_eq_false_iff_eq.mpr h.last_part
    simp only [h0, Bool.and_false, Bool.false_and, hpart', bne_self_eq_false, and_self]
  · obtain ⟨hformat, hsz⟩ := h.same hk0
    have h1 : (r.option.part == 1) = false := beq_false_of_ne fun h1 => by
      rw [h1, hlast] at hpart'
      simp only [UInt8.reduceToNat] at hpart'
      omega
    have hsz' : r.option.packet_size = d.last_orig_packet_size := hsz.symm
    have hformat' : d.last_format = r.option.format := hformat
    simp only [h1, Bool.false_and, hpart', bne_self_eq_false, hsz', hformat', Bool.and_false,
      and_self]

/-- **A record with a part** that is expected: it is kept, or it ends the frame, which is pushed. -/
theorem takeOption_part {k : Nat} (hf : r.of.Valid T) (hlib : LosslessLib T) (hpart : r.part = k + 1)
    (hk : k < 255) (h : Holding T k r.of.format r.of.frame.length (r.of.bytes.take r.offset)
      r.of.before d) (hd : Delivered T sequence fs d) (hs : Stands packetBuffer pre r) :
    Call.Meets (· = d) (takeOption (T.decoder heap) packetBuffer pre.length flag)
      (fun p d' => r.finishes = true ∧ p = .delivered true (pre.length + r.size) ∧
          Pushed T sequence (fs ++ [r.of.frame]) r.of.after d' ∨
        r.finishes = false ∧ p = .onto (pre.length + r.size) false ∧ Delivered T sequence fs d' ∧
          Holding T (k + 1) r.of.format r.of.frame.length (r.of.bytes.take (r.offset + r.length))
            r.of.before d') E := by
  have hbytes := hf.bytes_le
  have hfits := r.fits
  obtain ⟨hpos, hfit⟩ := packet_pos_eq hs
  obtain ⟨htype1, htype2, htype3⟩ := option_type_of_part (r := r) (by omega)
  obtain ⟨tx, htx, htxdata⟩ := h.tx_buffer
  have htxsize : tx.dataSize = r.offset := by
    rw [← tx.data_length, htxdata, List.length_take]
    omega
  have hlen : r.option.payload_length = r.length := rfl
  have hroom : ¬tx.dataSize + r.length > T.B := by omega
  -- a frame that is not compressed is as long as its records say
  have hsmall : ¬((!r.option.formatIsCompressed) = true ∧
      tx.dataSize + r.length > r.option.packet_size) := by
    rintro ⟨hc, hgt⟩
    obtain ⟨hplain, -⟩ := EncodedFrame.plain_of_option hf rfl (by simpa using hc)
    have : r.option.packet_size = r.of.bytes.length := by rw [hplain]; rfl
    omega
  obtain ⟨tx1, happ, hdata1, -, -⟩ := PacketBuffer.append_ok tx r.payload (by rw [r.payload_length]; omega)
  have htake : tx1.data = r.of.bytes.take (r.offset + r.length) := by
    rw [hdata1, htxdata, Record.payload, List.take_add]
  simp only [takeOption, optionAt_eq hf hs, if_neg (packet_size_le hf heap), if_neg htype1,
    if_pos htype2]
  refine .bind_returns (t := d) rfl ?_
  simp only [h.usable hpart hk, Bool.false_eq_true, if_false, hpos, hlen, if_neg hfit, htx]
  refine .bind_returns (deref_some tx d) ?_
  simp only [PacketBuffer.getBufferSize_eq, if_neg hroom, if_neg hsmall, hs.slice, happ]
  refine .bind_returns rfl (.bind_set ?_)
  rw [htype3]
  cases hfin : r.finishes with
  | false =>
    simp only [Bool.false_eq_true, if_false]
    refine .bind_returns rfl (.returns rfl (Or.inr ⟨trivial, ?_, ⟨hd.1, hd.2, hd.3⟩, ?_⟩))
    · rw [nextPos_option hs]
    · refine ⟨?_, fun _ => ⟨rfl, rfl⟩, ⟨tx1, rfl, htake⟩, h.dcomp_buffer, h.stream⟩
      rw [← hpart]
      rfl
  | true =>
    have hall : tx1.data = r.of.bytes := by
      rw [Record.finishes, beq_iff_eq] at hfin
      rw [htake, hfin, List.take_length]
    simp only [if_true]
    refine (finishPartial_follows (d := { d with tx_buffer := some tx1, accepted := _ }) (r := r) hf
      hlib rfl ⟨⟨hd.1, hd.2, hd.3⟩, ⟨tx1, rfl, hall⟩, h.dcomp_buffer, h.stream⟩).bind fun filled => ?_
    rintro d1 ⟨rfl, h1⟩
    obtain ⟨d2, hrun, h2⟩ := deliver_follows packetBuffer r.option h1 rfl
    simp only [Bool.not_true, Bool.false_eq_true, if_false, EStateM.run_bind, hrun, EStateM.run_pure,
      nextPos_option hs]
    exact Or.inl ⟨trivial, trivial, h2⟩

/-- **A record that goes on with a frame** of which the decoder holds nothing is skipped. -/
theorem takeOption_skip {k : Nat} (hf : r.of.Valid T) (hpart : r.part = k + 1) (hk0 : 0 < k)
    (hk : k < 255) (h : Blank T d) (hd : Delivered T sequence fs d) (hs : Stands packetBuffer pre r) :
    Call.Meets (· = d) (takeOption (T.decoder heap) packetBuffer pre.length flag)
      (fun p d' => p = .onto (pre.length + r.size) false ∧ Delivered T sequence fs d' ∧ Blank T d')
      E := by
  obtain ⟨htype1, htype2, -⟩ := option_type_of_part (r := r) (by omega)
  have hun : unusable d r.option = true := by
    have hne : (r.option.part.toNat != d.last_part.toNat + 1) = true := by
      have h0 : d.last_part.toNat = 0 := by rw [h.last_part]; rfl
      rw [option_part_toNat hpart hk, h0, bne_iff_ne]
      omega
    rw [unusable, hne, Bool.or_true, Bool.true_or, Bool.true_or]
  obtain ⟨tx, htx, -⟩ := h.tx_buffer
  simp only [takeOption, optionAt_eq hf hs, if_neg (packet_size_le hf heap), if_neg htype1,
    if_pos htype2]
  refine .bind_returns (t := d) rfl ?_
  simp only [hun, if_true]
  refine .bind_returns (clearAndFlush_run htx) (.returns rfl ⟨?_, ⟨hd.1, hd.2, hd.3⟩,
    blank_of_cleared (htx ▸ rfl) h.dcomp_buffer⟩)
  rw [nextPos_option hs]

/-! ## Records one after the other -/

variable {c c' : Cursor H} {rs : List (Record H)} {fuel : Nat}

/-- Whether the inflight buffers are flushed at the end of a datagram, and with them the stream: as
long as parts are held it is not, and else the stream has been reset or it is. -/
def Flagged (T : Tunnel H) (flag : Bool) : Cursor H → Prop
  | .between _ history => flag = false → history = T.lib.reset
  | .full _ _ _ => flag = false
  | .inside _ _ _ => False

/-- **A record of the stream** is taken, and what ends in it is delivered. -/
theorem decodeOption_follows (hlib : LosslessLib T) (hr : Follows T c r c') (h : At T c d)
    (hd : Delivered T sequence fs d) (hs : Stands packetBuffer pre r) :
    Call.Meets (· = d) (decodeOption (T.decoder heap) packetBuffer pre.length flag)
      (fun p d' => ∃ flag', p = some (pre.length + r.size, flag') ∧ Flagged T flag' c' ∧ At T c' d' ∧
        Delivered T sequence (fs ++ (finished [r]).map EncodedFrame.frame) d')
      (fun x _ => x = .blocked) := by
  cases hr with
  | @whole f hf =>
    rw [finished_cons_of_finishes _ (Record.finishes_whole f)]
    refine (takeOption_whole hf hlib h hd hs).bind fun p => ?_
    rintro d1 ⟨rfl, h1⟩
    refine ((refill_follows false).bind fun _ d2 h => ?_ : Call.Meets _ _ _ _) d1 h1
    obtain ⟨hd2, h2⟩ := h
    exact ⟨true, rfl, Bool.noConfusion, h2, hd2⟩
  | @first f len fits hf h0 hlt =>
    have hfin : Record.finishes (Record.mk f 1 0 len fits) = false := by
      simp [Record.finishes]
      omega
    rw [finished_cons_of_not _ hfin, finished_nil, List.map_nil, List.append_nil]
    have hstart : Holding T 0 f.format f.frame.length (f.bytes.take 0) f.before d :=
      ⟨h.last_part, fun h0 => absurd h0 (Nat.lt_irrefl 0), h.tx_buffer, h.dcomp_buffer, h.stream⟩
    refine (takeOption_part (r := ⟨f, 1, 0, len, fits⟩) hf hlib rfl (by omega) hstart hd hs).bind
      fun p => ?_
    rintro d1 (⟨hfin', -⟩ | ⟨-, rfl, hd1, h1⟩)
    · exact Bool.noConfusion (hfin.symm.trans hfin')
    · exact ⟨false, rfl, rfl, by simpa only [At, Nat.zero_add] using h1, hd1⟩
  | @next f k off len fits hf hk hk' h0 hlt =>
    have hfin : Record.finishes (Record.mk f (k + 1) off len fits) = false := by
      simp [Record.finishes]
      omega
    rw [finished_cons_of_not _ hfin, finished_nil, List.map_nil, List.append_nil]
    refine (takeOption_part (r := ⟨f, k + 1, off, len, fits⟩) hf hlib rfl hk' h hd hs).bind
      fun p => ?_
    rintro d1 (⟨hfin', -⟩ | ⟨-, rfl, hd1, h1⟩)
    · exact Bool.noConfusion (hfin.symm.trans hfin')
    · exact ⟨false, rfl, rfl, h1, hd1⟩
  | @last f k off len fits hf hk hk' h0 hend =>
    have hfin : Record.finishes (Record.mk f (k + 1) off len fits) = true := by
      simp [Record.finishes]
      omega
    rw [finished_cons_of_finishes _ hfin]
    refine (takeOption_part (r := ⟨f, k + 1, off, len, fits⟩) hf hlib rfl hk' h hd hs).bind
      fun p => ?_
    rintro d1 (⟨-, rfl, h1⟩ | ⟨hfin', -⟩)
    · refine ((refill_follows true).bind fun _ d2 h => ?_ : Call.Meets _ _ _ _) d1 h1
      obtain ⟨hd2, h2⟩ := h
      exact ⟨false, rfl, fun _ => rfl, h2, hd2⟩
    · exact Bool.noConfusion (hfin.symm.trans hfin')

variable (heap flag fuel) in
/-- **The records of a datagram** are taken one after the other. -/
theorem optionLoop_follows (hlib : LosslessLib T) (hpath : StepPath (Follows T) c rs c') (h : At T c d)
    (hd : Delivered T sequence fs d) (hdata : packetBuffer.data = pre ++ rs.flatMap Record.bytes)
    (hfuel : rs.length ≤ fuel) (hflag : rs = [] → Flagged T flag c) :
    Call.Meets (· = d) (optionLoop (T.decoder heap) packetBuffer fuel pre.length flag)
      (fun p d' => ∃ flag', p = some flag' ∧ Flagged T flag' c' ∧ At T c' d' ∧
        Delivered T sequence (fs ++ (finished rs).map EncodedFrame.frame) d')
      (fun x _ => x = .blocked) := by
  -- on the records still to take: those taken are in `pre`, and their flag is `Flagged`
  induction hpath generalizing d fs pre fuel flag with
  | nil c =>
    have hend : ¬pre.length < packetBuffer.dataSize := by
      rw [← packetBuffer.data_length, hdata, List.flatMap_nil, List.append_nil]
      exact Nat.lt_irrefl _
    rw [finished_nil, List.map_nil, List.append_nil]
    unfold optionLoop
    rw [if_neg hend]
    exact .returns rfl ⟨flag, rfl, hflag rfl, h, hd⟩
  | @cons c c1 c' r rs hr _ ih =>
    have hs := Stands.of_cons rs hdata
    have hlt : pre.length < packetBuffer.dataSize := by
      have := hs.size_le
      rw [Record.size] at this
      have h8 : PacketHeaderOption.size = 8 := rfl
      omega
    obtain ⟨fuel, rfl⟩ : ∃ n, fuel = n + 1 := ⟨fuel - 1, by rw [List.length_cons] at hfuel; omega⟩
    unfold optionLoop
    rw [if_pos hlt]
    refine (decodeOption_follows hlib hr h hd hs).bind fun p => ?_
    rintro d1 ⟨flag1, rfl, hflag1, h1, hd1⟩
    have hpos : pre.length + r.size = (pre ++ r.bytes).length := by
      rw [List.length_append, r.bytes_length]
    have hdata' : packetBuffer.data = pre ++ r.bytes ++ rs.flatMap Record.bytes := by
      rw [hdata, List.flatMap_cons, List.append_assoc]
    have h2 := ih flag1 fuel h1 hd1 hdata' (by rw [List.length_cons] at hfuel; omega)
      (fun _ => hflag1) d1 rfl
    rw [← hpos] at h2
    rw [show finished (r :: rs) = finished [r] ++ finished rs from finished_append [r] rs,
      List.map_append, ← List.append_assoc]
    exact h2

end PacketDecoder
end SuperEthd
