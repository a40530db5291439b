import SuperEthd.EncoderRuns
import SuperEthd.Ownership

/-! # When the compressor fails

The interface of a stream compressor allows a length, 0 and a negative error code, and `encode`
falls back to the uncompressed packet for 0 only.  Nothing is assumed here of the histories: what
`encode` writes is followed along the encoder's own bytes (`wire`), whatever the compressor
gave before. -/
namespace SuperEthd
open PacketHeaderOptionType PacketHeaderOptionFormatType

variable {H : Type} {B : Nat}

/-- On inputs of at most `m` bytes and with `n` bytes of output, `compress` stays within the output,
and gives the length of what it wrote or, for a failure, 0 or a negative `int`. -/
structure StreamCompressor.WithinOutput (C : StreamCompressor H) (m n : Nat) : Prop where
  output_le : ∀ h x, x.length ≤ m → (C.compress h x n).output.length ≤ n
  result_eq : ∀ h x, x.length ≤ m →
    -2147483648 ≤ (C.compress h x n).result ∧ (C.compress h x n).result ≤ 0 ∨
      0 < (C.compress h x n).result ∧
        (C.compress h x n).result = (C.compress h x n).output.length

theorem StreamCompressor.CompressBounded.within {C : StreamCompressor H} {m n : Nat}
    (h : C.CompressBounded m n) : C.WithinOutput m n := by
  refine ⟨h.output_le, fun history x hx => ?_⟩
  rcases h.result_eq history x hx with ⟨h0, -⟩ | hpos
  · exact Or.inl ⟨by omega, by omega⟩
  · exact Or.inr hpos

namespace PacketEncoder
variable {T : Tunnel H} {e e' : PacketEncoder H T.B} {tx tx' raw : PacketBuffer T.B}
  {rs rs' : List (Record H)} {f : EncodedFrame H}

/-! ## What is carried once -/

/-- The records carry the rest of a frame behind its first `k` parts, of `off` bytes: numbered and
laid end to end, up to the end of its bytes. -/
inductive PartsFrom (f : EncodedFrame H) : Nat → Nat → List (Record H) → Prop
  | done (k : Nat) : PartsFrom f k f.bytes.length []
  | part {k off len : Nat} {rs : List (Record H)} (fits : off + len ≤ f.bytes.length) : k < 255 →
      0 < len → PartsFrom f (k + 1) (off + len) rs →
      PartsFrom f k off (⟨f, k + 1, off, len, fits⟩ :: rs)

/-- The records carry the frame once: whole, or in parts. -/
def CarriesOnce (f : EncodedFrame H) (rs : List (Record H)) : Prop :=
  rs = [.whole f] ∨ rs ≠ [] ∧ PartsFrom f 0 0 rs

/-- The payloads of the parts are the bytes that are left. -/
theorem PartsFrom.payloads {k off : Nat} (h : PartsFrom f k off rs) :
    rs.flatMap Record.payload = f.bytes.drop off := by
  induction h with
  | done => rw [List.flatMap_nil, List.drop_length]
  | @part k off len rs fits _ _ _ ih =>
    rw [List.flatMap_cons, ih, Record.payload, ← List.drop_drop, List.take_append_drop]

/-- **What is carried once** is carried to the byte. -/
theorem CarriesOnce.payloads (h : CarriesOnce f rs) : rs.flatMap Record.payload = f.bytes := by
  rcases h with rfl | ⟨-, h⟩
  · rw [List.flatMap_singleton, Record.payload_whole]
  · exact h.payloads

/-! ## The bytes on the wire -/

/-- What the encoder wrote and has not discarded: the records of the datagrams in the TX pool, then
those in `tx_buffer`. -/
def wire (e : PacketEncoder H B) : List UInt8 :=
  (e.tx_buffer_pool.pool ++ e.tx_buffer.toList).flatMap fun b => b.data.drop PacketHeader.size

/-- The second state is the first after the records were written. -/
structure Wrote (T : Tunnel H) (rs : List (Record H)) (e e' : PacketEncoder H T.B) : Prop where
  wire : wire e' = wire e ++ rs.flatMap Record.bytes
  packet_format : e'.packet_format = e.packet_format
  lib : e'.compressor.map CompressionStream.lib = e.compressor.map CompressionStream.lib

theorem Wrote.trans {e1 e2 e3 : PacketEncoder H T.B} (h1 : Wrote T rs e1 e2)
    (h2 : Wrote T rs' e2 e3) : Wrote T (rs ++ rs') e1 e3 := by
  refine ⟨?_, h2.packet_format.trans h1.packet_format, h2.lib.trans h1.lib⟩
  rw [h2.wire, h1.wire, List.flatMap_append, List.append_assoc]

/-- Laying a record down. -/
theorem wrote_withOption {r : Record H} (htx : e.tx_buffer = some tx)
    (h8 : PacketHeader.size ≤ tx.dataSize) (hdata : tx'.data = tx.data ++ r.bytes) :
    Wrote T [r] e (e.withOption tx') := by
  refine ⟨?_, rfl, rfl⟩
  simp only [PacketEncoder.wire, withOption, htx, Option.toList_some, List.flatMap_append,
    List.flatMap_singleton, hdata]
  rw [List.drop_append_of_le_length (by rw [tx.data_length]; exact h8), List.append_assoc]

/-- `_flush` writes nothing but a header. -/
theorem _flush_wrote (htx : e.tx_buffer = some tx) (h8 : PacketHeader.size ≤ tx.dataSize) :
    (∃ e', (_flush T.encoder).run e = .error .blocked e') ∨
    ∃ e' tx', (_flush T.encoder).run e = .ok () e' ∧ Wrote T [] e e' ∧
      e'.tx_buffer = some tx' ∧ tx'.dataSize = PacketHeader.size := by
  by_cases hempty : tx.dataSize = PacketHeader.size
  · right
    refine ⟨e, tx, _flush_run_empty htx hempty, ⟨?_, rfl, rfl⟩, htx, hempty⟩
    rw [List.flatMap_nil, List.append_nil]
  rcases _flush_run T.encoder htx (by omega) with ⟨-, hb⟩ | ⟨sent, tx', h1, h2, hrun⟩
  · exact Or.inl hb
  refine Or.inr ⟨_, tx', hrun, ⟨?_, rfl, rfl⟩, rfl, h1⟩
  have hfresh : tx'.data.drop PacketHeader.size = [] :=
    List.drop_eq_nil_of_le (by rw [tx'.data_length, h1])
  have hsent : sent.data.drop PacketHeader.size = tx.data.drop PacketHeader.size := by
    rw [h2, List.drop_left' (PacketHeader.bytes_length _ _)]
  simp only [PacketEncoder.wire, htx, Option.toList_some, List.flatMap_append,
    List.flatMap_singleton, List.flatMap_nil, hsent, hfresh, List.append_nil]

theorem _flushInflight_wrote (e : PacketEncoder H T.B) :
    ∃ e', (_flushInflight : EncoderCall H T.B Unit).run e = .ok () e' ∧ Wrote T [] e e' ∧
      e'.tx_buffer = e.tx_buffer := by
  obtain ⟨pool, hrun⟩ := _flushInflight_run (e := e)
  refine ⟨_, hrun, ⟨?_, rfl, ?_⟩, rfl⟩
  · rw [List.flatMap_nil, List.append_nil]
    rfl
  · by_cases hi : e.inflight_buffers = []
    · simp only [if_pos hi]
    · simp only [if_neg hi, Option.map_map]
      rfl

theorem flushIfExact_wrote (htx : e.tx_buffer = some tx) (h8 : PacketHeader.size ≤ tx.dataSize) :
    (∃ e', (flushIfExact T.encoder).run e = .error .blocked e') ∨
    ∃ e' tx', (flushIfExact T.encoder).run e = .ok () e' ∧ Wrote T [] e e' ∧
      e'.tx_buffer = some tx' ∧ PacketHeader.size ≤ tx'.dataSize ∧ tx'.dataSize ≤ tx.dataSize ∧
      (tx.dataSize = T.l4mtu → tx'.dataSize = PacketHeader.size) := by
  by_cases hl : tx.dataSize = T.l4mtu
  · have hrun : (flushIfExact T.encoder).run e = (_flush T.encoder).run e := by
      simp only [flushIfExact, EStateM.run_bind, txDataSize_run htx, if_pos hl]
    rw [hrun]
    rcases _flush_wrote htx h8 with hb | ⟨e', tx', h1, h2, h3, h4⟩
    · exact Or.inl hb
    · exact Or.inr ⟨e', tx', h1, h2, h3, h4.ge, h4 ▸ h8, fun _ => h4⟩
  · refine Or.inr ⟨e, tx, ?_, ⟨?_, rfl, rfl⟩, htx, h8, le_rfl, fun h => absurd h hl⟩
    · simp only [flushIfExact, EStateM.run_bind, txDataSize_run htx, if_neg hl, EStateM.run_pure]
    · rw [List.flatMap_nil, List.append_nil]

/-- **One part** is written; unless it is the last, its datagram is sent and the next one is fresh. -/
theorem addPart_wrote {k off : Nat} {buf : PacketBuffer T.B} (hbuf : buf.data = f.bytes)
    (hoff : off < f.bytes.length) (htx : e.tx_buffer = some tx)
    (h8 : PacketHeader.size ≤ tx.dataSize)
    (hroom : tx.dataSize + PacketHeaderOption.size < T.l4mtu) :
    (∃ e', (addPart T.encoder f.frame.length f.format buf (UInt8.ofNat (k + 1)) off).run e =
      .error .blocked e') ∨
    ∃ (len : Nat) (fits : off + len ≤ f.bytes.length) (e' : PacketEncoder H T.B) (tx' : PacketBuffer T.B),
      (addPart T.encoder f.frame.length f.format buf (UInt8.ofNat (k + 1)) off).run e = .ok len e' ∧
      0 < len ∧ Wrote T [⟨f, k + 1, off, len, fits⟩] e e' ∧ e'.tx_buffer = some tx' ∧
      PacketHeader.size ≤ tx'.dataSize ∧ tx'.dataSize ≤ T.l4mtu ∧
      (off + len < f.bytes.length → tx.dataSize + PacketHeaderOption.size + len = T.l4mtu ∧
        tx'.dataSize = PacketHeader.size) := by
  obtain ⟨len, fits, tx1, h0, hfit, hfull, hd1, hrun⟩ := addPart_eq (k := k) hbuf hoff htx h8 hroom
  have htx1 : tx1.dataSize = tx.dataSize + (PacketHeaderOption.size + len) := by
    rw [← tx1.data_length, hd1, List.length_append, Record.bytes_length, tx.data_length]
    rfl
  rw [hrun, EStateM.run_bind]
  have h1 := wrote_withOption (T := T) htx h8 hd1
  rcases flushIfExact_wrote (T := T) (e := e.withOption tx1) rfl (by omega) with
    ⟨e', hb⟩ | ⟨e', tx', hrun', h2, htx', h8', hle', hfresh⟩
  · exact Or.inl ⟨e', by simp only [hb]⟩
  · refine Or.inr ⟨len, fits, e', tx', by simp only [hrun', EStateM.run_pure], h0, ?_, htx', h8',
      by omega, fun hlt => ?_⟩
    · simpa using h1.trans h2
    · have := hfull hlt
      exact ⟨this, hfresh (by omega)⟩

/-- **The loop over the parts** writes the rest of the frame, if the iterations suffice. -/
theorem partialLoop_wrote {buf : PacketBuffer T.B} (fuel : Nat) (hbuf : buf.data = f.bytes)
    {k off : Nat} (hoff : off ≤ f.bytes.length) (htx : e.tx_buffer = some tx)
    (h8 : PacketHeader.size ≤ tx.dataSize) (hle : tx.dataSize ≤ T.l4mtu)
    (hroom : off < f.bytes.length → tx.dataSize + PacketHeaderOption.size < T.l4mtu)
    (hnext : 0 < k → off < f.bytes.length → tx.dataSize = PacketHeader.size)
    (hparts : (k - 1) * (T.l4mtu - 16) ≤ off) :
    (∃ e', (partialLoop T.encoder f.frame.length f.format buf fuel (UInt8.ofNat (k + 1)) off).run e =
      .error .blocked e') ∨
    (fuel < f.bytes.length - off ∧ ∃ e',
      (partialLoop T.encoder f.frame.length f.format buf fuel (UInt8.ofNat (k + 1)) off).run e =
        .error .running e') ∨
    ∃ (e' : PacketEncoder H T.B) (rs : List (Record H)) (tx' : PacketBuffer T.B),
      (partialLoop T.encoder f.frame.length f.format buf fuel (UInt8.ofNat (k + 1)) off).run e =
        .ok () e' ∧ PartsFrom f k off rs ∧ Wrote T rs e e' ∧ e'.tx_buffer = some tx' ∧
      PacketHeader.size ≤ tx'.dataSize ∧ tx'.dataSize ≤ T.l4mtu := by
  have hbounds := T.size_bounds
  have hs8 : PacketHeader.size = 8 := rfl
  have ho8 : PacketHeaderOption.size = 8 := rfl
  have hds : buf.dataSize = f.bytes.length := by rw [← buf.data_length, hbuf]
  have hB := buf.dataSize_le
  by_cases hlt : off < f.bytes.length
  swap
  · -- the whole frame is written
    obtain rfl : off = f.bytes.length := by omega
    refine Or.inr (Or.inr ⟨e, [], tx, ?_, .done k, ⟨?_, rfl, rfl⟩, htx, h8, hle⟩)
    · rw [partialLoop_done (by omega)]
      rfl
    · rw [List.flatMap_nil, List.append_nil]
  induction fuel generalizing k off e tx with
  | zero =>
    refine Or.inr (Or.inl ⟨by omega, e, ?_⟩)
    simp only [partialLoop, hds, if_pos hlt, Call.run_throw]
  | succ fuel ih =>
    -- every part but the first fills a datagram, so the number of the part stays a byte
    have hk : k < 255 := by
      have := Nat.mul_le_mul_left (k - 1) (show 1136 ≤ T.l4mtu - 16 by omega)
      omega
    simp only [partialLoop, hds, if_pos hlt, EStateM.run_bind]
    rcases addPart_wrote (k := k) hbuf hlt htx h8 (hroom hlt) with
      ⟨e', hb⟩ | ⟨len, fits, e1, tx1, hrun, h0, h1, htx1, h81, hle1, hfull⟩
    · exact Or.inl ⟨e', by simp only [hb]⟩
    have hpart : UInt8.ofNat (k + 1) + 1 = UInt8.ofNat (k + 1 + 1) := by
      rw [UInt8.ofNat_add (k + 1) 1]
      rfl
    simp only [hrun, hpart]
    rw [Nat.mod_eq_of_lt (by omega)]
    by_cases hend : off + len < f.bytes.length
    · obtain ⟨hsize, hfresh⟩ := hfull hend
      have hparts' : (k + 1 - 1) * (T.l4mtu - 16) ≤ off + len := by
        cases k with
        | zero => simp
        | succ k =>
          have := hnext (Nat.succ_pos k) hlt
          simp only [Nat.add_sub_cancel, Nat.succ_mul] at hparts ⊢
          omega
      rcases ih (k := k + 1) (by omega) htx1 h81 hle1 (fun _ => by omega) (fun _ _ => hfresh) hparts'
          hend with hb | ⟨hrunning, e', hr⟩ | ⟨e', rs, tx', hrun', hps, h2, htx', h8', hle'⟩
      · exact Or.inl hb
      · exact Or.inr (Or.inl ⟨by omega, e', hr⟩)
      · exact Or.inr (Or.inr ⟨e', _, tx', hrun', .part fits hk h0 hps, h1.trans h2, htx', h8', hle'⟩)
    · rw [partialLoop_done (by omega)]
      refine Or.inr (Or.inr ⟨e1, _, tx1, rfl, .part fits hk h0 ?_, h1, htx1, h81, hle1⟩)
      have hall : off + len = f.bytes.length := by omega
      rw [hall]
      exact .done _

/-! ## One call -/

/-- **`addPacket` writes the frame once.** -/
theorem addPacket_wrote (fuel : Nat) {buf : PacketBuffer T.B} (hbuf : buf.data = f.bytes)
    (hroom : Room T e) :
    (∃ e', (addPacket T.encoder fuel f.frame.length f.format buf).run e = .error .blocked e') ∨
    (fuel < T.B ∧ ∃ e', (addPacket T.encoder fuel f.frame.length f.format buf).run e =
      .error .running e') ∨
    ∃ (e' : PacketEncoder H T.B) (rs : List (Record H)) (tx' : PacketBuffer T.B),
      (addPacket T.encoder fuel f.frame.length f.format buf).run e = .ok () e' ∧ CarriesOnce f rs ∧
      Wrote T rs e e' ∧ e'.tx_buffer = some tx' ∧ PacketHeader.size ≤ tx'.dataSize ∧
      tx'.dataSize ≤ T.l4mtu := by
  have hbounds := T.size_bounds
  have hs8 : PacketHeader.size = 8 := rfl
  have ho8 : PacketHeaderOption.size = 8 := rfl
  have hds : buf.dataSize = f.bytes.length := by rw [← buf.data_length, hbuf]
  have hB := buf.dataSize_le
  obtain ⟨tx, htx, h8, hroom⟩ := hroom
  have hmax := fun n => _getMaxPayloadSize_run n htx h8
  simp only [addPacket, EStateM.run_bind, hmax, hds]
  split
  · rename_i hbig
    simp only [EStateM.run_bind]
    have hloop := partialLoop_wrote (k := 0) fuel hbuf (Nat.zero_le _) htx h8 (by omega)
      (fun _ => by omega) (fun h0 => absurd h0 (Nat.lt_irrefl 0)) (by omega)
    simp only [Nat.zero_add, UInt8.ofNat_one] at hloop
    rcases hloop with ⟨e', hb⟩ | ⟨hfuel, e', hr⟩ | ⟨e1, rs, tx1, hrun, hps, h1, htx1, h81, hle1⟩
    · exact Or.inl ⟨e', by simp only [hb]⟩
    · exact Or.inr (Or.inl ⟨by omega, e', by simp only [hr]⟩)
    · obtain ⟨e2, hrun2, h2, htx2⟩ := _flushInflight_wrote e1
      refine Or.inr (Or.inr ⟨e2, rs, tx1, by simp only [hrun, hrun2], Or.inr ⟨?_, hps⟩, ?_,
        htx2.trans htx1, h81, hle1⟩)
      · rintro rfl
        generalize hzero : 0 = z at hps
        cases hps
        omega
      · simpa using h1.trans h2
  · rename_i hsmall
    rw [Nat.mod_eq_of_lt (by omega)]
    obtain ⟨tx1, hd1, hrun⟩ := addOption_run (Record.whole f).option
      (Record.whole f).payload htx (by
        rw [Record.payload_whole]
        omega)
    rw [List.append_assoc] at hd1
    have hsize : tx1.dataSize = tx.dataSize + (PacketHeaderOption.size + f.bytes.length) := by
      rw [← tx1.data_length, hd1, List.length_append, tx.data_length, List.length_append,
        PacketHeaderOption.bytes_length, Record.payload_whole]
    refine Or.inr (Or.inr ⟨e.withOption tx1, [.whole f], tx1, ?_, Or.inl rfl,
      wrote_withOption htx h8 hd1, rfl, by omega, by omega⟩)
    rw [hbuf]
    rw [Record.payload_whole] at hrun
    exact hrun

/-- `flushIfFull` writes nothing, and leaves room. -/
theorem flushIfFull_wrote (htx : e.tx_buffer = some tx) (h8 : PacketHeader.size ≤ tx.dataSize) :
    (∃ e', (flushIfFull T.encoder).run e = .error .blocked e') ∨
    ∃ e', (flushIfFull T.encoder).run e = .ok () e' ∧ Wrote T [] e e' ∧ Room T e' := by
  have hs8 : PacketHeader.size = 8 := rfl
  have hmax := fun n => _getMaxPayloadSize_run n htx h8
  by_cases hfull : T.l4mtu - PacketHeaderOption.size - tx.dataSize <
      PacketHeader.size + PacketHeaderOption.size * 10
  · simp only [flushIfFull, EStateM.run_bind, hmax, if_pos hfull]
    rcases _flush_wrote htx h8 with ⟨e', hb⟩ | ⟨e1, tx1, hrun, h1, htx1, h81⟩
    · exact Or.inl ⟨e', by simp only [hb]⟩
    · obtain ⟨e2, hrun2, h2, htx2⟩ := _flushInflight_wrote e1
      refine Or.inr ⟨e2, by simp only [hrun, hrun2], h1.trans h2, tx1, htx2.trans htx1, h81.ge,
        Or.inl h81⟩
  · refine Or.inr ⟨e, ?_, ⟨?_, rfl, rfl⟩, tx, htx, h8, Or.inr (by omega)⟩
    · simp only [flushIfFull, EStateM.run_bind, hmax, if_neg hfull, EStateM.run_pure]
    · rw [List.flatMap_nil, List.append_nil]

/-- The encoder of a compressed format between two calls. -/
structure Ready (T : Tunnel H) (e : PacketEncoder H T.B) : Prop where
  packet_format : e.packet_format = T.packet_format
  lib : e.compressor.map CompressionStream.lib = some T.lib
  comp_buffer : e.comp_buffer.isSome
  room : Room T e

theorem Ready.exists_history (h : Ready T e) : ∃ history, e.compressor = some ⟨T.lib, history⟩ := by
  obtain ⟨⟨lib, history⟩, hstream, hlib⟩ := Option.map_eq_some_iff.mp h.lib
  obtain rfl : lib = T.lib := hlib
  exact ⟨history, hstream⟩

theorem Ready.owns (h : Ready T e) : OwnsIdle e.held T.packet_format e := by
  obtain ⟨tx, htx, -⟩ := h.room
  exact ⟨rfl, h.packet_format, htx ▸ rfl, fun _ => h.comp_buffer⟩

/-- `release` leaves a compression buffer. -/
theorem release_ready (hn : T.packet_format ≠ NONE) (buf : PacketBuffer T.B)
    (hformat : e.packet_format = T.packet_format)
    (hlib : e.compressor.map CompressionStream.lib = some T.lib) (hroom : Room T e) :
    ∃ e', (release buf).run e = .ok () e' ∧ wire e' = wire e ∧ Ready T e' := by
  rcases release_cases buf e with hrun | ⟨hcomp, hrun⟩
  · exact ⟨_, hrun, rfl, hformat, hlib, rfl, hroom⟩
  · rw [hformat] at hcomp
    exact ⟨_, hrun, rfl, hformat, hlib, hcomp hn, hroom⟩

/-- **`compressPacket` of a compressed format** gives `addPacket` the output of the library, or the
packet itself for 0, and writes nothing. -/
theorem compressPacket_ready (hn : T.packet_format ≠ NONE)
    (hlib : T.lib.WithinOutput T.l2mtu T.B) (h : Ready T e) (hraw : raw.dataSize ≤ T.l2mtu)
    {history : H} (hstream : e.compressor = some ⟨T.lib, history⟩) {result : StreamResult H}
    (hresult : T.lib.compress history raw.data T.B = result) :
    (result.result < 0 ∧
      ∃ e', (compressPacket raw raw.dataSize).run e = .error .outOfRange e') ∨
    0 ≤ result.result ∧
      ∃ (f : EncodedFrame H) (buf : PacketBuffer T.B) (e' : PacketEncoder H T.B), f.frame = raw.data ∧
        (0 < result.result → f.format = T.packet_format ∧ f.bytes = result.output) ∧
        (result.result ≤ 0 → f.format = NONE ∧ f.bytes = raw.data) ∧ buf.data = f.bytes ∧
        (compressPacket raw raw.dataSize).run e = .ok (buf, f.format) e' ∧ wire e' = wire e ∧
        e'.tx_buffer = e.tx_buffer ∧ e'.packet_format = T.packet_format ∧
        e'.compressor.map CompressionStream.lib = some T.lib := by
  have hlen : raw.data.length ≤ T.l2mtu := by
    rw [raw.data_length]
    exact hraw
  obtain ⟨comp, hcomp⟩ := Option.isSome_iff_exists.mp h.comp_buffer
  have hout := hlib.output_le history raw.data hlen
  have hres := hlib.result_eq history raw.data hlen
  rw [hresult] at hout hres
  have hformat := h.packet_format
  rcases Int.lt_trichotomy result.result 0 with hneg | hzero | hpos
  -- the size of the packet is set to the error code
  · exact Or.inl ⟨hneg, compressPacket_negative hformat hn hstream hcomp hresult hout hneg (by omega)⟩
  · obtain ⟨comp', hrun⟩ := compressPacket_zero hformat hn hstream hcomp hresult hout hzero
    exact Or.inr ⟨hzero.ge,
      ⟨e.accepted.length, raw.data, NONE, raw.data, history, result.history⟩, raw, _, rfl,
      fun h0 => absurd h0 (by omega), fun _ => ⟨rfl, rfl⟩, rfl, hrun, rfl, rfl, hformat, rfl⟩
  · have hlength : result.result = result.output.length := by omega
    obtain ⟨buf, hbuf, hrun⟩ := compressPacket_pos hformat hn hstream hcomp hresult hout hpos hlength
    exact Or.inr ⟨hpos.le,
      ⟨e.accepted.length, raw.data, T.packet_format, result.output, history, result.history⟩, buf, _,
      rfl, fun _ => ⟨rfl, rfl⟩, fun h0 => absurd hpos (by omega), hbuf, hrun, rfl, rfl, hformat, rfl⟩

/-- **`encode` of a compressed format**, from any state between two calls. -/
theorem encode_ready (hn : T.packet_format ≠ NONE) (hlib : T.lib.WithinOutput T.l2mtu T.B) (fuel : Nat)
    (h : Ready T e) (hraw : raw.dataSize ≤ T.l2mtu) {history : H}
    (hstream : e.compressor = some ⟨T.lib, history⟩) {result : StreamResult H}
    (hresult : T.lib.compress history raw.data T.B = result) :
    (result.result < 0 ∧ ∃ e', (encode T.encoder fuel raw).run e = .error .outOfRange e') ∨
    0 ≤ result.result ∧
      ((∃ e', (encode T.encoder fuel raw).run e = .error .blocked e') ∨
      (fuel < T.B ∧ ∃ e', (encode T.encoder fuel raw).run e = .error .running e') ∨
      ∃ (e' : PacketEncoder H T.B) (f : EncodedFrame H) (rs : List (Record H)),
        (encode T.encoder fuel raw).run e = .ok () e' ∧ f.frame = raw.data ∧
        (0 < result.result → f.format = T.packet_format ∧ f.bytes = result.output) ∧
        (result.result ≤ 0 → f.format = NONE ∧ f.bytes = raw.data) ∧
        CarriesOnce f rs ∧ wire e' = wire e ++ rs.flatMap Record.bytes ∧ Ready T e') := by
  have hbounds := T.size_bounds
  have hsize : raw.dataSize % 65536 = raw.dataSize := Nat.mod_eq_of_lt (by omega)
  have hacc : ¬raw.dataSize > T.encoder.l2mtu := Nat.not_lt.mpr hraw
  obtain ⟨e0, he0⟩ : ∃ e0, e0 = { e with accepted := e.accepted ++ [raw.data] } := ⟨_, rfl⟩
  have h0 : Ready T e0 := he0 ▸ ⟨h.packet_format, h.lib, h.comp_buffer, h.room⟩
  have hwire0 : wire e0 = wire e := he0 ▸ rfl
  rcases compressPacket_ready hn hlib h0 hraw (he0 ▸ hstream) hresult with
    ⟨hneg, e', hrun⟩ | ⟨hnonneg, f, buf, e1, hframe, hok, hfail, hbuf, hrun1, hwire1, htx1, hformat1,
      hlib1⟩
  · refine Or.inl ⟨hneg, e', ?_⟩
    simp only [encode, hsize, if_neg hacc, EStateM.run_bind, EStateM.run_modify, ← he0, hrun]
  refine Or.inr ⟨hnonneg, ?_⟩
  have hroom1 : Room T e1 := by
    rw [Room, htx1]
    exact h0.room
  have hadd := addPacket_wrote fuel hbuf hroom1
  rw [hframe, raw.data_length] at hadd
  rcases hadd with ⟨e', hb⟩ | ⟨hfuel, e', hr⟩ | ⟨e2, rs, tx2, hrun2, hcarries, h2, htx2, h82, -⟩
  · refine Or.inl ⟨e', ?_⟩
    simp only [encode, hsize, if_neg hacc, EStateM.run_bind, EStateM.run_modify, ← he0, hrun1, hb]
  · refine Or.inr (Or.inl ⟨hfuel, e', ?_⟩)
    simp only [encode, hsize, if_neg hacc, EStateM.run_bind, EStateM.run_modify, ← he0, hrun1, hr]
  rcases flushIfFull_wrote htx2 h82 with ⟨e', hb⟩ | ⟨e3, hrun3, h3, hroom3⟩
  · refine Or.inl ⟨e', ?_⟩
    simp only [encode, hsize, if_neg hacc, EStateM.run_bind, EStateM.run_modify, ← he0, hrun1, hrun2,
      hb]
  have h13 := h2.trans h3
  obtain ⟨e4, hrun4, hwire4, h4⟩ := release_ready hn buf (h13.packet_format.trans hformat1)
    (h13.lib.trans hlib1) hroom3
  refine Or.inr (Or.inr ⟨e4, f, rs, ?_, hframe, hok, hfail, hcarries, ?_, h4⟩)
  · simp only [encode, hsize, if_neg hacc, EStateM.run_bind, EStateM.run_modify, ← he0, hrun1, hrun2,
      hrun3, hrun4]
  · rw [hwire4, h13.wire, List.append_nil, hwire1, hwire0]

/-! ## Runs -/

/-- A new encoder is between two calls, and has accepted nothing. -/
theorem Starts.fresh {seq : UInt32} {available : List (PacketBuffer T.B)}
    (h : Starts T.libs T.packet_format seq available e) : Idle T seq e ∧ e.accepted = [] := by
  have hbounds := T.size_bounds
  have hs8 : PacketHeader.size = 8 := rfl
  have hseq : Call.Meets (Fresh (H := H) (B := T.B)) (setSequence seq)
      (fun _ e => Fresh e ∧ e.sequence = seq) fun x _ => x = .blocked :=
    fun e h => ⟨⟨h.1, h.2, h.3, h.4, h.5, h.6, h.7, h.8⟩, rfl⟩
  exact ((new_meets ⟨available⟩ (by omega)).bind fun _ => hseq.bind fun _ =>
    setPacketFormat_meets seq).ok rfl h

theorem Starts.idle {seq : UInt32} {available : List (PacketBuffer T.B)}
    (h : Starts T.libs T.packet_format seq available e) : Idle T seq e := h.fresh.1

theorem Idle.ready {seq : UInt32} (hn : T.packet_format ≠ NONE) (h : Idle T seq e) : Ready T e := by
  obtain ⟨history, -, hs⟩ := h.stream
  exact ⟨hs.packet_format, by rw [hs.compressor hn]; rfl, h.comp_buffer hn, h.room⟩

/-- **A call that returns** keeps the encoder ready, whatever the compressor gave. -/
theorem Ready.calls (hn : T.packet_format ≠ NONE) (hlib : T.lib.WithinOutput T.l2mtu T.B) {op : Op T.B}
    (h : Ready T e) (hcall : Calls T.encoder e op e') : Ready T e' := by
  obtain ⟨fuel, hrun⟩ := hcall
  have howns := (step_owns op).ok h.owns hrun
  obtain ⟨tx, htx, h8, hroom⟩ := h.room
  cases op with
  | flush =>
    simp only [step, flush, EStateM.run_bind] at hrun
    rcases _flush_wrote htx h8 with ⟨e1, hb⟩ | ⟨e1, tx1, hrun1, h1, htx1, h81⟩
    · simp only [hb] at hrun
      cases hrun
    · obtain ⟨e2, hrun2, h2, htx2⟩ := _flushInflight_wrote e1
      simp only [hrun1, hrun2] at hrun
      obtain ⟨-, rfl⟩ := EStateM.Result.ok.inj hrun
      exact ⟨howns.packet_format, (h2.lib.trans h1.lib).trans h.lib, howns.comp_buffer hn, tx1,
        htx2.trans htx1, h81.ge, Or.inl h81⟩
  | encode raw =>
    simp only [step] at hrun
    by_cases hraw : raw.dataSize ≤ T.l2mtu
    · obtain ⟨history, hstream⟩ := h.exists_history
      rcases encode_ready hn hlib fuel h hraw hstream rfl with
        ⟨-, e1, h1⟩ | ⟨-, ⟨e1, h1⟩ | ⟨-, e1, h1⟩ | ⟨e1, f, rs, h1, -, -, -, -, -, hready⟩⟩
      · cases hrun.symm.trans h1
      · cases hrun.symm.trans h1
      · cases hrun.symm.trans h1
      · obtain ⟨-, rfl⟩ := EStateM.Result.ok.inj (hrun.symm.trans h1)
        exact hready
    · -- the frame is refused
      have hbounds := T.size_bounds
      have hle := raw.dataSize_le
      have hbig : raw.dataSize > T.encoder.l2mtu := Nat.not_le.mp hraw
      simp only [encode, Nat.mod_eq_of_lt (show raw.dataSize < 65536 by omega), if_pos hbig,
        EStateM.run_bind, pushAvailable_run raw e, EStateM.run_pure] at hrun
      obtain ⟨-, rfl⟩ := EStateM.Result.ok.inj hrun
      exact ⟨h.packet_format, h.lib, h.comp_buffer, h.room⟩

/-! ## Waiting for a buffer -/

/-- The call waits only when the available pool is empty. -/
def WaitsWhenEmpty {α : Type} (x : EncoderCall H B α) : Prop :=
  Call.Meets (fun _ => True) x (fun _ _ => True)
    (fun stop e => stop = .blocked → e.available_buffer_pool.pool = [])

section
variable {α β : Type} {cfg : EncoderConfig}

namespace WaitsWhenEmpty

theorem bind {x : EncoderCall H B α} {f : α → EncoderCall H B β} (hx : WaitsWhenEmpty x)
    (hf : ∀ a, WaitsWhenEmpty (f a)) : WaitsWhenEmpty (x >>= f) :=
  Call.Meets.bind hx hf

theorem returns {x : EncoderCall H B α} (h : ∀ e, ∃ a e', x.run e = .ok a e') : WaitsWhenEmpty x := by
  intro e _
  obtain ⟨a, e', hrun⟩ := h e
  rw [hrun]
  trivial

theorem ofExcept {r : Except Stop α} (h : r ≠ .error .blocked) :
    WaitsWhenEmpty (Call.ofExcept r : EncoderCall H B α) := by
  intro e _
  cases r with
  | ok a => trivial
  | error stop =>
    rintro rfl
    exact absurd rfl h

theorem bind_get {f : PacketEncoder H B → EncoderCall H B α} (h : ∀ e, WaitsWhenEmpty (f e)) :
    WaitsWhenEmpty (get >>= f) :=
  bind (returns fun e => ⟨e, e, rfl⟩) h

theorem bind_set {e : PacketEncoder H B} {f : PUnit → EncoderCall H B α}
    (h : WaitsWhenEmpty (f ⟨⟩)) : WaitsWhenEmpty (set e >>= f) :=
  bind (returns fun _ => ⟨⟨⟩, e, rfl⟩) fun _ => h

theorem bind_deref {γ : Type} {p : Option γ} {f : γ → EncoderCall H B α}
    (h : ∀ a, WaitsWhenEmpty (f a)) : WaitsWhenEmpty (deref p >>= f) := by
  refine bind ?_ h
  intro e _
  cases p with
  | none => exact fun h => by cases h
  | some a => trivial

theorem bind_ofExcept {γ : Type} {r : Except Stop γ} {f : γ → EncoderCall H B α}
    (hr : r ≠ .error .blocked) (h : ∀ a, WaitsWhenEmpty (f a)) :
    WaitsWhenEmpty (Call.ofExcept r >>= f) :=
  bind (ofExcept hr) h

theorem ite {c : Prop} [Decidable c] {x y : EncoderCall H B α} (hx : WaitsWhenEmpty x)
    (hy : WaitsWhenEmpty y) : WaitsWhenEmpty (if c then x else y) :=
  Call.Meets.ite (fun _ => hx) fun _ => hy

end WaitsWhenEmpty

open WaitsWhenEmpty

theorem writeAt_ne_blocked (b : PacketBuffer B) (pos : Nat) (bytes : List UInt8) :
    b.writeAt pos bytes ≠ .error .blocked := by
  unfold PacketBuffer.writeAt
  split <;> simp

theorem setDataSize_ne_blocked (b : PacketBuffer B) (size : Nat) :
    b.setDataSize size ≠ .error .blocked := by
  unfold PacketBuffer.setDataSize
  split <;> simp

theorem append_ne_blocked (b : PacketBuffer B) (bytes : List UInt8) :
    b.append bytes ≠ .error .blocked := by
  unfold PacketBuffer.append
  split <;> simp

theorem _getTxBuffer_waits : WaitsWhenEmpty (_getTxBuffer : EncoderCall H B Unit) := by
  refine Call.Meets.bind_get fun e _ => Call.Meets.bind_ofExcept (fun r _ => ?_) ?_
  · have hset : WaitsWhenEmpty (do
        let tx_buffer ← Call.ofExcept (r.1.clear.setDataSize PacketHeader.size)
        set { e with
          tx_buffer := some tx_buffer
          available_buffer_pool := r.2
          opt_len := 0
          packet_count := 0 } : EncoderCall H B Unit) :=
      bind_ofExcept (setDataSize_ne_blocked _ _) fun tx => returns fun _ => ⟨⟨⟩, _, rfl⟩
    exact hset.mono (fun _ _ => trivial) (fun _ _ h => h) fun _ _ h => h
  · rintro stop e' hstop rfl -
    unfold BufferPool.pop_wait at hstop
    split at hstop
    · assumption
    · cases hstop

theorem _flush_waits : WaitsWhenEmpty (_flush cfg : EncoderCall H B Unit) := by
  refine bind_get fun e => bind_deref fun tx => ite (returns fun e => ⟨⟨⟩, e, rfl⟩) ?_
  refine bind_ofExcept (writeAt_ne_blocked _ _ _) fun tx' => ?_
  rw [BufferPool.push_packetBuffer]
  exact bind_ofExcept (by simp) fun _ => bind_set _getTxBuffer_waits

theorem _flushInflight_waits : WaitsWhenEmpty (_flushInflight : EncoderCall H B Unit) :=
  returns fun _ => ⟨⟨⟩, _, _flushInflight_run.choose_spec⟩

theorem _getMaxPayloadSize_waits (n : Nat) :
    WaitsWhenEmpty (_getMaxPayloadSize cfg n : EncoderCall H B Nat) :=
  bind_get fun _ => bind_deref fun _ =>
    ite (returns fun e => ⟨_, e, rfl⟩) (returns fun e => ⟨_, e, rfl⟩)

theorem txDataSize_waits : WaitsWhenEmpty (txDataSize : EncoderCall H B Nat) :=
  bind_get fun _ => bind_deref fun _ => returns fun e => ⟨_, e, rfl⟩

theorem addOption_waits (option : PacketHeaderOption) (payload : List UInt8) :
    WaitsWhenEmpty (addOption option payload : EncoderCall H B Unit) :=
  bind_get fun _ => bind_deref fun _ => bind_ofExcept (writeAt_ne_blocked _ _ _) fun _ =>
    bind_ofExcept (setDataSize_ne_blocked _ _) fun _ => bind_ofExcept (append_ne_blocked _ _) fun _ =>
      returns fun _ => ⟨⟨⟩, _, rfl⟩

theorem addPart_waits (original_size : Nat) (format : PacketHeaderOptionFormatType)
    (buf : PacketBuffer B) (part : UInt8) (packet_pos : Nat) :
    WaitsWhenEmpty (addPart cfg original_size format buf part packet_pos : EncoderCall H B Nat) := by
  refine bind (_getMaxPayloadSize_waits _) fun _ => bind ?_ fun _ => bind ?_ fun _ => ?_
  · refine bind txDataSize_waits fun _ => bind (addOption_waits _ _) fun _ => ite ?_ ?_
    · exact bind_get fun _ => bind_deref fun _ => bind_ofExcept (writeAt_ne_blocked _ _ _) fun _ =>
        returns fun _ => ⟨⟨⟩, _, rfl⟩
    · exact returns fun e => ⟨⟨⟩, e, rfl⟩
  · exact bind txDataSize_waits fun _ => ite _flush_waits (returns fun e => ⟨⟨⟩, e, rfl⟩)
  · exact returns fun e => ⟨_, e, rfl⟩

theorem partialLoop_waits (original_size : Nat) (format : PacketHeaderOptionFormatType)
    (buf : PacketBuffer B) (fuel : Nat) (part : UInt8) (packet_pos : Nat) :
    WaitsWhenEmpty (partialLoop cfg original_size format buf fuel part packet_pos :
      EncoderCall H B Unit) := by
  induction fuel generalizing part packet_pos with
  | zero =>
    unfold partialLoop
    exact ite (fun _ _ h => by cases h) (returns fun e => ⟨⟨⟩, e, rfl⟩)
  | succ fuel ih =>
    unfold partialLoop
    exact ite (bind (addPart_waits _ _ _ _ _) fun _ => ih _ _) (returns fun e => ⟨⟨⟩, e, rfl⟩)

theorem addPacket_waits (fuel original_size : Nat) (format : PacketHeaderOptionFormatType)
    (buf : PacketBuffer B) :
    WaitsWhenEmpty (addPacket cfg fuel original_size format buf : EncoderCall H B Unit) :=
  bind (_getMaxPayloadSize_waits _) fun _ =>
    ite (bind (partialLoop_waits _ _ _ _ _ _) fun _ => _flushInflight_waits) (addOption_waits _ _)

theorem compressPacket_waits (buf : PacketBuffer B) (original_size : Nat) :
    WaitsWhenEmpty (compressPacket buf original_size :
      EncoderCall H B (PacketBuffer B × PacketHeaderOptionFormatType)) := by
  refine bind_get fun e => ite (returns fun e => ⟨_, e, rfl⟩) (bind_deref fun stream => ?_)
  refine bind_deref fun comp => bind_ofExcept (writeAt_ne_blocked _ _ _) fun comp' => bind_set ?_
  refine ite (bind_ofExcept (setDataSize_ne_blocked _ _) fun buf => ?_) (returns fun e => ⟨_, e, rfl⟩)
  exact returns fun e => ⟨_, _, rfl⟩

/-- **`encode` waits only when the available pool is empty.** -/
theorem encode_waits (fuel : Nat) (buf : PacketBuffer B) :
    WaitsWhenEmpty (encode cfg fuel buf : EncoderCall H B Unit) := by
  have hpush : WaitsWhenEmpty (pushAvailable buf : EncoderCall H B Unit) :=
    returns fun e => ⟨⟨⟩, _, pushAvailable_run buf e⟩
  refine ite (bind hpush fun _ => returns fun e => ⟨⟨⟩, e, rfl⟩) ?_
  refine bind (returns fun e => ⟨⟨⟩, _, rfl⟩) fun _ => ?_
  refine bind (compressPacket_waits _ _) fun r => bind (addPacket_waits _ _ _ _) fun _ => ?_
  refine bind (bind (_getMaxPayloadSize_waits _) fun _ => ite ?_ (returns fun e => ⟨⟨⟩, e, rfl⟩))
    fun _ => ?_
  · exact bind _flush_waits fun _ => _flushInflight_waits
  · refine bind_get fun e => ite (returns fun _ => ⟨⟨⟩, _, rfl⟩) (returns fun e => ?_)
    exact ⟨⟨⟩, _, pushAvailable_run _ e⟩

end

/-! ## Degrading to an uncompressed packet -/

/-- What `encode` is to do with the frame `raw`, for which the compressor gave `result`: the frame
is carried once, compressed or as it is; its buffer joins those the encoder owns, and there is a
compression buffer for the next call. -/
structure Encodes (result : StreamResult H) (raw : PacketBuffer T.B) (e e' : PacketEncoder H T.B) :
    Prop where
  carried : ∃ (f : EncodedFrame H) (rs : List (Record H)), f.frame = raw.data ∧
    (0 < result.result → f.format = T.packet_format ∧ f.bytes = result.output) ∧
    (result.result ≤ 0 → f.format = NONE ∧ f.bytes = raw.data) ∧
    CarriesOnce f rs ∧ wire e' = wire e ++ rs.flatMap Record.bytes
  held : e'.held = e.held + {raw.id}
  comp_buffer : e'.comp_buffer.isSome

/-- **`encode` degrades**: it returns having encoded the frame, or waits for a buffer. -/
def Degrades (history : H) (raw : PacketBuffer T.B) (e : PacketEncoder H T.B) : Prop :=
  ∀ fuel, T.B ≤ fuel →
    (∃ e', (encode T.encoder fuel raw).run e = .error .blocked e' ∧
      e'.available_buffer_pool.pool = []) ∨
    ∃ e', (encode T.encoder fuel raw).run e = .ok () e' ∧
      Encodes (T.lib.compress history raw.data T.B) raw e e'

/-- **A compressor failure degrades exactly when it is no error code**: after every run of an
encoder of a compressed format, and for every frame, `encode` goes through if the compressor's
result is a length or 0; a negative one makes `setDataSize` throw. -/
theorem degrades_iff (hn : T.packet_format ≠ NONE) (hlib : T.lib.WithinOutput T.l2mtu T.B)
    {seq : UInt32} {available : List (PacketBuffer T.B)} {ops : List (Op T.B)}
    {e0 : PacketEncoder H T.B} (hstart : Starts T.libs T.packet_format seq available e0)
    (hrun : StepPath (Calls T.encoder) e0 ops e) (hraw : raw.dataSize ≤ T.l2mtu) :
    ∃ history, e.compressor = some ⟨T.lib, history⟩ ∧
      (Degrades history raw e ↔ 0 ≤ (T.lib.compress history raw.data T.B).result) := by
  have h : Ready T e := hrun.invariant (fun _ _ _ h hcall => h.calls hn hlib hcall) (hstart.idle.ready hn)
  obtain ⟨history, hstream⟩ := h.exists_history
  refine ⟨history, hstream, ?_⟩
  constructor
  · intro hdegrades
    rcases encode_ready hn hlib T.B h hraw hstream rfl with ⟨-, e1, h1⟩ | ⟨hpos, -⟩
    · rcases hdegrades T.B le_rfl with ⟨e', h', -⟩ | ⟨e', h', -⟩
      · cases h1.symm.trans h'
      · cases h1.symm.trans h'
    · exact hpos
  · intro hpos fuel hfuel
    rcases encode_ready hn hlib fuel h hraw hstream rfl with
      ⟨hneg, -⟩ | ⟨-, ⟨e', hb⟩ | ⟨hshort, -⟩ | ⟨e', f, rs, hok, hframe, hc, hf, hcarries, hwire, h'⟩⟩
    · exact absurd hneg (Int.not_lt.mpr hpos)
    · exact Or.inl ⟨e', hb, (encode_waits fuel raw).error trivial hb rfl⟩
    · exact absurd hshort (Nat.not_lt.mpr hfuel)
    · exact Or.inr ⟨e', hok, ⟨f, rs, hframe, hc, hf, hcarries, hwire⟩,
        ((step_owns (.encode raw)).ok h.owns hok).held, h'.comp_buffer⟩

/-- With LZ4, after a frame it compresses, a frame it refuses. -/
theorem degrades_iff_lz4 :
    let T := Tunnel.smallestLZ4 (.inet 58023 #v[192, 0, 2, 1])
    let raw : PacketBuffer T.B := .ofData 21 (List.replicate 60 0) (by decide)
    ∃ e0 e : PacketEncoder (List (List UInt8)) T.B,
      Starts T.libs T.packet_format 1 (PacketBuffer.fresh 0 10) e0 ∧
      StepPath (Calls T.encoder) e0 [.encode (.ofData 20 [1, 2, 3] (by decide))] e ∧
      ∃ history, e.compressor = some ⟨T.lib, history⟩ ∧
        (Degrades history raw e ↔ 0 ≤ (T.lib.compress history raw.data T.B).result) := by
  intro T raw
  obtain ⟨⟨⟩, e, hrun, -⟩ := Call.exists_of_okAnd (p := fun _ => true)
    (r := T.encoderRun 10 1 (PacketBuffer.fresh 0 10) [.encode (.ofData 20 [1, 2, 3] (by decide))])
    (by decide +kernel)
  obtain ⟨e0, hstart, hpath⟩ := path_of_encoderRun hrun
  exact ⟨e0, e, hstart, hpath, degrades_iff (by decide)
    (StreamCompressor.literals_lossless _ _).toCompressBounded.within hstart hpath (by decide)⟩

/-- A library that fails with the code ZSTD has for an output that is too small. -/
def dstSizeTooSmall : StreamCompressor (List (List UInt8)) where
  reset := []
  compress h _ _ := ⟨-70, [], h⟩
  decompress h _ _ := ⟨-70, [], h⟩

/-- The first frame of an encoder whose library fails so: `encode` throws. -/
theorem error_code_throws :
    let T : Tunnel (List (List UInt8)) :=
      { Tunnel.smallest (.inet 58023 #v[192, 0, 2, 1]) with
        packet_format := COMPRESSED_ZSTD
        known := Or.inr (Or.inr rfl)
        libs := ⟨dstSizeTooSmall, dstSizeTooSmall⟩ }
    let raw : PacketBuffer T.B := .ofData 20 [1, 2, 3] (by decide)
    T.lib.WithinOutput T.l2mtu T.B ∧ ∃ e0 e' : PacketEncoder (List (List UInt8)) T.B,
      Starts T.libs T.packet_format 1 (PacketBuffer.fresh 0 10) e0 ∧
      e0.compressor = some ⟨T.lib, T.lib.reset⟩ ∧
      (encode T.encoder T.B raw).run e0 = .error .outOfRange e' ∧ ¬Degrades T.lib.reset raw e0 := by
  intro T raw
  have hlib : T.lib.WithinOutput T.l2mtu T.B := by
    refine ⟨fun _ _ _ => Nat.zero_le _, fun _ _ _ => Or.inl ⟨?_, ?_⟩⟩
    · show (-2147483648 : Int) ≤ -70
      omega
    · show (-70 : Int) ≤ 0
      omega
  obtain ⟨⟨⟩, e, hrun, hinflight⟩ := Call.exists_of_okAnd (p := fun e => e.inflight_buffers.isEmpty)
    (r := T.encoderRun 10 1 (PacketBuffer.fresh 0 10) []) (by decide +kernel)
  obtain ⟨e0, hstart, hpath⟩ := path_of_encoderRun hrun
  obtain rfl := StepPath.nil_iff.mp hpath
  have hidle := hstart.idle
  have hn : T.packet_format ≠ NONE := by decide
  obtain ⟨history, -, hs⟩ := hidle.stream
  obtain rfl := hs.inflight (List.isEmpty_iff.mp hinflight)
  have hthrows : ∀ fuel, ∃ e', (encode T.encoder fuel raw).run e0 = .error .outOfRange e' := by
    intro fuel
    have hraw : raw.dataSize ≤ T.l2mtu := by decide
    rcases encode_ready hn hlib fuel (hidle.ready hn) hraw (hs.compressor hn) rfl with
      ⟨-, hthrow⟩ | ⟨hpos, -⟩
    · exact hthrow
    · exact absurd hpos (by decide)
  obtain ⟨e', hthrow⟩ := hthrows T.B
  refine ⟨hlib, e0, e', hstart, hs.compressor hn, hthrow, fun hdegrades => ?_⟩
  rcases hdegrades T.B le_rfl with ⟨e1, h1, -⟩ | ⟨e1, h1, -⟩
  · cases hthrow.symm.trans h1
  · cases hthrow.symm.trans h1

end PacketEncoder
end SuperEthd
