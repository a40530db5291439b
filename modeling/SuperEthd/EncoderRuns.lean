import SuperEthd.EncoderRefinement

/-! # Runs of the encoder

The calls of a `PacketEncoder` on top of `EncoderRefinement`: the compression stream
(`Streaming`) goes along with the stream of datagrams, and between two calls the encoder is
`Idle`.  Every run of `encode` and `flush` returns or waits for a buffer, and emits a stream
that carries the accepted frames (`encoderCalls_meets`). -/
namespace SuperEthd
open PacketHeaderOptionType PacketHeaderOptionFormatType

namespace PacketEncoder
variable {H : Type} {B : Nat} {T : Tunnel H} {s0 : UInt32} {c : Cursor H} {fs : List (List UInt8)}
  {e e' : PacketEncoder H T.B} {tx : PacketBuffer T.B}

/-! ## The compression stream -/

/-- The two states agree on the members that hold the stream. -/
structure SameTx (e e' : PacketEncoder H B) : Prop where
  sequence : e'.sequence = e.sequence
  tx_buffer : e'.tx_buffer = e.tx_buffer
  opt_len : e'.opt_len = e.opt_len
  packet_count : e'.packet_count = e.packet_count
  tx_buffer_pool : e'.tx_buffer_pool = e.tx_buffer_pool
  carriers : e'.carriers = e.carriers

theorem Emitting.congr (h : Emitting T s0 c fs e) (hsame : SameTx e e') : Emitting T s0 c fs e' := by
  obtain ⟨ds, pending, c0, h, hfs⟩ := h
  refine ⟨ds, pending, c0, ?_, hfs⟩
  exact
    { sent := hsame.sequence ▸ h.sent
      start := h.start
      laid := h.laid
      tx := hsame.tx_buffer ▸ h.tx
      size_le := h.size_le
      opt_len := hsame.opt_len.trans h.opt_len
      packet_count := hsame.packet_count.trans h.packet_count
      pool := hsame.tx_buffer_pool ▸ h.pool
      carriers := hsame.carriers.trans h.carriers }

/-- **The compression stream** has history `history`; the buffers it may still refer to are on the
inflight list, and it is reset when the list is empty. -/
structure Streaming (T : Tunnel H) (history : H) (e : PacketEncoder H T.B) : Prop where
  packet_format : e.packet_format = T.packet_format
  compressor : T.packet_format ≠ NONE → e.compressor = some ⟨T.lib, history⟩
  inflight : e.inflight_buffers = [] → history = T.lib.reset
  plain : T.packet_format = NONE → e.inflight_buffers = []

theorem Streaming.congr {history : H} (h : Streaming T history e) (hsame : SameStream e e') :
    Streaming T history e' :=
  ⟨hsame.packet_format.trans h.packet_format, fun hn => hsame.compressor.trans (h.compressor hn),
    fun hi => h.inflight (hsame.inflight_buffers.symm.trans hi),
    fun hn => hsame.inflight_buffers.trans (h.plain hn)⟩

/-- `_flushInflight` resets the stream. -/
theorem Streaming._flushInflight {history : H} (h : Streaming T history e) :
    ∃ e', (PacketEncoder._flushInflight : EncoderCall H T.B Unit).run e = .ok () e' ∧ SameTx e e' ∧
      e'.accepted = e.accepted ∧ e'.comp_buffer = e.comp_buffer ∧ Streaming T T.lib.reset e' := by
  obtain ⟨pool, hrun⟩ := _flushInflight_run (e := e)
  refine ⟨_, hrun, ⟨rfl, rfl, rfl, rfl, rfl, rfl⟩, rfl, rfl, h.packet_format, fun hn => ?_,
    fun _ => rfl, fun _ => rfl⟩
  by_cases hi : e.inflight_buffers = []
  · simp only [if_pos hi, h.compressor hn, h.inflight hi]
  · simp only [if_neg hi, h.compressor hn, Option.map_some,
      CompressionStream.resetCompressionStream]

/-- What is assumed of the library: nothing for the format that does not call it. -/
def Bounded (T : Tunnel H) : Prop := T.packet_format ≠ NONE → T.lib.CompressBounded T.l2mtu T.B

section
variable {stream : CompressionStream H} {comp raw : PacketBuffer T.B} {result : StreamResult H}

/-- The compressor gives a length: the compression buffer is the one to encode. -/
theorem compressPacket_pos (hformat : e.packet_format = T.packet_format)
    (hn : T.packet_format ≠ NONE) (hstream : e.compressor = some stream)
    (hcomp : e.comp_buffer = some comp)
    (hresult : stream.lib.compress stream.history raw.data T.B = result)
    (hout : result.output.length ≤ T.B) (hpos : 0 < result.result)
    (hlen : result.result = result.output.length) :
    ∃ buf, buf.data = result.output ∧
      (compressPacket raw raw.dataSize).run e = .ok (buf, T.packet_format) { e with
        compressor := some { stream with history := result.history }
        comp_buffer := none
        inflight_buffers := e.inflight_buffers ++ [raw] } := by
  have hbounds := T.size_bounds
  obtain ⟨comp1, h1, h2, -, -⟩ := PacketBuffer.writeAt_ok comp 0 result.output (by omega)
  obtain ⟨buf, h3, h4, -, h5⟩ := PacketBuffer.setDataSize_ok comp1 hout
  have hsize : result.result % 18446744073709551616 = result.output.length := by omega
  refine ⟨buf, ?_, ?_⟩
  · have := take_overlay comp.content 0 result.output (by rw [comp.content_length]; omega)
    rw [Nat.zero_add, List.take_zero, List.nil_append] at this
    rw [PacketBuffer.data, h4, h2, h5, this]
  · simp only [compressPacket, EStateM.run_bind, EStateM.run_get, hformat, if_neg hn, hstream, hcomp,
      deref_some, raw.slice_zero_dataSize, PacketBuffer.getBufferSize_eq, hresult, h1,
      Call.run_ofExcept_ok, EStateM.run_set, ne_eq, if_pos (ne_of_gt hpos), hsize,
      Int.toNat_natCast, h3, EStateM.run_modify, _pushInflight, EStateM.run_pure]

/-- The compressor gives 0: the raw buffer is, with no format. -/
theorem compressPacket_zero (hformat : e.packet_format = T.packet_format)
    (hn : T.packet_format ≠ NONE) (hstream : e.compressor = some stream)
    (hcomp : e.comp_buffer = some comp)
    (hresult : stream.lib.compress stream.history raw.data T.B = result)
    (hout : result.output.length ≤ T.B) (hzero : result.result = 0) :
    ∃ comp', (compressPacket raw raw.dataSize).run e = .ok (raw, NONE) { e with
      compressor := some { stream with history := result.history }
      comp_buffer := some comp' } := by
  obtain ⟨comp1, h1, -, -, -⟩ := PacketBuffer.writeAt_ok comp 0 result.output (by omega)
  refine ⟨comp1, ?_⟩
  simp only [compressPacket, EStateM.run_bind, EStateM.run_get, hformat, if_neg hn, hstream, hcomp,
    deref_some, raw.slice_zero_dataSize, PacketBuffer.getBufferSize_eq, hresult, h1, hzero,
    Call.run_ofExcept_ok, EStateM.run_set, ne_eq, not_true, if_false, EStateM.run_pure]

/-- The compressor gives an error code: as a size it is out of range. -/
theorem compressPacket_negative (hformat : e.packet_format = T.packet_format)
    (hn : T.packet_format ≠ NONE) (hstream : e.compressor = some stream)
    (hcomp : e.comp_buffer = some comp)
    (hresult : stream.lib.compress stream.history raw.data T.B = result)
    (hout : result.output.length ≤ T.B) (hneg : result.result < 0)
    (hint : -2147483648 ≤ result.result) :
    ∃ e', (compressPacket raw raw.dataSize).run e = .error .outOfRange e' := by
  have hbounds := T.size_bounds
  obtain ⟨comp1, h1, -, -, -⟩ := PacketBuffer.writeAt_ok comp 0 result.output (by omega)
  have hsize : comp1.setDataSize (result.result % 18446744073709551616).toNat = .error .outOfRange :=
    dif_neg (by omega)
  refine ⟨{ e with
    compressor := some { stream with history := result.history }
    comp_buffer := some comp1 }, ?_⟩
  simp only [compressPacket, EStateM.run_bind, EStateM.run_get, hformat, if_neg hn, hstream, hcomp,
    deref_some, raw.slice_zero_dataSize, PacketBuffer.getBufferSize_eq, hresult, h1,
    Call.run_ofExcept_ok, EStateM.run_set, ne_eq, if_pos (ne_of_lt hneg), hsize,
    Call.run_ofExcept_error]

end

/-- **`compressPacket` encodes the frame**, and the stream goes on from its history. -/
theorem compressPacket_run {history : H} {n : Nat} {raw : PacketBuffer T.B} (hlib : Bounded T)
    (hraw : raw.dataSize ≤ T.l2mtu) (h : Streaming T history e)
    (hcomp : T.packet_format ≠ NONE → e.comp_buffer.isSome) :
    ∃ f : EncodedFrame H, f.Valid T ∧ f.index = n ∧ f.frame = raw.data ∧ f.before = history ∧
      ∃ buf e', buf.data = f.bytes ∧
        (compressPacket raw raw.dataSize).run e = .ok (buf, f.format) e' ∧ SameTx e e' ∧
        e'.accepted = e.accepted ∧ Streaming T f.after e' := by
  have hplain : (EncodedFrame.plain n raw.data history).Valid T :=
    EncodedFrame.plain_valid n history (by rw [raw.data_length]; exact hraw)
  by_cases hn : T.packet_format = NONE
  · refine ⟨_, hplain, rfl, rfl, rfl, raw, e, rfl, ?_, ⟨rfl, rfl, rfl, rfl, rfl, rfl⟩, rfl, h⟩
    simp only [compressPacket, EStateM.run_bind, EStateM.run_get, h.packet_format, hn, if_true,
      EncodedFrame.plain, EStateM.run_pure]
  · obtain ⟨comp, hcb⟩ := Option.isSome_iff_exists.mp (hcomp hn)
    have hlen : raw.data.length ≤ T.l2mtu := by
      rw [raw.data_length]
      exact hraw
    obtain ⟨hle, hres⟩ := hlib hn
    have hle := hle history raw.data hlen
    rcases hres history raw.data hlen with ⟨hres, hhist⟩ | ⟨hpos, hres⟩
    · obtain ⟨comp', hrun⟩ := compressPacket_zero h.packet_format hn (h.compressor hn) hcb rfl hle hres
      exact ⟨_, hplain, rfl, rfl, rfl, raw, _, rfl, hrun, ⟨rfl, rfl, rfl, rfl, rfl, rfl⟩, rfl,
        h.packet_format, fun _ => by simp only [hhist, EncodedFrame.plain], h.inflight, h.plain⟩
    · obtain ⟨buf, hbuf, hrun⟩ := compressPacket_pos h.packet_format hn (h.compressor hn) hcb rfl hle
        hpos hres
      refine ⟨⟨n, raw.data, T.packet_format, (T.lib.compress history raw.data T.B).output, history,
          (T.lib.compress history raw.data T.B).history⟩,
        ⟨hlen, hle, Or.inr ⟨hn, rfl, hpos, rfl, rfl⟩⟩, rfl, rfl, rfl, buf, _, hbuf, hrun,
        ⟨rfl, rfl, rfl, rfl, rfl, rfl⟩, rfl, h.packet_format, fun _ => rfl, fun hi => ?_,
        fun hn' => absurd hn' hn⟩
      exact absurd hi (List.append_ne_nil_of_right_ne_nil _ (List.cons_ne_nil _ _))

/-! ## The calls -/

/-- `tx_buffer` is fresh, or has room for the ten options that keep it open. -/
def Room (T : Tunnel H) (e : PacketEncoder H T.B) : Prop :=
  ∃ tx, e.tx_buffer = some tx ∧ PacketHeader.size ≤ tx.dataSize ∧
    (tx.dataSize = PacketHeader.size ∨
      tx.dataSize + PacketHeaderOption.size + (PacketHeader.size + PacketHeaderOption.size * 10) ≤
        T.l4mtu)

/-- **`addPacket` carries the frame**, whole or in parts. -/
theorem addPacket_run {f : EncodedFrame H} {fuel : Nat} {buf : PacketBuffer T.B} (hf : f.Valid T)
    (hbuf : buf.data = f.bytes) (hfuel : T.B ≤ fuel)
    (h : Emitting T s0 (.between f.index f.before) fs e) (hs : Streaming T f.after e)
    (hroom : Room T e) (hacc : e.accepted.length = f.index + 1) :
    (∃ e', (addPacket T.encoder fuel f.frame.length f.format buf).run e = .error .blocked e') ∨
    ∃ e' history, (addPacket T.encoder fuel f.frame.length f.format buf).run e = .ok () e' ∧
      Emitting T s0 (.between (f.index + 1) history) (fs ++ [f.frame]) e' ∧
      Streaming T history e' ∧ e'.accepted = e.accepted := by
  have hbounds := T.size_bounds
  have hbytes := hf.bytes_le
  have hs8 : PacketHeader.size = 8 := rfl
  have ho8 : PacketHeaderOption.size = 8 := rfl
  have hds : buf.dataSize = f.bytes.length := by rw [← buf.data_length, hbuf]
  obtain ⟨tx, htx, h8, hroom⟩ := hroom
  have hmax := fun n => _getMaxPayloadSize_run n htx h8
  simp only [addPacket, EStateM.run_bind, hmax, hds]
  split
  · rename_i hbig
    simp only [EStateM.run_bind]
    rcases partialLoop_run fuel hf hbuf .first (by omega) (by omega) (by simp) h htx
        (by omega) (fun _ => by omega) (fun h0 => absurd h0 (Nat.lt_irrefl 0)) hacc with
      ⟨e', hb⟩ | ⟨e1, hrun, hsame, h1⟩
    · exact Or.inl ⟨e', by rw [Nat.zero_add] at hb; simp only [UInt8.ofNat_one] at hb; simp only [hb]⟩
    · obtain ⟨e2, hrun2, htx2, hacc2, -, hs2⟩ := (hs.congr hsame)._flushInflight
      refine Or.inr ⟨e2, T.lib.reset, ?_, h1.congr htx2, hs2, hacc2.trans hsame.accepted⟩
      rw [Nat.zero_add] at hrun
      simp only [UInt8.ofNat_one] at hrun
      simp only [hrun, hrun2]
  · rename_i hsmall
    rw [Nat.mod_eq_of_lt (by omega)]
    obtain ⟨tx1, hd1, hrun⟩ := addOption_run (Record.whole f).option
      (Record.whole f).payload htx (by
        rw [Record.payload_whole]
        omega)
    rw [List.append_assoc] at hd1
    have hfit : tx.dataSize + (Record.whole f).size ≤ T.l4mtu :=
      (by omega : tx.dataSize + (PacketHeaderOption.size + f.bytes.length) ≤ T.l4mtu)
    have h1 := h.withOption (.whole hf) htx hd1 hfit hacc
    rw [finished_cons_of_finishes _ (Record.finishes_whole f)] at h1
    refine Or.inr ⟨e.withOption tx1, f.after, ?_, h1, ⟨hs.1, hs.2, hs.3, hs.4⟩, rfl⟩
    rw [hbuf]
    rw [Record.payload_whole] at hrun
    exact hrun

/-- `flushIfFull` leaves room in `tx_buffer`. -/
theorem flushIfFull_run {n : Nat} {history : H} (h : Emitting T s0 (.between n history) fs e)
    (hs : Streaming T history e) :
    (∃ e', (flushIfFull T.encoder).run e = .error .blocked e') ∨
    ∃ e' history', (flushIfFull T.encoder).run e = .ok () e' ∧
      Emitting T s0 (.between n history') fs e' ∧ Streaming T history' e' ∧
      e'.accepted = e.accepted ∧ Room T e' := by
  have hbounds := T.size_bounds
  have hs8 : PacketHeader.size = 8 := rfl
  have ho8 : PacketHeaderOption.size = 8 := rfl
  obtain ⟨tx, htx, h8, hle⟩ := h.tx_buffer
  have hmax := fun n => _getMaxPayloadSize_run n htx h8
  by_cases hfull : T.l4mtu - PacketHeaderOption.size - tx.dataSize <
      PacketHeader.size + PacketHeaderOption.size * 10
  · simp only [flushIfFull, EStateM.run_bind, hmax, if_pos hfull]
    rcases h._flush htx (by omega) (fun _ _ _ hc => nomatch hc) with
      ⟨e', hb⟩ | ⟨e1, tx1, hrun, hsame, h1, htx1, h81⟩
    · exact Or.inl ⟨e', by simp only [hb]⟩
    · obtain ⟨e2, hrun2, hsame2, hacc2, -, hs2⟩ := (hs.congr hsame)._flushInflight
      refine Or.inr ⟨e2, T.lib.reset, by simp only [hrun, hrun2], h1.congr hsame2, hs2,
        hacc2.trans hsame.accepted, tx1, hsame2.tx_buffer.trans htx1, by omega, Or.inl h81⟩
  · refine Or.inr ⟨e, history, ?_, h, hs, rfl, tx, htx, h8, Or.inr (by omega)⟩
    simp only [flushIfFull, EStateM.run_bind, hmax, if_neg hfull, EStateM.run_pure]

theorem pushAvailable_run (b : PacketBuffer B) (e : PacketEncoder H B) :
    (pushAvailable b).run e = .ok () { e with
      available_buffer_pool := ⟨e.available_buffer_pool.pool ++ [b]⟩ } := by
  simp only [pushAvailable, EStateM.run_bind, EStateM.run_get, BufferPool.push_packetBuffer,
    Call.run_ofExcept_ok, EStateM.run_set]

/-- A released buffer is the compression buffer of an encoder that is left without one, or goes back
to the pool. -/
theorem release_cases (b : PacketBuffer B) (e : PacketEncoder H B) :
    (release b).run e = .ok () { e with comp_buffer := some b } ∨
    (e.packet_format ≠ NONE → e.comp_buffer.isSome) ∧
      (release b).run e = .ok () { e with
        available_buffer_pool := ⟨e.available_buffer_pool.pool ++ [b]⟩ } := by
  by_cases hc : e.packet_format ≠ NONE ∧ e.comp_buffer.isNone
  · left
    simp only [release, EStateM.run_bind, EStateM.run_get, if_pos hc, EStateM.run_set]
  · right
    refine ⟨fun hn => ?_, ?_⟩
    · exact Option.ne_none_iff_isSome.mp fun h => hc ⟨hn, Option.isNone_iff_eq_none.mpr h⟩
    · simp only [release, EStateM.run_bind, EStateM.run_get, if_neg hc]
      exact pushAvailable_run b e

/-- **The encoder between two calls**, of which the first started with the counter at `s0`. -/
structure Idle (T : Tunnel H) (s0 : UInt32) (e : PacketEncoder H T.B) : Prop where
  stream : ∃ history, Emitting T s0 (.between e.accepted.length history) e.accepted e ∧
    Streaming T history e
  comp_buffer : T.packet_format ≠ NONE → e.comp_buffer.isSome
  room : Room T e

/-- `release` makes the encoder ready for the next call. -/
theorem release_run {history : H} (buf : PacketBuffer T.B)
    (h : Emitting T s0 (.between e.accepted.length history) e.accepted e)
    (hs : Streaming T history e) (hroom : Room T e) :
    ∃ e', (release buf).run e = .ok () e' ∧ e'.accepted = e.accepted ∧ Idle T s0 e' := by
  rcases release_cases buf e with hrun | ⟨hcomp, hrun⟩
  · exact ⟨_, hrun, rfl, ⟨history, h.congr ⟨rfl, rfl, rfl, rfl, rfl, rfl⟩, ⟨hs.1, hs.2, hs.3, hs.4⟩⟩,
      fun _ => rfl, hroom⟩
  · refine ⟨_, hrun, rfl, ⟨history, h.congr ⟨rfl, rfl, rfl, rfl, rfl, rfl⟩, ⟨hs.1, hs.2, hs.3, hs.4⟩⟩,
      fun hn => ?_, hroom⟩
    rw [← hs.packet_format] at hn
    exact hcomp hn

/-- The frame a call adds to the accepted ones. -/
def Op.accepted (T : Tunnel H) : Op T.B → List (List UInt8)
  | .encode raw => if raw.dataSize ≤ T.l2mtu then [raw.data] else []
  | .flush => []

variable {fuel : Nat}

/-- **`encode` accepts the frame and carries it.** -/
theorem encode_run (raw : PacketBuffer T.B) (hlib : Bounded T) (hfuel : T.B ≤ fuel)
    (h : Idle T s0 e) :
    (∃ e', (encode T.encoder fuel raw).run e = .error .blocked e') ∨
    ∃ e', (encode T.encoder fuel raw).run e = .ok () e' ∧ Idle T s0 e' ∧
      e'.accepted = e.accepted ++ Op.accepted T (.encode raw) := by
  have hbounds := T.size_bounds
  have hle := raw.dataSize_le
  obtain ⟨⟨history, hem, hs⟩, hcomp, hroom⟩ := h
  have hsize : raw.dataSize % 65536 = raw.dataSize := Nat.mod_eq_of_lt (by omega)
  by_cases hbig : raw.dataSize > T.encoder.l2mtu
  · refine Or.inr ⟨{ e with available_buffer_pool := ⟨e.available_buffer_pool.pool ++ [raw]⟩ }, ?_,
      ⟨⟨history, hem.congr ⟨rfl, rfl, rfl, rfl, rfl, rfl⟩, hs.1, hs.2, hs.3, hs.4⟩, hcomp, hroom⟩, ?_⟩
    · simp only [encode, hsize, if_pos hbig, EStateM.run_bind, pushAvailable_run raw e,
        EStateM.run_pure]
    · rw [Op.accepted, if_neg (Nat.not_le.mpr hbig), List.append_nil]
  · have hraw : raw.dataSize ≤ T.l2mtu := Nat.not_lt.mp hbig
    rw [Op.accepted, if_pos hraw]
    -- the frame gets its number
    have hem0 : Emitting T s0 (.between e.accepted.length history) e.accepted
        { e with accepted := e.accepted ++ [raw.data] } :=
      hem.congr ⟨rfl, rfl, rfl, rfl, rfl, rfl⟩
    have hs0 : Streaming T history { e with accepted := e.accepted ++ [raw.data] } :=
      ⟨hs.1, hs.2, hs.3, hs.4⟩
    obtain ⟨f, hf, hindex, hframe, hbefore, buf, e1, hbuf, hrun1, htx1, hacc1, hs1⟩ :=
      compressPacket_run (n := e.accepted.length) hlib hraw hs0 hcomp
    rw [← hindex, ← hbefore] at hem0
    have hroom1 : Room T e1 := by rwa [Room, htx1.tx_buffer]
    rcases addPacket_run hf hbuf hfuel (hem0.congr htx1) hs1 hroom1
        (by rw [hacc1, List.length_append, hindex]; rfl) with ⟨e', hb⟩ | ⟨e2, h2, hrun2, hem2, hs2, hacc2⟩
    · left
      refine ⟨e', ?_⟩
      rw [hframe, raw.data_length] at hb
      simp only [encode, hsize, if_neg hbig, EStateM.run_bind, EStateM.run_modify, hrun1, hb]
    rcases flushIfFull_run hem2 hs2 with ⟨e', hb⟩ | ⟨e3, h3, hrun3, hem3, hs3, hacc3, hroom3⟩
    · left
      refine ⟨e', ?_⟩
      rw [hframe, raw.data_length] at hrun2
      simp only [encode, hsize, if_neg hbig, EStateM.run_bind, EStateM.run_modify, hrun1, hrun2, hb]
    have hacc : e3.accepted = e.accepted ++ [raw.data] := by rw [hacc3, hacc2, hacc1]
    rw [hframe, ← hacc, hindex] at hem3
    have hlen : e.accepted.length + 1 = e3.accepted.length := by rw [hacc, List.length_append]; rfl
    rw [hlen] at hem3
    obtain ⟨e4, hrun4, hacc4, hidle⟩ := release_run buf hem3 hs3 hroom3
    refine Or.inr ⟨e4, ?_, hidle, hacc4.trans hacc⟩
    rw [hframe, raw.data_length] at hrun2
    simp only [encode, hsize, if_neg hbig, EStateM.run_bind, EStateM.run_modify, hrun1, hrun2, hrun3,
      hrun4]

/-- A fresh `tx_buffer` holds no record, so the stream stands at the start of a datagram. -/
theorem Emitted.pending_eq_nil {ds : List (Datagram H)} {pending : List (Record H)} {c0 : Cursor H}
    (h : Emitted T s0 ds pending c0 c e) (htx : e.tx_buffer = some tx)
    (h8 : tx.dataSize = PacketHeader.size) : pending = [] := by
  obtain ⟨tx0, htx0, hsize, -⟩ := h.tx
  obtain rfl : tx0 = tx := Option.some.inj (htx0.symm.trans htx)
  cases pending with
  | nil => rfl
  | cons r rs =>
    have ho8 : PacketHeaderOption.size = 8 := rfl
    rw [sizeOfRecords_cons, Record.size] at hsize
    omega

theorem Emitting.cut_eq (h : Emitting T s0 c fs e) (htx : e.tx_buffer = some tx)
    (h8 : tx.dataSize = PacketHeader.size) : c.cut T = c := by
  obtain ⟨ds, pending, c0, h, -⟩ := h
  obtain rfl := h.pending_eq_nil htx h8
  obtain rfl := StepPath.nil_iff.mp h.laid
  exact h.start

/-- **`flush` sends what `tx_buffer` holds.** -/
theorem flush_run (h : Idle T s0 e) :
    (∃ e', (flush T.encoder).run e = .error .blocked e') ∨
    ∃ e', (flush T.encoder).run e = .ok () e' ∧ Idle T s0 e' ∧ e'.accepted = e.accepted ∧
      ∃ tx, e'.tx_buffer = some tx ∧ tx.dataSize = PacketHeader.size := by
  obtain ⟨⟨history, hem, hs⟩, hcomp, tx, htx, h8, hroom⟩ := h
  by_cases hempty : tx.dataSize = PacketHeader.size
  · obtain ⟨e', hrun, hsame, hacc, hcb, hs'⟩ := hs._flushInflight
    have htx' := hsame.tx_buffer.trans htx
    have hem' : Emitting T s0 (.between e'.accepted.length T.lib.reset) e'.accepted e' := by
      have hcut : Cursor.between e.accepted.length T.lib.reset = .between e.accepted.length history :=
        hem.cut_eq htx hempty
      rw [hacc, hcut]
      exact hem.congr hsame
    refine Or.inr ⟨e', ?_, ⟨⟨_, hem', hs'⟩, fun hn => hcb ▸ hcomp hn, tx, htx', h8, Or.inl hempty⟩,
      hacc, tx, htx', hempty⟩
    simp only [flush, EStateM.run_bind, _flush_run_empty htx hempty, hrun]
  · rcases hem._flush htx hempty (fun _ _ _ hc => nomatch hc) with
      ⟨e', hb⟩ | ⟨e1, tx1, hrun1, hsame1, hem1, htx1, h81⟩
    · exact Or.inl ⟨e', by simp only [flush, EStateM.run_bind, hb]⟩
    · obtain ⟨e2, hrun2, hsame2, hacc2, hcb2, hs2⟩ := (hs.congr hsame1)._flushInflight
      have hacc : e2.accepted = e.accepted := hacc2.trans hsame1.accepted
      have htx2 := hsame2.tx_buffer.trans htx1
      refine Or.inr ⟨e2, ?_, ⟨⟨_, hacc.symm ▸ hem1.congr hsame2, hs2⟩, fun hn => ?_, tx1, htx2,
        by omega, Or.inl h81⟩, hacc, tx1, htx2, h81⟩
      · simp only [flush, EStateM.run_bind, hrun1, hrun2]
      · rw [hcb2, hsame1.comp_buffer]
        exact hcomp hn

/-! ## Runs -/

/-- A new encoder. -/
structure Fresh (e : PacketEncoder H B) : Prop where
  tx : ∃ tx, e.tx_buffer = some tx ∧ tx.dataSize = PacketHeader.size
  opt_len : e.opt_len = 0
  packet_count : e.packet_count = 0
  tx_buffer_pool : e.tx_buffer_pool.pool = []
  carriers : e.carriers = []
  accepted : e.accepted = []
  inflight_buffers : e.inflight_buffers = []
  comp_buffer : e.comp_buffer.isSome

theorem new_meets (available : BufferPool (PacketBuffer B) B) (hB : PacketHeader.size ≤ B) :
    Call.Meets (· = (init ⟨[]⟩ available : PacketEncoder H B)) new (fun _ => Fresh)
      (fun x _ => x = .blocked) := by
  rintro _ rfl
  obtain ⟨pool⟩ := available
  cases pool with
  | nil => rfl
  | cons b rest =>
    have hnew : (new : EncoderCall H B Unit).run (init ⟨[]⟩ ⟨b :: rest⟩) =
        (_getTxBuffer : EncoderCall H B Unit).run
          { (init ⟨[]⟩ ⟨rest⟩ : PacketEncoder H B) with comp_buffer := some b } := rfl
    rw [hnew]
    rcases _getTxBuffer_run (H := H)
        (e := { (init ⟨[]⟩ ⟨rest⟩ : PacketEncoder H B) with comp_buffer := some b }) hB with
      ⟨-, hb⟩ | ⟨tx, h8, hrun⟩
    · rw [hb]
    · rw [hrun]
      exact ⟨⟨tx, rfl, h8⟩, rfl, rfl, rfl, rfl, rfl, rfl, rfl⟩

theorem Fresh.idle {seq : UInt32} (h : Fresh e) (hseq : e.sequence = seq)
    (hformat : e.packet_format = T.packet_format)
    (hcomp : T.packet_format ≠ NONE → e.compressor = some (.new T.lib)) : Idle T seq e := by
  obtain ⟨tx, htx, h8⟩ := h.tx
  have hbounds := T.size_bounds
  have hs8 : PacketHeader.size = 8 := rfl
  refine ⟨⟨T.lib.reset, ⟨[], [], .between 0 T.lib.reset, ?_, h.accepted.symm⟩, hformat, hcomp,
    fun _ => rfl, fun _ => h.inflight_buffers⟩, fun _ => h.comp_buffer, tx, htx, by omega, Or.inl h8⟩
  rw [h.accepted]
  exact
    { sent := hseq ▸ .nil _
      start := rfl
      laid := .nil _
      tx := ⟨tx, htx, h8, List.drop_eq_nil_of_le (by rw [tx.data_length, h8])⟩
      size_le := by rw [sizeOfRecords_nil]; omega
      opt_len := h.opt_len
      packet_count := h.packet_count
      pool := by rw [h.tx_buffer_pool]; rfl
      carriers := h.carriers }

theorem setPacketFormat_meets (seq : UInt32) :
    Call.Meets (fun e => Fresh e ∧ e.sequence = seq) (setPacketFormat T.libs T.packet_format)
      (fun _ e => Idle T seq e ∧ e.accepted = []) (fun x _ => x = .blocked) := by
  rintro e ⟨h, hseq⟩
  have hfresh : ∀ comp : Option (CompressionStream H),
      Fresh { e with packet_format := T.packet_format, compressor := comp } :=
    fun _ => ⟨h.1, h.2, h.3, h.4, h.5, h.6, h.7, h.8⟩
  rcases T.known with hf | hf | hf
  · have hrun : (setPacketFormat T.libs T.packet_format).run e =
        .ok () { e with packet_format := T.packet_format, compressor := none } := by rw [hf]; rfl
    rw [hrun]
    exact ⟨(hfresh _).idle hseq rfl fun hn => absurd hf hn, h.accepted⟩
  · have hrun : (setPacketFormat T.libs T.packet_format).run e =
        .ok () { e with packet_format := T.packet_format, compressor := some (.new T.libs.lz4) } := by
      rw [hf]; rfl
    rw [hrun]
    exact ⟨(hfresh _).idle hseq rfl fun _ => by rw [Tunnel.lib, hf]; rfl, h.accepted⟩
  · have hrun : (setPacketFormat T.libs T.packet_format).run e =
        .ok () { e with packet_format := T.packet_format, compressor := some (.new T.libs.zstd) } := by
      rw [hf]; rfl
    rw [hrun]
    exact ⟨(hfresh _).idle hseq rfl fun _ => by rw [Tunnel.lib, hf]; rfl, h.accepted⟩

/-- One call keeps the encoder ready, and adds its frame to the accepted ones. -/
theorem step_meets (hlib : Bounded T) (hfuel : T.B ≤ fuel) (fs : List (List UInt8)) (op : Op T.B) :
    Call.Meets (fun e => Idle T s0 e ∧ e.accepted = fs) (step T.encoder fuel op)
      (fun _ e => Idle T s0 e ∧ e.accepted = fs ++ op.accepted T) (fun x _ => x = .blocked) := by
  rintro e ⟨h, hacc⟩
  cases op with
  | encode raw =>
    rcases encode_run raw hlib hfuel h with ⟨e', hb⟩ | ⟨e', hrun, h', hacc'⟩
    · simp only [step, hb]
    · simp only [step, hrun]
      exact ⟨h', hacc ▸ hacc'⟩
  | flush =>
    rcases flush_run h with ⟨e', hb⟩ | ⟨e', hrun, h', hacc', -⟩
    · simp only [step, hb]
    · simp only [step, hrun]
      exact ⟨h', by rw [hacc', hacc, Op.accepted, List.append_nil]⟩

/-- **Every run of `encode` and `flush`** returns, or waits for a buffer; it emits a stream that
carries the accepted frames. -/
theorem encoderCalls_meets (hlib : Bounded T) (hfuel : T.B ≤ fuel) (seq : UInt32)
    (available : BufferPool (PacketBuffer T.B) T.B) (ops : List (Op T.B)) :
    Call.Meets (· = init ⟨[]⟩ available) (T.encoderCalls fuel seq ops)
      (fun _ e => Idle T seq e ∧ e.accepted = ops.flatMap (Op.accepted T))
      (fun x _ => x = .blocked) := by
  have hbounds := T.size_bounds
  have hs8 : PacketHeader.size = 8 := rfl
  refine (new_meets available (by omega)).bind fun _ => ?_
  refine Call.Meets.bind (Q := fun _ e => Fresh e ∧ e.sequence = seq)
    (fun e h => ⟨⟨h.1, h.2, h.3, h.4, h.5, h.6, h.7, h.8⟩, rfl⟩) fun _ => ?_
  refine (setPacketFormat_meets seq).bind fun _ => ?_
  exact Call.Meets.runAll_prefix
    (I := fun done e => Idle T seq e ∧ e.accepted = done.flatMap (Op.accepted T))
    (fun done op => (step_meets hlib hfuel (done.flatMap (Op.accepted T)) op).mono (fun _ h => h)
      (fun _ e h => by rwa [List.flatMap_append, List.flatMap_singleton]) (fun _ _ h => h)) ops []

end PacketEncoder
end SuperEthd
