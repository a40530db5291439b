import SuperEthd.Segmentation

/-! # The encoder emits streams of datagrams

The state of a `PacketEncoder` holds a stream (`Emitted`): the datagrams in its TX pool are
those sent so far, and the data of `tx_buffer` are the records of the one it is filling.
Laying a record down is a step of `Follows`, and `_flush` a step of `Sends`; so every run of
`encode` and `flush` emits a stream that carries the accepted frames. -/
namespace SuperEthd
open PacketHeaderOptionType PacketHeaderOptionFormatType

variable {H : Type} {B : Nat}

namespace PacketEncoder
variable {cfg : EncoderConfig} {e : PacketEncoder H B} {tx : PacketBuffer B}

/-! ## What the private members do -/

theorem _getMaxPayloadSize_eq (n : Nat) (hl : cfg.l4mtu < 65536) (htx : e.tx_buffer = some tx)
    (h8 : PacketHeader.size ≤ tx.dataSize) :
    (_getMaxPayloadSize cfg n).run e = .ok (cfg.l4mtu - PacketHeaderOption.size - tx.dataSize) e := by
  have h0 : tx.dataSize ≠ 0 := fun h0 => by
    rw [h0] at h8
    cases h8
  simp only [_getMaxPayloadSize, EStateM.run_bind, EStateM.run_get, htx, deref_some, if_neg h0]
  split
  · rw [EStateM.run_pure]
    congr 1
    omega
  · rw [EStateM.run_pure]
    congr 1
    omega

theorem _getMaxPayloadSize_run {T : Tunnel H} {e : PacketEncoder H T.B} {tx : PacketBuffer T.B} (n : Nat)
    (htx : e.tx_buffer = some tx) (h8 : PacketHeader.size ≤ tx.dataSize) :
    (_getMaxPayloadSize T.encoder n).run e =
      .ok (T.l4mtu - PacketHeaderOption.size - tx.dataSize) e := by
  have hbounds := T.size_bounds
  exact _getMaxPayloadSize_eq n (show T.l4mtu < 65536 by omega) htx h8

theorem txDataSize_run (htx : e.tx_buffer = some tx) : txDataSize.run e = .ok tx.dataSize e := by
  simp only [txDataSize, EStateM.run_bind, EStateM.run_get, htx, deref_some, EStateM.run_pure]

theorem _flushInflight_run :
    ∃ pool, (_flushInflight : EncoderCall H B Unit).run e = .ok () { e with
      available_buffer_pool := pool
      inflight_buffers := []
      compressor :=
        if e.inflight_buffers = [] then e.compressor
        else e.compressor.map CompressionStream.resetCompressionStream } := by
  cases h : e.inflight_buffers with
  | nil =>
    refine ⟨e.available_buffer_pool, ?_⟩
    simp only [_flushInflight, EStateM.run_bind, EStateM.run_get, h, List.isEmpty_nil, if_true,
      EStateM.run_pure]
    rw [← h]
  | cons b bs =>
    refine ⟨⟨e.available_buffer_pool.pool ++ e.inflight_buffers⟩, ?_⟩
    simp [_flushInflight, EStateM.run_bind, EStateM.run_get, h]

theorem _getTxBuffer_run (hB : PacketHeader.size ≤ B) :
    e.available_buffer_pool.pool = [] ∧
      (_getTxBuffer : EncoderCall H B Unit).run e = .error .blocked e ∨
    ∃ tx', tx'.dataSize = PacketHeader.size ∧ _getTxBuffer.run e = .ok () { e with
      tx_buffer := some tx'
      available_buffer_pool := ⟨e.available_buffer_pool.pool.tail⟩
      opt_len := 0
      packet_count := 0 } := by
  cases h : e.available_buffer_pool.pool with
  | nil =>
    refine Or.inl ⟨rfl, ?_⟩
    simp [_getTxBuffer, BufferPool.pop_wait, h]
  | cons b bs =>
    right
    obtain ⟨tx', h1, -, -, h2⟩ := PacketBuffer.setDataSize_ok b.clear hB
    refine ⟨tx', h2, ?_⟩
    simp [_getTxBuffer, BufferPool.pop_wait, h, h1]

variable (cfg) in
/-- `_flush` of a datagram that has a record: it gets its header and goes to the TX pool. -/
theorem _flush_run (htx : e.tx_buffer = some tx) (h8 : PacketHeader.size < tx.dataSize) :
    (e.available_buffer_pool.pool = [] ∧ ∃ e', (_flush cfg).run e = .error .blocked e') ∨
    ∃ sent tx', tx'.dataSize = PacketHeader.size ∧
      sent.data = (header (nextSequence e.sequence) e.opt_len).bytes cfg.host ++
        tx.data.drop PacketHeader.size ∧
      (_flush cfg).run e = .ok () { e with
        sequence := nextSequence e.sequence + 1
        tx_buffer := some tx'
        available_buffer_pool := ⟨e.available_buffer_pool.pool.tail⟩
        tx_buffer_pool := ⟨e.tx_buffer_pool.pool ++ [sent]⟩
        opt_len := 0
        packet_count := 0 } := by
  have hB : PacketHeader.size ≤ B := (Nat.le_of_lt h8).trans tx.dataSize_le
  obtain ⟨sent, h1, h2, -, -⟩ := PacketBuffer.writeAt_data tx 0
    ((header (nextSequence e.sequence) e.opt_len).bytes cfg.host)
    (by rw [PacketHeader.bytes_length]; omega)
  rw [overlay, PacketHeader.bytes_length, List.take_zero, List.nil_append, Nat.zero_add] at h2
  let e1 : PacketEncoder H B := { e with
    sequence := nextSequence e.sequence + 1
    tx_buffer := none
    tx_buffer_pool := ⟨e.tx_buffer_pool.pool ++ [sent]⟩ }
  have hrun : (_flush cfg).run e = (_getTxBuffer : EncoderCall H B Unit).run e1 := by
    simp only [_flush, EStateM.run_bind, EStateM.run_get, htx, deref_some, if_neg (Nat.ne_of_gt h8),
      h1, Call.run_ofExcept_ok, BufferPool.push_packetBuffer, EStateM.run_set, e1]
  rw [hrun]
  rcases _getTxBuffer_run (e := e1) hB with ⟨he, h⟩ | ⟨tx', h3, h⟩
  · exact Or.inl ⟨he, _, h⟩
  · exact Or.inr ⟨sent, tx', h3, h2, h⟩

/-- `_flush` does nothing when `tx_buffer` has only the space of the header. -/
theorem _flush_run_empty (htx : e.tx_buffer = some tx) (h8 : tx.dataSize = PacketHeader.size) :
    (_flush cfg).run e = .ok () e := by
  simp only [_flush, EStateM.run_bind, EStateM.run_get, htx, deref_some, if_pos h8, EStateM.run_pure]

/-- The encoder after `addOption` made `tx` its `tx_buffer`. -/
def withOption (e : PacketEncoder H B) (tx : PacketBuffer B) : PacketEncoder H B :=
  { e with
    tx_buffer := some tx
    opt_len := if e.packet_count = 0 then e.opt_len + 1 else e.opt_len
    packet_count := e.packet_count + 1
    carriers := e.carriers ++ [(e.accepted.length - 1, e.tx_buffer_pool.pool.length)] }

/-- `addOption` puts the option and its payload behind the data of `tx_buffer`. -/
theorem addOption_run (o : PacketHeaderOption) (payload : List UInt8) (htx : e.tx_buffer = some tx)
    (hfit : tx.dataSize + PacketHeaderOption.size + payload.length ≤ B) :
    ∃ tx', tx'.data = tx.data ++ o.bytes ++ payload ∧
      (addOption o payload).run e = .ok () (e.withOption tx') := by
  obtain ⟨tx1, h1, hc1, -, -⟩ := PacketBuffer.writeAt_ok tx tx.dataSize o.bytes
    (by rw [o.bytes_length]; omega)
  obtain ⟨tx2, h2, hc2, -, hs2⟩ := PacketBuffer.setDataSize_ok tx1
    (show tx.dataSize + PacketHeaderOption.size ≤ B by omega)
  obtain ⟨tx3, h3, hd3, -, -⟩ := PacketBuffer.append_ok tx2 payload (by omega)
  refine ⟨tx3, ?_, ?_⟩
  · rw [hd3, PacketBuffer.data, hs2, hc2, hc1, ← o.bytes_length, take_overlay]
    · rfl
    · rw [tx.content_length, o.bytes_length]
      omega
  · simp only [addOption, EStateM.run_bind, EStateM.run_get, htx, deref_some, h1, h2, h3,
      Call.run_ofExcept_ok, EStateM.run_set]
    rfl

/-- `setOptionType` writes the type of an option that stands behind `pre`. -/
theorem setOptionType_run {pre post : List UInt8} {o : PacketHeaderOption}
    (type : PacketHeaderOptionType) (htx : e.tx_buffer = some tx)
    (hd : tx.data = pre ++ o.bytes ++ post) :
    ∃ tx', tx'.data = pre ++ { o with type := type }.bytes ++ post ∧
      (setOptionType pre.length type).run e = .ok () { e with tx_buffer := some tx' } := by
  have hlen := tx.data_length
  rw [hd, List.length_append, List.length_append, PacketHeaderOption.bytes_length] at hlen
  have h8 : PacketHeaderOption.size = 8 := rfl
  obtain ⟨tx', h1, h2, -, -⟩ := PacketBuffer.writeAt_data tx pre.length [type]
    (by rw [List.length_singleton]; omega)
  refine ⟨tx', ?_, ?_⟩
  · have hrest := overlay_append pre [o.type] (o.bytes.tail ++ post) [type] rfl
    rw [h2, hd]
    simpa [PacketHeaderOption.bytes] using hrest
  · simp only [setOptionType, EStateM.run_bind, EStateM.run_get, htx, deref_some, h1,
      Call.run_ofExcept_ok, EStateM.run_set]

/-- `addPartOption` puts the option, with its final type, and its payload behind the data. -/
theorem addPartOption_run (o : PacketHeaderOption) (payload : List UInt8) (last : Bool)
    (htx : e.tx_buffer = some tx)
    (hfit : tx.dataSize + PacketHeaderOption.size + payload.length ≤ B) :
    ∃ tx', tx'.data = tx.data ++
        { o with type := if last then PARTIAL_PACKET ||| COMPLETE_PACKET else o.type }.bytes ++
        payload ∧
      (addPartOption o payload last).run e = .ok () (e.withOption tx') := by
  obtain ⟨tx1, h1, hrun1⟩ := addOption_run o payload htx hfit
  cases last with
  | false =>
    refine ⟨tx1, h1, ?_⟩
    simp only [addPartOption, EStateM.run_bind, txDataSize_run htx, hrun1, Bool.false_eq_true,
      if_false, EStateM.run_pure]
  | true =>
    obtain ⟨tx2, h2, hrun2⟩ := setOptionType_run (e := e.withOption tx1)
      (PARTIAL_PACKET ||| COMPLETE_PACKET) rfl h1
    rw [tx.data_length] at hrun2
    refine ⟨tx2, h2, ?_⟩
    simp only [addPartOption, EStateM.run_bind, txDataSize_run htx, hrun1, if_true, hrun2]
    rfl

section Part
variable (cfg) (original_size : Nat) (format : PacketHeaderOptionFormatType) (packetBuffer : PacketBuffer B)
  (part : UInt8) (packet_pos : Nat)

/-- The body of the loop, up to the flush of a full datagram (`addPart_eq_layPart`). -/
def layPart : EncoderCall H B Nat := do
  let packet_left := (packetBuffer.dataSize - packet_pos) % 65536
  let max_payload_size ← _getMaxPayloadSize cfg packet_left
  let part_size := if packet_left > max_payload_size then max_payload_size else packet_left
  addPartOption
    { type := PARTIAL_PACKET
      packet_size := original_size
      format := format
      payload_length := part_size
      part := part
      reserved := 0 }
    (packetBuffer.slice packet_pos part_size) (packet_left - part_size == 0)
  return part_size

theorem addPart_eq_layPart :
    (addPart cfg original_size format packetBuffer part packet_pos : EncoderCall H B Nat) = (do
      let part_size ← layPart cfg original_size format packetBuffer part packet_pos
      flushIfExact cfg
      return part_size) := by
  simp only [addPart, layPart, bind_assoc, pure_bind]

variable {cfg packetBuffer packet_pos}

/-- **A part** is laid: a byte of the packet at least, and either the rest or what fills the
datagram. -/
theorem layPart_run (hl : cfg.l4mtu ≤ B) (hB : B ≤ 65535) (htx : e.tx_buffer = some tx)
    (h8 : PacketHeader.size ≤ tx.dataSize)
    (hroom : tx.dataSize + PacketHeaderOption.size < cfg.l4mtu)
    (hpos : packet_pos < packetBuffer.dataSize) :
    ∃ part_size tx', (layPart cfg original_size format packetBuffer part packet_pos).run e =
        .ok part_size (e.withOption tx') ∧ 0 < part_size ∧
      packet_pos + part_size ≤ packetBuffer.dataSize ∧
      tx'.data = tx.data ++ PacketHeaderOption.bytes {
        type :=
          if packetBuffer.dataSize - packet_pos - part_size == 0 then PARTIAL_PACKET ||| COMPLETE_PACKET
          else PARTIAL_PACKET
        packet_size := original_size
        format := format
        payload_length := part_size
        part := part
        reserved := 0 } ++ packetBuffer.slice packet_pos part_size ∧
      tx.dataSize + PacketHeaderOption.size + part_size ≤ cfg.l4mtu ∧
      (packet_pos + part_size < packetBuffer.dataSize →
        tx.dataSize + PacketHeaderOption.size + part_size = cfg.l4mtu) := by
  have hle := packetBuffer.dataSize_le
  have hmax := fun n => _getMaxPayloadSize_eq n (show cfg.l4mtu < 65536 by omega) htx h8
  have hleft : (packetBuffer.dataSize - packet_pos) % 65536 = packetBuffer.dataSize - packet_pos :=
    Nat.mod_eq_of_lt (by omega)
  -- what is left, or what fits
  obtain ⟨part_size, hsize⟩ : ∃ part_size, part_size =
      if packetBuffer.dataSize - packet_pos > cfg.l4mtu - PacketHeaderOption.size - tx.dataSize then
        cfg.l4mtu - PacketHeaderOption.size - tx.dataSize
      else packetBuffer.dataSize - packet_pos := ⟨_, rfl⟩
  obtain ⟨h0, hfits, hfit, hfull⟩ : 0 < part_size ∧ packet_pos + part_size ≤ packetBuffer.dataSize ∧
      tx.dataSize + PacketHeaderOption.size + part_size ≤ cfg.l4mtu ∧
      (packet_pos + part_size < packetBuffer.dataSize →
        tx.dataSize + PacketHeaderOption.size + part_size = cfg.l4mtu) := by
    split at hsize <;> omega
  obtain ⟨tx', hdata, hrun⟩ := addPartOption_run
    { type := PARTIAL_PACKET
      packet_size := original_size
      format := format
      payload_length := part_size
      part := part
      reserved := 0 } (packetBuffer.slice packet_pos part_size)
    (packetBuffer.dataSize - packet_pos - part_size == 0) htx
    (by rw [packetBuffer.slice_length hfits]; omega)
  refine ⟨part_size, tx', ?_, h0, hfits, hdata, hfit, hfull⟩
  simp only [layPart, EStateM.run_bind, hleft, hmax, ← hsize, hrun, EStateM.run_pure]

end Part

/-! ## The stream an encoder holds -/

variable {T : Tunnel H} {s0 : UInt32}

/-- The carriers of the records, datagram by datagram. -/
def carriersOf (rss : List (List (Record H))) : List (Nat × Nat) :=
  rss.zipIdx.flatMap fun (rs, i) => rs.map fun r => (r.of.index, i)

theorem carriersOf_concat (rss : List (List (Record H))) (rs : List (Record H)) :
    carriersOf (rss ++ [rs]) = carriersOf rss ++ rs.map fun r => (r.of.index, rss.length) := by
  simp [carriersOf, List.zipIdx_append]

/-- **The encoder holds a stream**: `ds` has been sent, starting with the counter at `s0`, and
`tx_buffer` holds the records `pending`, which lead from the start `c0` of a datagram to `c`. -/
structure Emitted (T : Tunnel H) (s0 : UInt32) (ds : List (Datagram H)) (pending : List (Record H))
    (c0 c : Cursor H) (e : PacketEncoder H T.B) : Prop where
  sent : StepPath (Sends T) (.between 0 T.lib.reset, s0) ds (c0, e.sequence)
  start : c0.cut T = c0
  laid : StepPath (Follows T) c0 pending c
  tx : ∃ tx, e.tx_buffer = some tx ∧ tx.dataSize = PacketHeader.size + sizeOfRecords pending ∧
    tx.data.drop PacketHeader.size = pending.flatMap Record.bytes
  size_le : PacketHeader.size + sizeOfRecords pending ≤ T.l4mtu
  opt_len : e.opt_len = if pending = [] then 0 else 1
  packet_count : e.packet_count = pending.length
  pool : e.tx_buffer_pool.pool.map PacketBuffer.data = ds.map (Datagram.bytes T.host)
  carriers : e.carriers = carriersOf (ds.map Datagram.records ++ [pending])

namespace Emitted
variable {ds : List (Datagram H)} {pending : List (Record H)} {c0 c c' : Cursor H} {r : Record H}
  {e : PacketEncoder H T.B} {tx tx' : PacketBuffer T.B}

/-- **Laying a record down**, when there is room for it. -/
theorem withOption (h : Emitted T s0 ds pending c0 c e) (hr : Follows T c r c')
    (htx : e.tx_buffer = some tx) (hdata : tx'.data = tx.data ++ r.bytes)
    (hroom : tx.dataSize + r.size ≤ T.l4mtu) (hindex : e.accepted.length = r.of.index + 1) :
    Emitted T s0 ds (pending ++ [r]) c0 c' (e.withOption tx') := by
  obtain ⟨tx0, htx0, hsize, hbytes⟩ := h.tx
  obtain rfl : tx0 = tx := Option.some.inj (htx0.symm.trans htx)
  have hlen : tx'.dataSize = tx0.dataSize + r.size := by
    rw [← tx'.data_length, hdata, List.length_append, tx0.data_length, r.bytes_length]
  exact
    { sent := h.sent
      start := h.start
      laid := h.laid.concat hr
      tx := by
        refine ⟨tx', rfl, ?_, ?_⟩
        · simp only [hlen, hsize, sizeOfRecords_append, sizeOfRecords_cons, sizeOfRecords_nil]
          omega
        · rw [hdata, List.drop_append_of_le_length (by rw [tx0.data_length]; omega), hbytes,
            List.flatMap_append, List.flatMap_singleton]
      size_le := by
        simp only [sizeOfRecords_append, sizeOfRecords_cons, sizeOfRecords_nil]
        omega
      opt_len := by
        have h1 := h.opt_len
        have h2 := h.packet_count
        cases pending with
        | nil => simp [PacketEncoder.withOption, h1, h2]
        | cons => simp [PacketEncoder.withOption, h1, h2]
      packet_count := by simp [PacketEncoder.withOption, h.packet_count]
      pool := h.pool
      carriers := by
        have hcount : e.tx_buffer_pool.pool.length = ds.length := by
          simpa using congrArg List.length h.pool
        rw [PacketEncoder.withOption, h.carriers, carriersOf_concat, carriersOf_concat, hcount,
          hindex, List.map_append, List.append_assoc, List.length_map]
        rfl }

/-- **Sending the datagram**: `_flush` is a step of `Sends`. -/
theorem send (h : Emitted T s0 ds pending c0 c e) (hne : pending ≠ [])
    (hfull : ∀ f k off, c = .full f k off → PacketHeader.size + sizeOfRecords pending = T.l4mtu)
    (htx : e.tx_buffer = some tx) {sent : PacketBuffer T.B} {pool : BufferPool (PacketBuffer T.B) T.B}
    (hsent : sent.data = (header (nextSequence e.sequence) e.opt_len).bytes T.host ++
      tx.data.drop PacketHeader.size) (htx' : tx'.dataSize = PacketHeader.size) :
    Emitted T s0 (ds ++ [⟨nextSequence e.sequence, pending⟩]) [] (c.cut T) (c.cut T) { e with
      sequence := nextSequence e.sequence + 1
      tx_buffer := some tx'
      available_buffer_pool := pool
      tx_buffer_pool := ⟨e.tx_buffer_pool.pool ++ [sent]⟩
      opt_len := 0
      packet_count := 0 } := by
  obtain ⟨tx0, htx0, -, hbytes⟩ := h.tx
  obtain rfl : tx0 = tx := Option.some.inj (htx0.symm.trans htx)
  have hbounds := T.size_bounds
  have h8 : PacketHeader.size = 8 := rfl
  refine
    { sent := h.sent.concat ⟨⟨⟨c, h.laid, rfl, hfull⟩, hne, h.size_le⟩, rfl, rfl⟩
      start := c.cut_cut T
      laid := .nil _
      tx := ⟨tx', rfl, htx', ?_⟩
      size_le := by rw [sizeOfRecords_nil]; omega
      opt_len := rfl
      packet_count := rfl
      pool := ?_
      carriers := ?_ }
  · exact List.drop_eq_nil_of_le (by rw [tx'.data_length, htx'])
  · rw [List.map_append, List.map_append, h.pool, List.map_singleton, List.map_singleton, hsent,
      hbytes, h.opt_len, if_neg hne]
    rfl
  · rw [List.map_append, carriersOf_concat, List.map_nil, List.append_nil]
    exact h.carriers

end Emitted

/-- The two states agree on the members that `_flush` and the laying of options leave alone. -/
structure SameStream (e e' : PacketEncoder H B) : Prop where
  packet_format : e'.packet_format = e.packet_format
  inflight_buffers : e'.inflight_buffers = e.inflight_buffers
  compressor : e'.compressor = e.compressor
  comp_buffer : e'.comp_buffer = e.comp_buffer
  accepted : e'.accepted = e.accepted

theorem SameStream.trans {e1 e2 e3 : PacketEncoder H B} (h1 : SameStream e1 e2)
    (h2 : SameStream e2 e3) : SameStream e1 e3 :=
  ⟨h2.1.trans h1.1, h2.2.trans h1.2, h2.3.trans h1.3, h2.4.trans h1.4, h2.5.trans h1.5⟩

/-- The encoder holds a stream that has come to `c`; the frames `fs` end in it. -/
def Emitting (T : Tunnel H) (s0 : UInt32) (c : Cursor H) (fs : List (List UInt8))
    (e : PacketEncoder H T.B) : Prop :=
  ∃ ds pending c0, Emitted T s0 ds pending c0 c e ∧
    (finished (ds.flatMap Datagram.records ++ pending)).map EncodedFrame.frame = fs

namespace Emitting
variable {c c' : Cursor H} {r : Record H} {fs : List (List UInt8)} {e : PacketEncoder H T.B}
  {tx tx' : PacketBuffer T.B}

theorem tx_buffer (h : Emitting T s0 c fs e) :
    ∃ tx, e.tx_buffer = some tx ∧ PacketHeader.size ≤ tx.dataSize ∧ tx.dataSize ≤ T.l4mtu := by
  obtain ⟨ds, pending, c0, h, -⟩ := h
  obtain ⟨tx, h1, h2, -⟩ := h.tx
  exact ⟨tx, h1, by omega, h2 ▸ h.size_le⟩

theorem withOption (h : Emitting T s0 c fs e) (hr : Follows T c r c')
    (htx : e.tx_buffer = some tx) (hdata : tx'.data = tx.data ++ r.bytes)
    (hroom : tx.dataSize + r.size ≤ T.l4mtu) (hindex : e.accepted.length = r.of.index + 1) :
    Emitting T s0 c' (fs ++ (finished [r]).map EncodedFrame.frame) (e.withOption tx') := by
  obtain ⟨ds, pending, c0, h, rfl⟩ := h
  refine ⟨ds, pending ++ [r], c0, h.withOption hr htx hdata hroom hindex, ?_⟩
  rw [← List.append_assoc, finished_append, List.map_append]

/-- **`_flush`** sends the datagram in `tx_buffer`, if it has a record. -/
theorem _flush (h : Emitting T s0 c fs e) (htx : e.tx_buffer = some tx)
    (h8 : tx.dataSize ≠ PacketHeader.size)
    (hfull : ∀ f k off, c = .full f k off → tx.dataSize = T.l4mtu) :
    (∃ e', (PacketEncoder._flush T.encoder).run e = .error .blocked e') ∨
    ∃ e' tx', (PacketEncoder._flush T.encoder).run e = .ok () e' ∧ SameStream e e' ∧
      Emitting T s0 (c.cut T) fs e' ∧ e'.tx_buffer = some tx' ∧
      tx'.dataSize = PacketHeader.size := by
  obtain ⟨ds, pending, c0, h, hfs⟩ := h
  obtain ⟨tx0, htx0, hsize, -⟩ := h.tx
  obtain rfl : tx0 = tx := Option.some.inj (htx0.symm.trans htx)
  have hne : pending ≠ [] := by
    rintro rfl
    exact h8 hsize
  rcases _flush_run T.encoder htx (by omega) with ⟨-, hb⟩ | ⟨sent, tx', h1, h2, hrun⟩
  · exact Or.inl hb
  · refine Or.inr ⟨_, tx', hrun, ⟨rfl, rfl, rfl, rfl, rfl⟩, ⟨_, _, _, h.send hne ?_ htx h2 h1, ?_⟩,
      rfl, h1⟩
    · intro f k off hc
      rw [← hsize, hfull f k off hc]
    · rw [List.flatMap_append, List.flatMap_singleton, List.append_nil, hfs]

/-- `flushIfExact` sends the datagram when it is full; a datagram that ends in a part is. -/
theorem flushIfExact (h : Emitting T s0 c fs e) (htx : e.tx_buffer = some tx)
    (hfull : ∀ f k off, c = .full f k off → tx.dataSize = T.l4mtu) :
    (∃ e', (PacketEncoder.flushIfExact T.encoder).run e = .error .blocked e') ∨
    ∃ e' tx', (PacketEncoder.flushIfExact T.encoder).run e = .ok () e' ∧ SameStream e e' ∧
      e'.tx_buffer = some tx' ∧
      (tx.dataSize = T.l4mtu ∧ Emitting T s0 (c.cut T) fs e' ∧ tx'.dataSize = PacketHeader.size ∨
        tx.dataSize ≠ T.l4mtu ∧ Emitting T s0 c fs e' ∧ tx' = tx) := by
  have hbounds := T.size_bounds
  have hs8 : PacketHeader.size = 8 := rfl
  by_cases hl : tx.dataSize = T.l4mtu
  · have hrun : (PacketEncoder.flushIfExact T.encoder).run e =
        (PacketEncoder._flush T.encoder).run e := by
      simp only [PacketEncoder.flushIfExact, EStateM.run_bind, txDataSize_run htx, if_pos hl]
    rw [hrun]
    rcases h._flush htx (by omega) hfull with hb | ⟨e', tx', h1, h2, h3, h4, h5⟩
    · exact Or.inl hb
    · exact Or.inr ⟨e', tx', h1, h2, h4, Or.inl ⟨hl, h3, h5⟩⟩
  · refine Or.inr ⟨e, tx, ?_, ⟨rfl, rfl, rfl, rfl, rfl⟩, htx, Or.inr ⟨hl, h, rfl⟩⟩
    simp only [PacketEncoder.flushIfExact, EStateM.run_bind, txDataSize_run htx, if_neg hl,
      EStateM.run_pure]

end Emitting

/-! ## Frames in parts -/

variable {c c' : Cursor H} {r : Record H} {fs : List (List UInt8)} {e : PacketEncoder H T.B}
  {tx tx' : PacketBuffer T.B}

/-- Where the part behind the first `k` parts of `f`, of `off` bytes, goes. -/
inductive PartStart (f : EncodedFrame H) : Nat → Nat → Cursor H → Prop
  | first : PartStart f 0 0 (.between f.index f.before)
  | next {k off : Nat} : 0 < k → PartStart f k off (.inside f k off)

/-- The next part: it ends the frame, or the datagram is full. -/
theorem PartStart.follows {f : EncodedFrame H} {k off len : Nat} (h : PartStart f k off c)
    (hf : f.Valid T) (fits : off + len ≤ f.bytes.length) (h0 : 0 < len) (hk : k < 255)
    (hpart : off + len < f.bytes.length ∨ 0 < k) :
    Follows T c ⟨f, k + 1, off, len, fits⟩
      (if off + len = f.bytes.length then .between (f.index + 1) T.lib.reset
      else .full f (k + 1) (off + len)) := by
  cases h with
  | first =>
    rw [if_neg (by omega)]
    simpa using Follows.first fits hf h0 (by omega)
  | next hk0 =>
    split
    · exact .last fits hf hk0 hk h0 ‹_›
    · exact .next fits hf hk0 hk h0 (by omega)

/-- The body of the loop lays down the record of the part, as much as fits, and then sends the
datagram if it is full. -/
theorem addPart_eq {f : EncodedFrame H} {k off : Nat} {buf : PacketBuffer T.B}
    (hbuf : buf.data = f.bytes) (hoff : off < f.bytes.length) (htx : e.tx_buffer = some tx)
    (h8 : PacketHeader.size ≤ tx.dataSize)
    (hroom : tx.dataSize + PacketHeaderOption.size < T.l4mtu) :
    ∃ (len : Nat) (fits : off + len ≤ f.bytes.length) (tx1 : PacketBuffer T.B), 0 < len ∧
      tx.dataSize + PacketHeaderOption.size + len ≤ T.l4mtu ∧
      (off + len < f.bytes.length → tx.dataSize + PacketHeaderOption.size + len = T.l4mtu) ∧
      tx1.data = tx.data ++ (Record.mk f (k + 1) off len fits).bytes ∧
      (addPart T.encoder f.frame.length f.format buf (UInt8.ofNat (k + 1)) off).run e =
        (do PacketEncoder.flushIfExact T.encoder; return len : EncoderCall H T.B Nat).run
          (e.withOption tx1) := by
  have hbounds := T.size_bounds
  have hds : buf.dataSize = f.bytes.length := by rw [← buf.data_length, hbuf]
  obtain ⟨len, tx1, hrun, h0, fits, hdata, hfit, hfull⟩ := layPart_run f.frame.length f.format
    (UInt8.ofNat (k + 1)) (show T.l4mtu ≤ T.B by omega) (by omega) htx h8 hroom
    (show off < buf.dataSize by omega)
  rw [hds] at fits hfull
  obtain ⟨r, hr⟩ : ∃ r : Record H, r = ⟨f, k + 1, off, len, fits⟩ := ⟨_, rfl⟩
  have hfin : (buf.dataSize - off - len == 0) = r.finishes := by
    rw [hr, hds, Bool.eq_iff_iff]
    simp only [Record.finishes, beq_iff_eq]
    omega
  have hslice : buf.slice off len = r.payload := by
    rw [PacketBuffer.slice_eq (by omega), hbuf, hr, Record.payload]
  refine ⟨len, fits, tx1, h0, hfit, hfull, ?_, ?_⟩
  · rw [hdata, hfin, hslice, ← hr, List.append_assoc, Record.bytes, Record.option, hr]
    rfl
  · rw [addPart_eq_layPart, EStateM.run_bind, hrun]

/-- **One part**: it is laid down, and ends its frame or fills its datagram, which is sent. -/
theorem addPart_run {f : EncodedFrame H} {k off : Nat} {buf : PacketBuffer T.B} (hf : f.Valid T)
    (hbuf : buf.data = f.bytes) (hstart : PartStart f k off c) (hoff : off < f.bytes.length)
    (hk : k < 255) (h : Emitting T s0 c fs e) (htx : e.tx_buffer = some tx)
    (hroom : tx.dataSize + PacketHeaderOption.size < T.l4mtu)
    (hfirst : k = 0 → T.l4mtu < tx.dataSize + PacketHeaderOption.size + f.bytes.length)
    (hacc : e.accepted.length = f.index + 1) :
    (∃ e', (addPart T.encoder f.frame.length f.format buf (UInt8.ofNat (k + 1)) off).run e =
      .error .blocked e') ∨
    ∃ len e' tx', (addPart T.encoder f.frame.length f.format buf (UInt8.ofNat (k + 1)) off).run e =
      .ok len e' ∧ SameStream e e' ∧ 0 < len ∧ e'.tx_buffer = some tx' ∧
      (off + len = f.bytes.length ∧
          Emitting T s0 (.between (f.index + 1) T.lib.reset) (fs ++ [f.frame]) e' ∨
        off + len < f.bytes.length ∧ len + tx.dataSize + PacketHeaderOption.size = T.l4mtu ∧
          Emitting T s0 (.inside f (k + 1) (off + len)) fs e' ∧
          tx'.dataSize = PacketHeader.size) := by
  obtain ⟨tx0, htx0, h8, hle⟩ := h.tx_buffer
  obtain rfl : tx0 = tx := Option.some.inj (htx0.symm.trans htx)
  obtain ⟨len, fits, tx1, h0, hfit, hfull, hd1, hrun⟩ := addPart_eq (k := k) hbuf hoff htx h8 hroom
  obtain ⟨r, hr⟩ : ∃ r : Record H, r = ⟨f, k + 1, off, len, fits⟩ := ⟨_, rfl⟩
  rw [← hr] at hd1
  have hsize : r.size = PacketHeaderOption.size + len := by rw [hr]; rfl
  -- no frame is a single part: the first one has no room for the frame
  have hfollows := hstart.follows hf fits h0 hk (by
    rcases Nat.eq_zero_or_pos k with hk0 | hk0
    · left
      have := hfirst hk0
      cases hstart <;> omega
    · exact Or.inr hk0)
  rw [← hr] at hfollows
  have h1 := h.withOption hfollows htx hd1 (by omega) (by rw [hacc, hr])
  have htx1 : tx1.dataSize = tx0.dataSize + r.size := by
    rw [← tx1.data_length, hd1, List.length_append, Record.bytes_length, tx0.data_length]
  rw [hrun, EStateM.run_bind]
  rcases h1.flushIfExact rfl (by
      intro f' k' off' hc
      split at hc
      · cases hc
      · omega) with ⟨e', hb⟩ | ⟨e', tx', hrun', hsame, htx', hcase⟩
  · exact Or.inl ⟨e', by simp only [hb]⟩
  · refine Or.inr ⟨len, e', tx', by simp only [hrun', EStateM.run_pure], ?_, h0, htx', ?_⟩
    · exact ⟨hsame.1, hsame.2, hsame.3, hsame.4, hsame.5⟩
    · by_cases hend : off + len = f.bytes.length
      · left
        rw [if_pos hend, finished_cons_of_finishes _ (by simp [hr, Record.finishes, hend])] at hcase
        refine ⟨hend, ?_⟩
        rw [hr] at hcase
        rcases hcase with ⟨-, h2, -⟩ | ⟨-, h2, -⟩
        · exact h2
        · exact h2
      · right
        rw [if_neg hend, finished_cons_of_not _ (by simp [hr, Record.finishes, hend])] at hcase
        rw [finished_nil, List.map_nil, List.append_nil] at hcase
        -- a part that leaves a rest fills its datagram, which is sent
        have hlt : off + len < f.bytes.length := by omega
        rcases hcase with ⟨-, h2, h3⟩ | ⟨hne, -⟩
        · exact ⟨hlt, by have := hfull hlt; omega, h2, h3⟩
        · exact absurd (by have := hfull hlt; omega) hne

theorem partialLoop_done {cfg : EncoderConfig} {original_size fuel pos : Nat}
    {format : PacketHeaderOptionFormatType} {buf : PacketBuffer B} {part : UInt8}
    (h : ¬ pos < buf.dataSize) :
    partialLoop (H := H) cfg original_size format buf fuel part pos = pure () := by
  cases fuel <;> simp only [partialLoop, if_neg h]

/-- **The loop over the parts** carries the rest of the frame. -/
theorem partialLoop_run {f : EncodedFrame H} {buf : PacketBuffer T.B} (fuel : Nat) (hf : f.Valid T)
    (hbuf : buf.data = f.bytes) {k off : Nat} (hstart : PartStart f k off c)
    (hoff : off < f.bytes.length) (hfuel : f.bytes.length - off ≤ fuel)
    (hparts : (k - 1) * (T.l4mtu - 16) ≤ off) (h : Emitting T s0 c fs e)
    (htx : e.tx_buffer = some tx) (hroom : tx.dataSize + PacketHeaderOption.size < T.l4mtu)
    (hfirst : k = 0 → T.l4mtu < tx.dataSize + PacketHeaderOption.size + f.bytes.length)
    (hnext : 0 < k → tx.dataSize = PacketHeader.size) (hacc : e.accepted.length = f.index + 1) :
    (∃ e', (partialLoop T.encoder f.frame.length f.format buf fuel (UInt8.ofNat (k + 1)) off).run e =
      .error .blocked e') ∨
    ∃ e', (partialLoop T.encoder f.frame.length f.format buf fuel (UInt8.ofNat (k + 1)) off).run e =
      .ok () e' ∧ SameStream e e' ∧
      Emitting T s0 (.between (f.index + 1) T.lib.reset) (fs ++ [f.frame]) e' := by
  have hbounds := T.size_bounds
  have hbytes := hf.bytes_le
  have hds : buf.dataSize = f.bytes.length := by rw [← buf.data_length, hbuf]
  have hs8 : PacketHeader.size = 8 := rfl
  have ho8 : PacketHeaderOption.size = 8 := rfl
  induction fuel generalizing k off c e tx with
  | zero => omega
  | succ fuel ih =>
    -- every part but the first fills a datagram, so the number of the part stays a byte
    have hk : k < 255 := by
      have := Nat.mul_le_mul_left (k - 1) (show 1136 ≤ T.l4mtu - 16 by omega)
      omega
    simp only [partialLoop, hds, if_pos hoff, EStateM.run_bind]
    rcases addPart_run hf hbuf hstart hoff hk h htx hroom hfirst hacc with
      ⟨e', hb⟩ | ⟨len, e1, tx1, hrun, hsame, h0, htx1, hcase⟩
    · exact Or.inl ⟨e', by simp only [hb]⟩
    have hpart : UInt8.ofNat (k + 1) + 1 = UInt8.ofNat (k + 1 + 1) := by
      rw [UInt8.ofNat_add (k + 1) 1]
      rfl
    simp only [hrun, hpart]
    rcases hcase with ⟨hend, h1⟩ | ⟨hlt, hfull, h1, h8⟩
    · rw [hend, Nat.mod_eq_of_lt (by omega), partialLoop_done (by omega)]
      exact Or.inr ⟨e1, rfl, hsame, h1⟩
    · rw [Nat.mod_eq_of_lt (by omega)]
      have hparts' : (k + 1 - 1) * (T.l4mtu - 16) ≤ off + len := by
        cases k with
        | zero => simp
        | succ k =>
          have := hnext (Nat.succ_pos k)
          simp only [Nat.add_sub_cancel, Nat.succ_mul] at hparts ⊢
          omega
      rcases ih (.next (Nat.succ_pos k)) hlt (by omega) hparts' h1 htx1 (by omega)
          (fun hk0 => absurd hk0 (Nat.succ_ne_zero k)) (fun _ => h8) (by rw [hsame.accepted, hacc]) with
        hb | ⟨e', hrun', hsame', h'⟩
      · exact Or.inl hb
      · exact Or.inr ⟨e', hrun', hsame.trans hsame', h'⟩

end PacketEncoder
end SuperEthd
