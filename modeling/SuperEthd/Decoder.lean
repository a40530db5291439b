import SuperEthd.Encoder

/-! # The packet decoder

`PacketDecoder` of `decoder.cpp`: the frames in a datagram are copied or decompressed out
of its options, and frames in parts are reassembled over several datagrams.

Each member function is a `DecoderCall`, which changes the data members and returns, waits, throws
or does what the language leaves undefined (`Stop`).  `decode` is cut where other threads can get in:

* `decodeHeader` is what comes before the loop over the payloads, with the checks of the header and of
  the option headers (`scanOptions`) and the sequence check between them;
* `takeOption` is the body of that loop up to the push of a frame, and `refill` what is behind the push,
  where the decoder may have to wait for a new `tx_buffer`;
* `finish` is what is behind the loop.

Datagrams come from the network, so nothing is assumed about them.  Headers overlay the packet wherever
the position points to: inside the data, behind it in the storage of the buffer, where what an earlier
packet left is read, or past the storage, where `heap` says what is found.  Positions are `uint16_t`s,
so the loop may never end; it runs for a number of iterations given by `fuel`, and stops as
`Stop.running` when that is used up.

Three things are not as they are in the source.  The buffers are values with their address as `id`, and
a `unique_ptr` is an `Option`.  The streams of the two libraries are histories, which is what they are to
their callers; that LZ4's history lies in buffers of the decoder is written down beside it, in `blocks`
and `lz4Calls` (see `DecompressionHistory`).  Log messages are left out. -/
namespace SuperEthd
open PacketHeaderOptionType PacketHeaderOptionFormatType

/-- What the constructor fixes, the libraries linked with, the byte order of the host, and
what a read past the storage of a buffer finds, which the language leaves open. -/
structure DecoderConfig (H : Type) where
  l2mtu : Nat
  libs : Compressors H
  host : ByteOrder
  heap : Nat → UInt8

/-- A part of a frame, as its option carried it. -/
structure Part where
  part : UInt8
  packet_size : Nat
  format : PacketHeaderOptionFormatType
  payload : List UInt8
  deriving DecidableEq

/-- A block the LZ4 stream decoded: the buffer it was decoded into and its bytes. -/
structure Block where
  buffer : Nat
  bytes : List UInt8
  deriving DecidableEq

/-- A call of LZ4's `decompress`: the blocks decoded since the stream was reset, and the buffers
the decoder holds. -/
structure Lz4Call (B : Nat) where
  blocks : List Block
  held : List (PacketBuffer B)

/-- The data members of a `PacketDecoder`, the streams by their histories.  The last four are
not in the source; no function reads them for anything else.  They record what was done: the
parts accepted since the last `_clearState`, the options that completed a frame, the blocks
decoded since the LZ4 stream was reset, and the calls of its `decompress`. -/
structure PacketDecoder (H : Type) (B : Nat) where
  first_packet : Bool
  last_sequence : UInt32
  last_part : UInt8
  last_format : PacketHeaderOptionFormatType
  last_orig_packet_size : Nat
  tx_buffer : Option (PacketBuffer B)
  inflight_buffers : List (PacketBuffer B)
  compressorLZ4 : H
  compressorZSTD : H
  dcomp_buffer : Option (PacketBuffer B)
  tx_buffer_pool : BufferPool (PacketBuffer B) B
  available_buffer_pool : BufferPool (PacketBuffer B) B
  accepted : List Part
  completedBy : List PacketHeaderOption
  blocks : List Block
  lz4Calls : List (Lz4Call B)

/-- A member function of the decoder. -/
abbrev DecoderCall (H : Type) (B : Nat) (α : Type) := EStateM Stop (PacketDecoder H B) α

/-- `is_sequence_wrapping`. -/
def is_sequence_wrapping (cur prev : UInt32) : Bool :=
  cur < prev && prev - cur > 0xFFFFFFFF / 2

/-- The byte at `getData() + pos`. -/
def PacketBuffer.byteAt {B : Nat} (b : PacketBuffer B) (heap : Nat → UInt8) (pos : Nat) : UInt8 :=
  b.content.getD pos (heap pos)

/-- Inside the data. -/
theorem PacketBuffer.byteAt_of_lt {B : Nat} {b : PacketBuffer B} {heap : Nat → UInt8} {pos : Nat}
    (h : pos < b.dataSize) : b.byteAt heap pos = b.data.getD pos 0 := by
  have hlt : pos < b.content.length := by
    rw [b.content_length]
    exact h.trans_le b.dataSize_le
  rw [byteAt, data, List.getD_eq_getElem?_getD, List.getD_eq_getElem?_getD,
    List.getElem?_take_of_lt h, List.getElem?_eq_getElem hlt, Option.getD_some, Option.getD_some]

namespace PacketDecoder
variable {H : Type} {B : Nat} (cfg : DecoderConfig H)

/-- `_clearState`. -/
def _clearState : DecoderCall H B Unit := do
  let d ← get
  let tx_buffer ← deref d.tx_buffer
  set { d with
    tx_buffer := some tx_buffer.clear
    last_part := 0
    last_format := NONE
    last_orig_packet_size := 0
    accepted := [] }

/-- `_getTxBuffer`. -/
def _getTxBuffer : DecoderCall H B Unit := do
  let d ← get
  let (tx_buffer, pool) ← Call.ofExcept d.available_buffer_pool.pop_wait
  set { d with tx_buffer := some tx_buffer, available_buffer_pool := pool }
  _clearState

/-- The two `resetDecompressionStream` calls. -/
def resetStreams (d : PacketDecoder H B) : PacketDecoder H B :=
  { d with
    compressorLZ4 := cfg.libs.lz4.reset
    compressorZSTD := cfg.libs.zstd.reset
    blocks := [] }

/-- `_flushInflight`. -/
def _flushInflight : DecoderCall H B Unit := do
  let d ← get
  -- pushing an empty batch, which the source skips, changes nothing
  let pool ← Call.ofExcept
    (d.available_buffer_pool.pushBatch PacketBuffer.getBufferSize d.inflight_buffers)
  set (resetStreams cfg { d with available_buffer_pool := pool, inflight_buffers := [] })

/-- `_pushInflight`. -/
def _pushInflight (packetBuffer : PacketBuffer B) : DecoderCall H B Unit :=
  modify fun d => { d with inflight_buffers := d.inflight_buffers ++ [packetBuffer] }

/-- `_clearState` and `_flushInflight`, as all places that drop reassembly state call them. -/
def clearAndFlush : DecoderCall H B Unit := do
  _clearState
  _flushInflight cfg

/-- `_clearStateAndFlushInflight`. -/
def _clearStateAndFlushInflight (packetBuffer : PacketBuffer B) : DecoderCall H B Unit := do
  _clearState
  _pushInflight packetBuffer
  _flushInflight cfg

/-- Refuse the packet before the loop over its payloads. -/
def reject {α : Type} (packetBuffer : PacketBuffer B) : DecoderCall H B (Option α) := do
  _clearStateAndFlushInflight cfg packetBuffer
  return none

/-- The data members before the body of the constructor takes its buffers.  The source leaves
those that `_clearState` and the first packet set uninitialised. -/
def init (tx_buffer_pool available_buffer_pool : BufferPool (PacketBuffer B) B) :
    PacketDecoder H B where
  first_packet := true
  last_sequence := 0
  last_part := 0
  last_format := NONE
  last_orig_packet_size := 0
  tx_buffer := none
  inflight_buffers := []
  compressorLZ4 := cfg.libs.lz4.reset
  compressorZSTD := cfg.libs.zstd.reset
  dcomp_buffer := none
  tx_buffer_pool := tx_buffer_pool
  available_buffer_pool := available_buffer_pool
  accepted := []
  completedBy := []
  blocks := []
  lz4Calls := []

/-- The constructor. -/
def new : DecoderCall H B Unit := do
  let d ← get
  let (dcomp_buffer, pool) ← Call.ofExcept d.available_buffer_pool.pop_wait
  set { d with dcomp_buffer := some dcomp_buffer, available_buffer_pool := pool }
  _getTxBuffer

/-! ## The packet header -/

/-- The sequence check: reassembly goes on only over consecutive numbers. -/
def checkSequence (sequence : UInt32) : DecoderCall H B Unit := do
  modify fun d =>
    if d.first_packet then { d with first_packet := false, last_sequence := sequence - 1 } else d
  let d ← get
  -- lost packets
  if sequence > d.last_sequence + 1 then
    clearAndFlush cfg
  if sequence < d.last_sequence + 1 then
    if is_sequence_wrapping sequence d.last_sequence then
      modify fun d => { d with last_sequence := 0 }
    -- out of order
    else
      clearAndFlush cfg
  modify fun d => { d with last_sequence := sequence }

/-- The option header that overlays the packet from `pos` on. -/
def optionAt (packetBuffer : PacketBuffer B) (pos : Nat) : PacketHeaderOption :=
  .read fun i => packetBuffer.byteAt cfg.heap (pos + i)

/-- The loop over the header options, `n` of which are left, and the check after it: gives the
position of the option that starts the first payload. -/
def scanOptions (packetBuffer : PacketBuffer B) (opt_len : Nat) :
    (n header_num cur_pos packet_header_pos : Nat) → DecoderCall H B (Option Nat)
  | 0, _, _, packet_header_pos =>
    if packet_header_pos = 0 then reject cfg packetBuffer else return some packet_header_pos
  | n + 1, header_num, cur_pos, packet_header_pos =>
    let option := optionAt cfg packetBuffer cur_pos
    if PacketHeaderOption.size > packetBuffer.dataSize - cur_pos then
      reject cfg packetBuffer
    else if option.reserved ≠ 0 then
      reject cfg packetBuffer
    else if packet_header_pos = 0 then
      if option.typeIsValid then
        if header_num + 1 ≠ opt_len then
          reject cfg packetBuffer
        else
          scanOptions packetBuffer opt_len n (header_num + 1)
            (cur_pos + PacketHeaderOption.size) cur_pos
      else
        reject cfg packetBuffer
    else
      scanOptions packetBuffer opt_len n (header_num + 1)
        (cur_pos + PacketHeaderOption.size) packet_header_pos

/-- The packet header that overlays the packet. -/
def headerOf (packetBuffer : PacketBuffer B) : PacketHeader :=
  .read cfg.host (packetBuffer.byteAt cfg.heap)

/-- `decode` up to the loop over the payloads: the position of the first one, or nothing when the
packet was refused. -/
def decodeHeader (packetBuffer : PacketBuffer B) : DecoderCall H B (Option Nat) := do
  if packetBuffer.dataSize < PacketHeader.size then
    let d ← get
    let pool ← Call.ofExcept
      (d.available_buffer_pool.push PacketBuffer.getBufferSize packetBuffer)
    let tx_buffer ← deref d.tx_buffer
    set { d with available_buffer_pool := pool, tx_buffer := some tx_buffer.clear }
    return none
  let packet_header := headerOf cfg packetBuffer
  if packet_header.ver > SETH_PACKET_HEADER_VERSION_V1 then
    return ← reject cfg packetBuffer
  if packet_header.reserved ≠ 0 then
    return ← reject cfg packetBuffer
  if packet_header.format ≠ PacketHeaderFormat.ENCAPSULATED then
    return ← reject cfg packetBuffer
  if packet_header.channel ≠ 0 then
    return ← reject cfg packetBuffer
  checkSequence cfg packet_header.sequence
  scanOptions cfg packetBuffer packet_header.opt_len packet_header.opt_len 0 PacketHeader.size 0

/-! ## The payloads -/

/-- `decompress` of the stream for `format`, which is one of the two compressed formats, from
`input` into `output`.  Gives its result and the buffer it wrote to. -/
def decompress (packetBuffer : PacketBuffer B) (format : PacketHeaderOptionFormatType)
    (input : List UInt8) (output : PacketBuffer B) : DecoderCall H B (Int × PacketBuffer B) := do
  let d ← get
  if format = COMPRESSED_LZ4 then
    let decompressed := cfg.libs.lz4.decompress d.compressorLZ4 input output.getBufferSize
    let output ← Call.ofExcept (output.writeAt 0 decompressed.output)
    set { d with
      compressorLZ4 := decompressed.history
      blocks := if decompressed.result < 0 then d.blocks
        else d.blocks ++ [Block.mk output.id decompressed.output]
      lz4Calls := d.lz4Calls ++
        [Lz4Call.mk d.blocks (d.tx_buffer.toList ++ d.dcomp_buffer.toList ++
          d.inflight_buffers ++ [packetBuffer])] }
    return (decompressed.result, output)
  else
    let decompressed := cfg.libs.zstd.decompress d.compressorZSTD input output.getBufferSize
    let output ← Call.ofExcept (output.writeAt 0 decompressed.output)
    set { d with compressorZSTD := decompressed.history }
    return (decompressed.result, output)

/-- The payload of a complete packet goes into `tx_buffer`; false if it cannot be decompressed. -/
def fillComplete (packetBuffer : PacketBuffer B) (option : PacketHeaderOption)
    (packet_pos : Nat) : DecoderCall H B Bool := do
  let d ← get
  let tx_buffer ← deref d.tx_buffer
  let payload := packetBuffer.slice packet_pos option.payload_length
  if option.formatIsCompressed then
    let (decompressed_size, tx_buffer) ←
      decompress cfg packetBuffer option.format payload tx_buffer
    modify fun d => { d with tx_buffer := some tx_buffer }
    if decompressed_size < 0 then return false
    let tx_buffer ← Call.ofExcept (tx_buffer.setDataSize decompressed_size.toNat)
    modify fun d => { d with tx_buffer := some tx_buffer }
    return true
  else
    let tx_buffer ← Call.ofExcept (tx_buffer.append payload)
    modify fun d => { d with tx_buffer := some tx_buffer }
    return true

/-- The parts in `tx_buffer` are all there: decompress them if need be, by way of `dcomp_buffer`;
false if that fails. -/
def finishPartial (packetBuffer : PacketBuffer B) (option : PacketHeaderOption) :
    DecoderCall H B Bool := do
  if option.formatIsCompressed then
    let d ← get
    let tx_buffer ← deref d.tx_buffer
    let dcomp_buffer ← deref d.dcomp_buffer
    let (decompressed_size, dcomp_buffer) ←
      decompress cfg packetBuffer option.format tx_buffer.data dcomp_buffer
    modify fun d => { d with dcomp_buffer := some dcomp_buffer }
    if decompressed_size < 0 then return false
    let dcomp_buffer ← Call.ofExcept (dcomp_buffer.setDataSize decompressed_size.toNat)
    -- `std::swap`
    modify fun d => { d with tx_buffer := some dcomp_buffer, dcomp_buffer := d.tx_buffer }
    return true
  else
    return true

/-- The frame in `tx_buffer` goes to the TX pool if it has the size its option says.  Gives whether
it went. -/
def deliver (packetBuffer : PacketBuffer B) (option : PacketHeaderOption) :
    DecoderCall H B Bool := do
  let d ← get
  let tx_buffer ← deref d.tx_buffer
  if tx_buffer.dataSize ≠ option.packet_size then
    return false
  let pool ← Call.ofExcept (d.tx_buffer_pool.push PacketBuffer.getBufferSize
    { tx_buffer with source := packetBuffer.source })
  set { d with
    tx_buffer := none
    tx_buffer_pool := pool
    completedBy := d.completedBy ++ [option] }
  return true

/-- The position behind the payload of an option at `pos`, in `uint16_t` arithmetic. -/
def nextPos (option : PacketHeaderOption) (pos : Nat) : Nat :=
  ((pos + PacketHeaderOption.size) % 65536 + option.payload_length) % 65536

/-- Where an option leaves the loop over the payloads. -/
inductive Progress
  /-- the packet was refused -/
  | refused
  /-- on to the option at `pos` -/
  | onto (pos : Nat) (flush_inflight : Bool)
  /-- a frame was pushed; a new `tx_buffer` is needed before the option at `pos` -/
  | delivered (assembled : Bool) (pos : Nat)
  deriving DecidableEq

/-- Refuse the packet, in the loop over the payloads. -/
def refuse (packetBuffer : PacketBuffer B) : DecoderCall H B Progress := do
  _clearStateAndFlushInflight cfg packetBuffer
  return .refused

/-- An option of type `COMPLETE_PACKET`, up to the push of its frame. -/
def completeOption (packetBuffer : PacketBuffer B) (option : PacketHeaderOption) (pos : Nat) :
    DecoderCall H B Progress := do
  let packet_pos := (pos + PacketHeaderOption.size) % 65536
  let d ← get
  if d.last_part ≠ 0 then
    clearAndFlush cfg
  if option.part ≠ 0 then
    return ← refuse cfg packetBuffer
  if packet_pos + option.payload_length > packetBuffer.dataSize then
    return ← refuse cfg packetBuffer
  if !(← fillComplete cfg packetBuffer option packet_pos) then
    return ← refuse cfg packetBuffer
  if !(← deliver packetBuffer option) then
    return ← refuse cfg packetBuffer
  return .delivered false (nextPos option pos)

/-- The part cannot be used: it starts a frame while another is pending, or is not the next part
of the pending frame. -/
def unusable (d : PacketDecoder H B) (option : PacketHeaderOption) : Bool :=
  (option.part == 1 && d.last_part != 0) ||
  option.part.toNat != d.last_part.toNat + 1 ||
  (d.last_part != 0 && option.packet_size != d.last_orig_packet_size) ||
  (d.last_part != 0 && d.last_format != option.format)

/-- An option whose type has the bit of `PARTIAL_PACKET`, up to the push of the frame when it is
the last part. -/
def partialOption (packetBuffer : PacketBuffer B) (option : PacketHeaderOption) (pos : Nat) :
    DecoderCall H B Progress := do
  let packet_pos := (pos + PacketHeaderOption.size) % 65536
  let d ← get
  -- skip it
  if unusable d option then
    clearAndFlush cfg
    return .onto (nextPos option pos) false
  if packet_pos + option.payload_length > packetBuffer.dataSize then
    return ← refuse cfg packetBuffer
  let tx_buffer ← deref d.tx_buffer
  if tx_buffer.dataSize + option.payload_length > tx_buffer.getBufferSize then
    return ← refuse cfg packetBuffer
  if !option.formatIsCompressed ∧ tx_buffer.dataSize + option.payload_length > option.packet_size then
    return ← refuse cfg packetBuffer
  let payload := packetBuffer.slice packet_pos option.payload_length
  let tx_buffer ← Call.ofExcept (tx_buffer.append payload)
  set { d with
    tx_buffer := some tx_buffer
    accepted := d.accepted ++
      [Part.mk option.part option.packet_size option.format payload] }
  if option.typeIsComplete then
    if !(← finishPartial cfg packetBuffer option) then
      return ← refuse cfg packetBuffer
    if !(← deliver packetBuffer option) then
      return ← refuse cfg packetBuffer
    return .delivered true (nextPos option pos)
  modify fun d =>
    { d with
      last_part := option.part
      last_format := option.format
      last_orig_packet_size := option.packet_size }
  return .onto (nextPos option pos) false

/-- The body of the loop over the payloads for the option at `pos`, up to the push of a frame. -/
def takeOption (packetBuffer : PacketBuffer B) (pos : Nat) (flush_inflight : Bool) :
    DecoderCall H B Progress :=
  let option := optionAt cfg packetBuffer pos
  if option.packet_size > cfg.l2mtu then
    refuse cfg packetBuffer
  else if option.type = COMPLETE_PACKET then
    completeOption cfg packetBuffer option pos
  else if option.typeIsPartial then
    partialOption cfg packetBuffer option pos
  -- other types are not handled, and the position stays
  else
    return .onto pos flush_inflight

/-- After the push of a frame: a new `tx_buffer`, and the inflight buffers go when the frame was
assembled from parts. -/
def refill (assembled : Bool) : DecoderCall H B Unit := do
  _getTxBuffer
  if assembled then
    _flushInflight cfg

/-- The body of the loop over the payloads.  Gives the position of the next option and whether the
inflight buffers are to be flushed at the end, or nothing when the packet was refused. -/
def decodeOption (packetBuffer : PacketBuffer B) (pos : Nat) (flush_inflight : Bool) :
    DecoderCall H B (Option (Nat × Bool)) := do
  match ← takeOption cfg packetBuffer pos flush_inflight with
  | .refused => return none
  | .onto pos flush_inflight => return some (pos, flush_inflight)
  | .delivered assembled pos =>
    refill cfg assembled
    return some (pos, !assembled)

/-- The loop over the payloads. -/
def optionLoop (packetBuffer : PacketBuffer B) :
    (fuel pos : Nat) → Bool → DecoderCall H B (Option Bool)
  | fuel, pos, flush_inflight =>
    if pos < packetBuffer.dataSize then
      match fuel with
      | 0 => throw .running
      | fuel + 1 => do
        match ← decodeOption cfg packetBuffer pos flush_inflight with
        | none => return none
        | some (pos, flush_inflight) => optionLoop packetBuffer fuel pos flush_inflight
    else
      return some flush_inflight

/-- The end of `decode` for a packet that was read to its end. -/
def finish (packetBuffer : PacketBuffer B) (flush_inflight : Bool) : DecoderCall H B Unit := do
  _pushInflight packetBuffer
  if flush_inflight then
    _flushInflight cfg

/-- `decode`, with at most `fuel` iterations of its loop. -/
def decode (fuel : Nat) (packetBuffer : PacketBuffer B) : DecoderCall H B Unit := do
  match ← decodeHeader cfg packetBuffer with
  | none => return
  | some pos =>
    match ← optionLoop cfg packetBuffer fuel pos true with
    | none => return
    | some flush_inflight => finish cfg packetBuffer flush_inflight

end PacketDecoder
end SuperEthd
