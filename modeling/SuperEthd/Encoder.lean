import SuperEthd.Lib.Call
import SuperEthd.BufferPool
import SuperEthd.StreamCompressor

/-! # The packet encoder

`PacketEncoder` of `encoder.cpp`: frames read from the TAP device are packed, whole or in
parts, into datagrams of at most `l4mtu` bytes. -/
namespace SuperEthd
open PacketHeaderOptionType PacketHeaderOptionFormatType

/-- What the constructor fixes, and the byte order of the host. -/
structure EncoderConfig where
  l2mtu : Nat
  l4mtu : Nat
  host : ByteOrder

/-- The data members of a `PacketEncoder`.  Owning pointers that can be null are `Option`s.
`opt_len` and `packet_count` count the options in `tx_buffer`, far below their widths.  The last
two are not in the source; no function reads them for anything else.  They record what was
done: the frames accepted, and the options written, each as the number of its frame and the
number of its datagram. -/
structure PacketEncoder (H : Type) (B : Nat) where
  sequence : UInt32
  tx_buffer : Option (PacketBuffer B)
  inflight_buffers : List (PacketBuffer B)
  packet_format : PacketHeaderOptionFormatType
  compressor : Option (CompressionStream H)
  comp_buffer : Option (PacketBuffer B)
  opt_len : Nat
  packet_count : Nat
  available_buffer_pool : BufferPool (PacketBuffer B) B
  tx_buffer_pool : BufferPool (PacketBuffer B) B
  accepted : List (List UInt8)
  carriers : List (Nat × Nat)

/-- A member function of the encoder. -/
abbrev EncoderCall (H : Type) (B : Nat) (α : Type) := EStateM Stop (PacketEncoder H B) α

/-- Follow an owning pointer. -/
def deref {σ α : Type} : Option α → EStateM Stop σ α
  | some a => pure a
  | none => throw .nullPointer

@[simp] theorem deref_some {σ α : Type} (a : α) (s : σ) :
    (deref (some a) : EStateM Stop σ α).run s = .ok a s := rfl

namespace PacketEncoder
variable {H : Type} {B : Nat} (cfg : EncoderConfig)

/-- `available_buffer_pool->push(std::move(packetBuffer))`. -/
def pushAvailable (packetBuffer : PacketBuffer B) : EncoderCall H B Unit := do
  let e ← get
  let pool ← Call.ofExcept (e.available_buffer_pool.push PacketBuffer.getBufferSize packetBuffer)
  set { e with available_buffer_pool := pool }

/-- `_getTxBuffer`. -/
def _getTxBuffer : EncoderCall H B Unit := do
  let e ← get
  let (tx_buffer, pool) ← Call.ofExcept e.available_buffer_pool.pop_wait
  let tx_buffer ← Call.ofExcept (tx_buffer.clear.setDataSize PacketHeader.size)
  set { e with
    tx_buffer := some tx_buffer
    available_buffer_pool := pool
    opt_len := 0
    packet_count := 0 }

/-- The header `_flush` writes. -/
def header (sequence : UInt32) (opt_len : Nat) : PacketHeader where
  ver := SETH_PACKET_HEADER_VERSION_V1
  opt_len := opt_len
  oam := 0
  critical := 0
  reserved := 0
  format := PacketHeaderFormat.ENCAPSULATED
  channel := 0
  sequence := sequence

/-- The sequence number the next datagram gets. -/
def nextSequence (sequence : UInt32) : UInt32 := if sequence = 0xFFFFFFFF then 1 else sequence

/-- `_flush`. -/
def _flush : EncoderCall H B Unit := do
  let e ← get
  let tx_buffer ← deref e.tx_buffer
  -- nothing but the space of the header
  if tx_buffer.dataSize = PacketHeader.size then return
  let sequence := nextSequence e.sequence
  let tx_buffer ← Call.ofExcept
    (tx_buffer.writeAt 0 ((header sequence e.opt_len).bytes cfg.host))
  let pool ← Call.ofExcept (e.tx_buffer_pool.push PacketBuffer.getBufferSize tx_buffer)
  set { e with sequence := sequence + 1, tx_buffer := none, tx_buffer_pool := pool }
  _getTxBuffer

/-- `_getMaxPayloadSize`, whose argument is not used. -/
def _getMaxPayloadSize (_size : Nat) : EncoderCall H B Nat := do
  let e ← get
  let tx_buffer ← deref e.tx_buffer
  let max_payload_size : Int := cfg.l4mtu
  let max_payload_size :=
    if tx_buffer.dataSize = 0 then max_payload_size - PacketHeader.size else max_payload_size
  let max_payload_size := max_payload_size - PacketHeaderOption.size
  let max_payload_size := max_payload_size - tx_buffer.dataSize
  if max_payload_size ≤ 0 then return 0
  return max_payload_size.toNat % 65536

/-- `_flushInflight`. -/
def _flushInflight : EncoderCall H B Unit := do
  let e ← get
  if e.inflight_buffers.isEmpty then return
  let pool ← Call.ofExcept
    (e.available_buffer_pool.pushBatch PacketBuffer.getBufferSize e.inflight_buffers)
  set { e with
    available_buffer_pool := pool
    inflight_buffers := []
    compressor := e.compressor.map CompressionStream.resetCompressionStream }

/-- `_pushInflight`. -/
def _pushInflight (packetBuffer : PacketBuffer B) : EncoderCall H B Unit :=
  modify fun e => { e with inflight_buffers := e.inflight_buffers ++ [packetBuffer] }

/-- The data members before the body of the constructor takes its buffers. -/
def init (tx_buffer_pool available_buffer_pool : BufferPool (PacketBuffer B) B) :
    PacketEncoder H B where
  sequence := 1
  tx_buffer := none
  inflight_buffers := []
  packet_format := NONE
  compressor := none
  comp_buffer := none
  opt_len := 0
  packet_count := 0
  available_buffer_pool := available_buffer_pool
  tx_buffer_pool := tx_buffer_pool
  accepted := []
  carriers := []

/-- The constructor. -/
def new : EncoderCall H B Unit := do
  let e ← get
  let (comp_buffer, pool) ← Call.ofExcept e.available_buffer_pool.pop_wait
  set { e with comp_buffer := some comp_buffer, available_buffer_pool := pool }
  _getTxBuffer

/-- `setSequence`. -/
def setSequence (seq : UInt32) : EncoderCall H B Unit :=
  modify fun e => { e with sequence := seq }

/-- `setPacketFormat`. -/
def setPacketFormat (libs : Compressors H) (format : PacketHeaderOptionFormatType) :
    EncoderCall H B Unit := do
  modify fun e => { e with packet_format := format }
  if format = NONE then
    modify fun e => { e with compressor := none }
  else if format = COMPRESSED_LZ4 then
    modify fun e => { e with compressor := some (.new libs.lz4) }
  else if format = COMPRESSED_ZSTD then
    modify fun e => { e with compressor := some (.new libs.zstd) }
  else
    throw .unknownFormat

/-- Both branches of `encode` add an option this way: its header behind the data of
`tx_buffer`, the counters, then the payload. -/
def addOption (option : PacketHeaderOption) (payload : List UInt8) : EncoderCall H B Unit := do
  let e ← get
  let tx_buffer ← deref e.tx_buffer
  let cur_buffer_size := tx_buffer.dataSize
  let tx_buffer ← Call.ofExcept (tx_buffer.writeAt cur_buffer_size option.bytes)
  let tx_buffer ← Call.ofExcept (tx_buffer.setDataSize (cur_buffer_size + PacketHeaderOption.size))
  let tx_buffer ← Call.ofExcept (tx_buffer.append payload)
  set { e with
    tx_buffer := some tx_buffer
    -- only the first option of a datagram is counted in its header
    opt_len := if e.packet_count = 0 then e.opt_len + 1 else e.opt_len
    packet_count := e.packet_count + 1
    carriers := e.carriers ++ [(e.accepted.length - 1, e.tx_buffer_pool.pool.length)] }

/-- `packet_header_option->type = type`, for the option whose header is at `pos`. -/
def setOptionType (pos : Nat) (type : PacketHeaderOptionType) : EncoderCall H B Unit := do
  let e ← get
  let tx_buffer ← deref e.tx_buffer
  let tx_buffer ← Call.ofExcept (tx_buffer.writeAt pos [type])
  set { e with tx_buffer := some tx_buffer }

/-- `tx_buffer->getDataSize()`. -/
def txDataSize : EncoderCall H B Nat := do
  let e ← get
  let tx_buffer ← deref e.tx_buffer
  return tx_buffer.dataSize

/-- Add the option of a part; the last one of a packet is also marked complete. -/
def addPartOption (option : PacketHeaderOption) (payload : List UInt8) (last : Bool) :
    EncoderCall H B Unit := do
  let cur_buffer_size ← txDataSize
  addOption option payload
  if last then
    setOptionType cur_buffer_size (PARTIAL_PACKET ||| COMPLETE_PACKET)

/-- The datagram goes when it is full to the last byte. -/
def flushIfExact : EncoderCall H B Unit := do
  if (← txDataSize) = cfg.l4mtu then
    _flush cfg

/-- The body of the loop over the parts of a packet: the part from `packet_pos` on, as much of it
as fits.  Gives its size. -/
def addPart (original_size : Nat) (format : PacketHeaderOptionFormatType)
    (packetBuffer : PacketBuffer B) (part : UInt8) (packet_pos : Nat) : EncoderCall H B Nat := do
  let packet_left := (packetBuffer.dataSize - packet_pos) % 65536
  let max_payload_size ← _getMaxPayloadSize cfg packet_left
  let part_size := if packet_left > max_payload_size then max_payload_size else packet_left
  addPartOption
    { type := PARTIAL_PACKET
      packet_size := original_size
      format := format
      payload_length := part_size
      part := part
      reserved := 0 }
    (packetBuffer.slice packet_pos part_size) (packet_left - part_size == 0)
  flushIfExact cfg
  return part_size

/-- The loop over the parts of a packet, for at most `fuel` iterations. -/
def partialLoop (original_size : Nat) (format : PacketHeaderOptionFormatType)
    (packetBuffer : PacketBuffer B) : (fuel : Nat) → UInt8 → Nat → EncoderCall H B Unit
  | fuel, part, packet_pos =>
    if packet_pos < packetBuffer.dataSize then
      match fuel with
      | 0 => throw .running
      | fuel + 1 => do
        let part_size ← addPart cfg original_size format packetBuffer part packet_pos
        partialLoop original_size format packetBuffer fuel (part + 1)
          ((packet_pos + part_size) % 65536)
    else
      pure ()

/-- The first half of `encode`: compress the packet if a format is set.  Gives the buffer to
encode and the format to put in its options.  The raw buffer of a compressed packet goes to
the inflight list, since the stream may still refer to it. -/
def compressPacket (rawPacketBuffer : PacketBuffer B) (original_size : Nat) :
    EncoderCall H B (PacketBuffer B × PacketHeaderOptionFormatType) := do
  let e ← get
  if e.packet_format = NONE then return (rawPacketBuffer, e.packet_format)
  let stream ← deref e.compressor
  let comp_buffer ← deref e.comp_buffer
  let compressed := stream.lib.compress stream.history (rawPacketBuffer.slice 0 original_size)
    comp_buffer.getBufferSize
  let comp_buffer ← Call.ofExcept (comp_buffer.writeAt 0 compressed.output)
  set { e with
    compressor := some { stream with history := compressed.history }
    comp_buffer := some comp_buffer }
  if compressed.result ≠ 0 then
    -- the conversion to `size_t` makes a negative result a huge size
    let packetBuffer ← Call.ofExcept
      (comp_buffer.setDataSize (compressed.result % 18446744073709551616).toNat)
    modify fun e => { e with comp_buffer := none }
    _pushInflight rawPacketBuffer
    return (packetBuffer, e.packet_format)
  else
    return (rawPacketBuffer, NONE)

/-- The second half of `encode`: the packet goes behind the data of `tx_buffer`, in parts if it
does not fit. -/
def addPacket (fuel original_size : Nat) (format : PacketHeaderOptionFormatType)
    (packetBuffer : PacketBuffer B) : EncoderCall H B Unit := do
  if packetBuffer.dataSize > (← _getMaxPayloadSize cfg packetBuffer.dataSize) then
    partialLoop cfg original_size format packetBuffer fuel 1 0
    _flushInflight
  else
    addOption
      { type := COMPLETE_PACKET
        packet_size := original_size
        format := format
        payload_length := packetBuffer.dataSize % 65536
        part := 0
        reserved := 0 }
      packetBuffer.data

/-- The datagram goes when it has no room for ten more options. -/
def flushIfFull : EncoderCall H B Unit := do
  if (← _getMaxPayloadSize cfg SETH_PACKET_MAX_SIZE) <
      PacketHeader.size + PacketHeaderOption.size * 10 then
    _flush cfg
    _flushInflight

/-- The buffer of a compressed packet is the next compression buffer; any other goes back. -/
def release (packetBuffer : PacketBuffer B) : EncoderCall H B Unit := do
  let e ← get
  if e.packet_format ≠ NONE ∧ e.comp_buffer.isNone then
    set { e with comp_buffer := some packetBuffer }
  else
    pushAvailable packetBuffer

/-- `encode`, with at most `fuel` iterations of its loop. -/
def encode (fuel : Nat) (rawPacketBuffer : PacketBuffer B) : EncoderCall H B Unit := do
  let original_size := rawPacketBuffer.dataSize % 65536
  if original_size > cfg.l2mtu then
    pushAvailable rawPacketBuffer
    return
  modify fun e => { e with accepted := e.accepted ++ [rawPacketBuffer.data] }
  let (packetBuffer, format) ← compressPacket rawPacketBuffer original_size
  addPacket cfg fuel original_size format packetBuffer
  flushIfFull cfg
  release packetBuffer

/-- `flush`. -/
def flush : EncoderCall H B Unit := do
  _flush cfg
  _flushInflight

/-- The calls a thread makes on an encoder. -/
inductive Op (B : Nat)
  | encode (rawPacketBuffer : PacketBuffer B)
  | flush

/-- One call. -/
def step (fuel : Nat) : Op B → EncoderCall H B Unit
  | .encode rawPacketBuffer => encode cfg fuel rawPacketBuffer
  | .flush => flush cfg

end PacketEncoder
end SuperEthd
