import SuperEthd.Decoder
import SuperEthd.Sizes

/-! # Remote nodes and tunnels

`RemoteNode` of `remote_node.cpp`, and what the two ends of a tunnel share: the switch's
sizes, the packet format with the libraries, and the destination that decides how much of
the transmission size is left to the encoder. -/
namespace SuperEthd
open PacketHeaderOptionType PacketHeaderOptionFormatType

/-- The data members of a `RemoteNode` that its constructor computes. -/
structure RemoteNode where
  node_addr : SockaddrStorage
  tx_size : UInt16
  l2mtu : UInt16
  l4mtu : UInt16
  buffer_size : Nat
  packet_format : PacketHeaderOptionFormatType
  node_key : Option In6Addr
  deriving DecidableEq

/-- The constructor. -/
def RemoteNode.new (node_addr : SockaddrStorage) (tx_size l2mtu : UInt16) (buffer_size : Nat)
    (packet_format : PacketHeaderOptionFormatType) : RemoteNode where
  node_addr := to_sockaddr_storage_ipv6 node_addr
  tx_size := tx_size
  l2mtu := l2mtu
  -- the IP header, then the UDP header
  l4mtu := (if is_ipv4 node_addr then tx_size - 20 else tx_size - 40) - 8
  buffer_size := buffer_size
  packet_format := packet_format
  node_key := get_key_from_sockaddr node_addr

/-- A tunnel as both its ends are configured: sizes that passed the checks of the switch, the
address of the destination, one of the three packet formats, the libraries and the byte order
of the hosts. -/
structure Tunnel (H : Type) where
  sizes : Sizes
  dst_addr : SockaddrStorage
  packet_format : PacketHeaderOptionFormatType
  known : packet_format = NONE ∨ packet_format = COMPRESSED_LZ4 ∨ packet_format = COMPRESSED_ZSTD
  libs : Compressors H
  host : ByteOrder

namespace Tunnel
variable {H : Type} (T : Tunnel H)

/-- The size of the buffers of both ends. -/
abbrev B : Nat := T.sizes.buffer_size

/-- The node, as the constructor of `PacketSwitch` makes it. -/
def node : RemoteNode :=
  .new T.dst_addr (UInt16.ofNat T.sizes.tx_size) T.sizes.l2mtu T.sizes.buffer_size T.packet_format

/-- What the encoder thread of the node constructs its encoder with. -/
def encoder : EncoderConfig := ⟨T.node.l2mtu.toNat, T.node.l4mtu.toNat, T.host⟩

/-- What the decoder thread of the peer's node constructs its decoder with. -/
def decoder (heap : Nat → UInt8) : DecoderConfig H := ⟨T.node.l2mtu.toNat, T.libs, T.host, heap⟩

/-- The library of the packet format; for `NONE` it is never called. -/
def lib : StreamCompressor H :=
  if T.packet_format = COMPRESSED_ZSTD then T.libs.zstd else T.libs.lz4

/-- The largest frame. -/
abbrev l2mtu : Nat := T.encoder.l2mtu

/-- The largest datagram. -/
abbrev l4mtu : Nat := T.encoder.l4mtu

theorem l2mtu_eq : T.l2mtu = T.sizes.mtu + 22 := T.sizes.l2mtu_toNat

theorem B_eq : T.B = T.l2mtu + T.l2mtu / 10 := rfl

/-- The header bytes that `RemoteNode` subtracts from the transmission size. -/
theorem l4mtu_eq : T.l4mtu + (if is_ipv4 T.dst_addr then 28 else 48) = T.sizes.tx_size := by
  obtain ⟨h1, h2, h3⟩ := T.sizes.bounds
  simp only [l4mtu, encoder, node, RemoteNode.new]
  split
  all_goals
    simp only [UInt16.toNat_sub, UInt16.toNat_ofNat', UInt16.reduceToNat]
    omega

/-- **The sizes of an accepted configuration**, as the proofs about the codec use them. -/
theorem size_bounds : 1152 ≤ T.l4mtu ∧ T.l4mtu + 50 ≤ T.l2mtu ∧ T.l2mtu ≤ T.B ∧ T.B ≤ 10164 := by
  obtain ⟨h1, h2, h3⟩ := T.sizes.bounds
  have h4 := T.l4mtu_eq
  have h5 := T.l2mtu_eq
  have h6 := T.B_eq
  split at h4 <;> omega

/-- A tunnel of the smallest sizes, without compression. -/
def smallest (dst_addr : SockaddrStorage) : Tunnel (List (List UInt8)) where
  sizes := ⟨1200, 1200, by decide, by decide, by decide⟩
  dst_addr := dst_addr
  packet_format := NONE
  known := Or.inl rfl
  libs := ⟨.literals, .literals⟩
  host := .little

/-- The same with LZ4. -/
def smallestLZ4 (dst_addr : SockaddrStorage) : Tunnel (List (List UInt8)) :=
  { smallest dst_addr with packet_format := COMPRESSED_LZ4, known := Or.inr (Or.inl rfl) }

/-! ## Runs of the two ends -/

/-- A new encoder whose counter is set to `seq`, and the calls made on it. -/
def encoderCalls (fuel : Nat) (seq : UInt32) (ops : List (PacketEncoder.Op T.B)) :
    EncoderCall H T.B Unit := do
  PacketEncoder.new
  PacketEncoder.setSequence seq
  PacketEncoder.setPacketFormat T.libs T.packet_format
  Call.runAll (PacketEncoder.step T.encoder fuel) ops

/-- A run of the encoder that starts with an empty TX pool. -/
def encoderRun (fuel : Nat) (seq : UInt32) (available : List (PacketBuffer T.B))
    (ops : List (PacketEncoder.Op T.B)) : EStateM.Result Stop (PacketEncoder H T.B) Unit :=
  (T.encoderCalls fuel seq ops).run (.init ⟨[]⟩ ⟨available⟩)

/-- A new decoder, and the datagrams it is given. -/
def decoderCalls (heap : Nat → UInt8) (fuel : Nat) (arrivals : List (PacketBuffer T.B)) :
    DecoderCall H T.B Unit := do
  PacketDecoder.new
  Call.runAll (PacketDecoder.decode (T.decoder heap) fuel) arrivals

/-- A run of the decoder that starts with an empty TX pool. -/
def decoderRun (heap : Nat → UInt8) (fuel : Nat) (available arrivals : List (PacketBuffer T.B)) :
    EStateM.Result Stop (PacketDecoder H T.B) Unit :=
  (T.decoderCalls heap fuel arrivals).run (.init (T.decoder heap) ⟨[]⟩ ⟨available⟩)

end Tunnel
end SuperEthd
