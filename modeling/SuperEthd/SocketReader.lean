import Mathlib.Algebra.BigOperators.Group.Finset.Piecewise
import Mathlib.Algebra.Order.Group.Multiset
import SuperEthd.Lib.KeyedList
import SuperEthd.Lib.Path
import SuperEthd.Lib.PointUpdate
import SuperEthd.Encoder

/-! # The socket reader

`PacketSwitch::tunnel_socket_read_handler`, beside the decoder threads and the TAP writer.  What the
kernel is given are addresses, so the buffers are known by theirs here: `heap` is what each of them
holds, and the pools, the slots and the queues say which thread has which.

* The constructors of `Step` are the reader's moves, each the code between two points at which another
  thread can get in: setting one slot up, one `recvmmsg`, one packet of the batch, the `pop_wait` that
  replaces its buffer, one `pushBatch`.
* `recvmmsg` stores what it is given through the pointers of the slots, right or not, up to 256
  datagrams of any content and sender, none longer than its slot's `iov_len`.  A longer one would be
  cut by the kernel; the buffers of a tunnel are as long as a datagram can be.
* `Step.others` are all other threads at once.  They may do anything with the buffers that are not the
  reader's, in particular take those that it pushed.
* `pop_wait` is taken as blocking until the pool has a buffer, so at an empty pool the reader has no
  step.  What a stolen or a spurious wake-up does to it is left to `BufferMonitor`.
-/
namespace SuperEthd

variable {B : Nat}

@[irreducible] def SETH_MAX_RECVMM_MESSAGES : Nat := 256

/-- `sizeof(sockaddr_storage)`. -/
def SockaddrStorage.maxSize : Nat := 128

/-- The size of the structure that holds the address. -/
def SockaddrStorage.size : SockaddrStorage → Nat
  | .inet _ _ => 16
  | .inet6 _ _ _ _ => 28
  | .other _ => maxSize

/-- A datagram as `recvmmsg` hands it over. -/
structure UdpDatagram where
  data : List UInt8
  source : SockaddrStorage
  deriving DecidableEq

namespace PacketBuffer

/-- Bytes the kernel stores from `getData()` on, up to the end of the storage. -/
def receive (b : PacketBuffer B) (data : List UInt8) : PacketBuffer B :=
  b.poke 0 (data.take B) (by rw [Nat.zero_add, List.length_take]; exact Nat.min_le_left _ _)

/-- An address the kernel stores through `getPacketSourceData()`. -/
def setSource (b : PacketBuffer B) (source : SockaddrStorage) : PacketBuffer B :=
  { b with source := source }

/-- What the buffer says of the datagram in it. -/
def datagram (b : PacketBuffer B) : UdpDatagram := ⟨b.data, b.source⟩

theorem take_receive (b : PacketBuffer B) {data : List UInt8} (h : data.length ≤ B) :
    (b.receive data).content.take data.length = data := by
  have htake := take_overlay b.content 0 data (by rw [Nat.zero_add, b.content_length]; exact h)
  rw [Nat.zero_add, List.take_zero, List.nil_append] at htake
  show (overlay b.content 0 (data.take B)).take data.length = data
  rw [List.take_of_length_le h, htake]

end PacketBuffer

/-- `recvmm_buffers[i]`, `iovecs[i]` and `msgs[i]`. -/
structure ReceiveSlot where
  buffer : Option Nat
  iov_base : Nat
  iov_len : Nat
  msg_name : Nat
  msg_namelen : Nat
  msg_len : Nat

/-- An entry of `received_buffers`. -/
structure NodeBuffers where
  key : In6Addr
  buffers : List Nat

/-- `received_buffers`. -/
abbrev ReceivedBuffers := KeyedList NodeBuffers.key

namespace ReceivedBuffers
variable (received_buffers : ReceivedBuffers) (node_key n : In6Addr) (buffer : Nat)

/-- `received_buffers[node_key].push_back(buffer)`. -/
def push_back : ReceivedBuffers :=
  match h : received_buffers.find? node_key with
  | some _ => received_buffers.adjust node_key
      (fun entry => { entry with buffers := entry.buffers ++ [buffer] }) fun _ => rfl
  | none => received_buffers.insertNew ⟨node_key, [buffer]⟩ h

/-- `received_buffers[node_key].clear()`. -/
def clear : ReceivedBuffers :=
  received_buffers.adjust node_key (fun entry => { entry with buffers := [] }) fun _ => rfl

/-- The buffers queued for the node. -/
def queue : List Nat := ((received_buffers.find? n).map NodeBuffers.buffers).getD []

/-- All that are queued. -/
def all : Multiset Nat := (received_buffers.values.map fun entry => (entry.buffers : Multiset Nat)).sum

variable {received_buffers node_key n buffer}

theorem queue_push_back : (received_buffers.push_back node_key buffer).queue n =
    received_buffers.queue n ++ if node_key = n then [buffer] else [] := by
  unfold push_back
  split
  · rename_i entry h
    by_cases hn : node_key = n
    · subst hn
      rw [queue, KeyedList.find?_adjust_self, queue, h, if_pos rfl]
      rfl
    · rw [queue, KeyedList.find?_adjust_of_ne _ (Ne.symm hn), if_neg hn, List.append_nil, queue]
  · rename_i h
    by_cases hn : node_key = n
    · subst hn
      have hfind : (received_buffers.insertNew ⟨node_key, [buffer]⟩ h).find? node_key =
          some ⟨node_key, [buffer]⟩ := received_buffers.find?_insertNew_self h
      rw [queue, hfind, queue, h, if_pos rfl]
      rfl
    · rw [queue, KeyedList.find?_insertNew_of_ne h hn, if_neg hn, List.append_nil, queue]

theorem queue_clear : (received_buffers.clear node_key).queue n =
    if node_key = n then [] else received_buffers.queue n := by
  unfold clear
  by_cases hn : node_key = n
  · subst hn
    rw [queue, KeyedList.find?_adjust_self, if_pos rfl]
    cases received_buffers.find? node_key <;> rfl
  · rw [queue, KeyedList.find?_adjust_of_ne _ (Ne.symm hn), if_neg hn, queue]

theorem all_push_back : (received_buffers.push_back node_key buffer).all =
    received_buffers.all + {buffer} := by
  unfold push_back
  split
  · rename_i entry h
    have hsum := KeyedList.sum_adjust (fun entry => (entry.buffers : Multiset Nat))
      (f := fun entry => { entry with buffers := entry.buffers ++ [buffer] }) (fun _ => rfl) h
    simp only [← Multiset.coe_add] at hsum
    rw [add_left_comm, add_comm] at hsum
    exact add_left_cancel hsum
  · rw [all, KeyedList.insertNew, List.map_cons, List.sum_cons, add_comm]
    rfl

variable (received_buffers node_key) in
theorem all_clear : (received_buffers.clear node_key).all + received_buffers.queue node_key =
    received_buffers.all := by
  cases h : received_buffers.find? node_key with
  | some entry =>
    have hsum := KeyedList.sum_adjust (fun entry => (entry.buffers : Multiset Nat))
      (f := fun entry => { entry with buffers := [] }) (fun _ => rfl) h
    rw [queue, h]
    exact hsum.trans (add_zero _)
  | none =>
    rw [queue, h, all, clear, KeyedList.adjust_values_of_none _ h]
    exact add_zero _

end ReceivedBuffers
/-- Where the reader is. -/
inductive ReaderPhase
  /-- it sets the slots up, and is to do number `i` -/
  | filling (i : Nat)
  /-- it is to call `recvmmsg` -/
  | receiving
  /-- in the loop over the packets received -/
  | handling (i num_received : Nat)
  /-- there, with the buffer of slot `i` queued and none in its place -/
  | replenishing (i num_received : Nat)
  /-- in the loop over `received_buffers`, with these keys to go -/
  | pushing (node_keys : List In6Addr)
  | stopped

/-- What the reader does not change: the nodes, the byte order of the host, the size of the addresses
of its socket's family, and what of a longer address than `msg_namelen` a name is left with, which
nothing here relies on. -/
structure ReaderConfig where
  remote_nodes : Finset In6Addr
  host : ByteOrder
  name_size : Nat
  name_size_le : name_size ≤ SockaddrStorage.maxSize
  truncated : SockaddrStorage → SockaddrStorage

/-- The reader and what it shares.  `elsewhere` are the buffers in the hands of the other threads. -/
structure SocketReader (B : Nat) where
  heap : Nat → PacketBuffer B
  available_tx_buffer_pool : BufferPool Nat B
  decoder_pool : In6Addr → BufferPool Nat B
  elsewhere : List Nat
  slots : Nat → ReceiveSlot
  received_buffers : ReceivedBuffers
  phase : ReaderPhase

/-- What a step of a run does that the outside sees. -/
inductive ReaderEvent
  /-- `recvmmsg` returned these -/
  | received (batch : List UdpDatagram)
  /-- these went to the decoder pool of a node -/
  | pushed (node_key : In6Addr) (datagrams : List UdpDatagram)
  | silent

namespace SocketReader
variable (cfg : ReaderConfig)

/-- The thread starts with the buffers of the available pool. -/
def start (heap : Nat → PacketBuffer B) (available : List Nat) : SocketReader B where
  heap := heap
  available_tx_buffer_pool := ⟨available⟩
  decoder_pool := fun _ => ⟨[]⟩
  elsewhere := []
  slots := fun _ => ⟨none, 0, 0, 0, 0, 0⟩
  received_buffers := KeyedList.empty
  phase := .filling 0

/-- `getBufferSize` of the buffer at an address. -/
def bufferSize (s : SocketReader B) (buffer : Nat) : Nat := (s.heap buffer).getBufferSize

/-- The kernel fills slot `i`. -/
def fill (s : SocketReader B) (i : Nat) (p : UdpDatagram) : SocketReader B :=
  let slot := s.slots i
  let heap := Function.update s.heap slot.iov_base ((s.heap slot.iov_base).receive p.data)
  let source := if p.source.size ≤ slot.msg_namelen then p.source else cfg.truncated p.source
  { s with
    heap := Function.update heap slot.msg_name ((heap slot.msg_name).setSource source)
    slots := Function.update s.slots i
      { slot with msg_namelen := p.source.size, msg_len := p.data.length } }

/-- `recvmmsg` fills the slots from `i` on. -/
def recvmmsg : SocketReader B → Nat → List UdpDatagram → SocketReader B
  | s, _, [] => s
  | s, i, p :: batch => recvmmsg (s.fill cfg i p) (i + 1) batch

/-- The body of the loop over the packets received, up to the `pop_wait` at its end.  Gives whether
the buffer was queued. -/
def handle (i : Nat) : EStateM Stop (SocketReader B) Bool := do
  let s ← get
  let a ← deref (s.slots i).buffer
  match get_key_from_sockaddr (s.heap a).source with
  -- another address family
  | none => return false
  | some node_key =>
    if node_key ∉ cfg.remote_nodes then return false
    let buffer ← Call.ofExcept ((s.heap a).setDataSize (s.slots i).msg_len)
    set { s with heap := Function.update s.heap a buffer }
    if buffer.dataSize < PacketHeader.size + PacketHeaderOption.size then return false
    let pkthdr := PacketHeader.read cfg.host fun k => buffer.content.getD k 0
    if pkthdr.ver > SETH_PACKET_HEADER_VERSION_V1 then return false
    if pkthdr.reserved ≠ 0 then return false
    if pkthdr.format ≠ PacketHeaderFormat.ENCAPSULATED then return false
    if pkthdr.channel ≠ 0 then return false
    modify fun s => { s with
      received_buffers := s.received_buffers.push_back node_key a
      slots := Function.update s.slots i { s.slots i with buffer := none } }
    return true

/-- The buffers that are not in the hands of the reader. -/
def shared (s : SocketReader B) : Multiset Nat :=
  s.available_tx_buffer_pool.pool + ∑ n ∈ cfg.remote_nodes, ↑(s.decoder_pool n).pool + s.elsewhere

/-- **The threads.** -/
inductive Step : SocketReader B → ReaderEvent → SocketReader B → Prop
  | filled {s : SocketReader B} {i a : Nat} {pool : BufferPool Nat B} (phase : s.phase = .filling i)
      (more : i < SETH_MAX_RECVMM_MESSAGES) (pop : s.available_tx_buffer_pool.pop_wait = .ok (a, pool)) :
      Step s .silent { s with
        available_tx_buffer_pool := pool
        slots := Function.update s.slots i
          ⟨some a, a, s.bufferSize a, a, SockaddrStorage.maxSize, (s.slots i).msg_len⟩
        phase := .filling (i + 1) }
  | ready {s : SocketReader B} (phase : s.phase = .filling SETH_MAX_RECVMM_MESSAGES) :
      Step s .silent { s with phase := .receiving }
  /-- `stop_flag` is set, or `recvmmsg` failed -/
  | stopped {s : SocketReader B} (phase : s.phase = .receiving) :
      Step s .silent { s with phase := .stopped }
  | received {s : SocketReader B} {batch : List UdpDatagram} (phase : s.phase = .receiving)
      (count : batch.length ≤ SETH_MAX_RECVMM_MESSAGES)
      (fits : ∀ i (h : i < batch.length), batch[i].data.length ≤ (s.slots i).iov_len)
      (family : ∀ p ∈ batch, p.source.size = cfg.name_size) :
      Step s (.received batch)
        { recvmmsg cfg s 0 batch with phase := .handling 0 batch.length }
  | dropped {s s' : SocketReader B} {i num_received : Nat} (phase : s.phase = .handling i num_received)
      (more : i < num_received) (run : (handle cfg i).run s = .ok false s') :
      Step s .silent { s' with phase := .handling (i + 1) num_received }
  | queued {s s' : SocketReader B} {i num_received : Nat} (phase : s.phase = .handling i num_received)
      (more : i < num_received) (run : (handle cfg i).run s = .ok true s') :
      Step s .silent { s' with phase := .replenishing i num_received }
  | replenished {s : SocketReader B} {i num_received a : Nat} {pool : BufferPool Nat B}
      (phase : s.phase = .replenishing i num_received)
      (pop : s.available_tx_buffer_pool.pop_wait = .ok (a, pool)) :
      Step s .silent { s with
        available_tx_buffer_pool := pool
        slots := Function.update s.slots i
          { s.slots i with buffer := some a, iov_base := a, msg_name := a }
        phase := .handling (i + 1) num_received }
  /-- the order of the map matters to nobody -/
  | handled {s : SocketReader B} {num_received : Nat} {node_keys : List In6Addr}
      (phase : s.phase = .handling num_received num_received)
      (keys : node_keys.Perm (s.received_buffers.values.map NodeBuffers.key)) :
      Step s .silent { s with phase := .pushing node_keys }
  | pushed {s : SocketReader B} {n : In6Addr} {node_keys : List In6Addr} {pool : BufferPool Nat B}
      (phase : s.phase = .pushing (n :: node_keys))
      (push : (s.decoder_pool n).pushBatch s.bufferSize (s.received_buffers.queue n) = .ok pool) :
      Step s (.pushed n ((s.received_buffers.queue n).map fun a => (s.heap a).datagram)) { s with
        decoder_pool := Function.update s.decoder_pool n pool
        received_buffers := s.received_buffers.clear n
        phase := .pushing node_keys }
  | again {s : SocketReader B} (phase : s.phase = .pushing []) :
      Step s .silent { s with phase := .receiving }
  /-- the other threads do what they like with the buffers that are not the reader's -/
  | others {s s' : SocketReader B} (slots : s'.slots = s.slots)
      (received_buffers : s'.received_buffers = s.received_buffers) (phase : s'.phase = s.phase)
      (kept : shared cfg s' ≤ shared cfg s) (heap : ∀ a ∉ shared cfg s, s'.heap a = s.heap a) :
      Step s .silent s'

/-! ## Who has which buffer -/

/-- The buffers in the slots. -/
def slotBuffers (slots : Nat → ReceiveSlot) : Multiset Nat :=
  ∑ i ∈ Finset.range SETH_MAX_RECVMM_MESSAGES, ↑(slots i).buffer.toList

/-- All buffers there are. -/
def owned (s : SocketReader B) : Multiset Nat :=
  slotBuffers s.slots + s.received_buffers.all + shared cfg s

variable {cfg} {s s' : SocketReader B} {i j a b : Nat} {n : In6Addr} {slot : ReceiveSlot}

theorem slotBuffers_update (slots : Nat → ReceiveSlot) (slot : ReceiveSlot) (hi : i < SETH_MAX_RECVMM_MESSAGES) :
    slotBuffers (Function.update slots i slot) + ↑(slots i).buffer.toList =
      slotBuffers slots + ↑slot.buffer.toList := by
  exact PointUpdate.sum_add (fun slot : ReceiveSlot => (slot.buffer.toList : Multiset Nat)) slots
    (Finset.mem_range.mpr hi) slot

theorem slotBuffers_congr {slots slots' : Nat → ReceiveSlot}
    (h : ∀ i, (slots' i).buffer = (slots i).buffer) : slotBuffers slots' = slotBuffers slots := by
  apply Finset.sum_congr rfl
  intro i _
  rw [h]

theorem mem_slotBuffers {slots : Nat → ReceiveSlot} (hi : i < SETH_MAX_RECVMM_MESSAGES)
    (h : (slots i).buffer = some a) : a ∈ slotBuffers slots := by
  refine Multiset.mem_sum.mpr ⟨i, Finset.mem_range.mpr hi, ?_⟩
  rw [h]
  exact List.mem_singleton_self a

section Nodup
variable (hnodup : (owned cfg s).Nodup) (hi : i < SETH_MAX_RECVMM_MESSAGES)
include hnodup

theorem queued_not_shared (ha : a ∈ s.received_buffers.all) : a ∉ shared cfg s := by
  intro hshared
  have hdisjoint := (Multiset.nodup_add.mp hnodup).2.2
  exact Multiset.disjoint_left.mp hdisjoint (Multiset.mem_add.mpr (Or.inr ha)) hshared

include hi

theorem slot_not_shared (h : (s.slots i).buffer = some a) : a ∉ shared cfg s := by
  intro hshared
  have hdisjoint := (Multiset.nodup_add.mp hnodup).2.2
  exact Multiset.disjoint_left.mp hdisjoint
    (Multiset.mem_add.mpr (Or.inl (mem_slotBuffers hi h))) hshared

theorem slot_not_queued (h : (s.slots i).buffer = some a) : a ∉ s.received_buffers.all := by
  intro hqueued
  have hdisjoint := (Multiset.nodup_add.mp (Multiset.nodup_add.mp hnodup).1).2.2
  exact Multiset.disjoint_left.mp hdisjoint (mem_slotBuffers hi h) hqueued

/-- No two slots have one buffer. -/
theorem slot_unique (hj : j < SETH_MAX_RECVMM_MESSAGES) (h : (s.slots i).buffer = some a)
    (h' : (s.slots j).buffer = some a) : i = j := by
  by_contra hne
  have hslots := (Multiset.nodup_add.mp (Multiset.nodup_add.mp hnodup).1).1
  have hmem : i ∈ Finset.range SETH_MAX_RECVMM_MESSAGES := Finset.mem_range.mpr hi
  rw [slotBuffers, ← Finset.add_sum_erase _ _ hmem, h] at hslots
  have hrest : a ∈ ∑ j ∈ (Finset.range SETH_MAX_RECVMM_MESSAGES).erase i,
      (↑(s.slots j).buffer.toList : Multiset Nat) := by
    refine Multiset.mem_sum.mpr ⟨j, Finset.mem_erase.mpr ⟨Ne.symm hne, Finset.mem_range.mpr hj⟩, ?_⟩
    rw [h']
    exact List.mem_singleton_self a
  have hdisjoint := (Multiset.nodup_add.mp hslots).2.2
  exact Multiset.disjoint_left.mp hdisjoint (List.mem_singleton_self a) hrest

end Nodup

theorem mem_all_of_mem_queue {received_buffers : ReceivedBuffers} (h : a ∈ received_buffers.queue n) :
    a ∈ received_buffers.all := by
  rw [← received_buffers.all_clear n]
  exact Multiset.mem_add.mpr (Or.inr h)

end SocketReader
end SuperEthd
