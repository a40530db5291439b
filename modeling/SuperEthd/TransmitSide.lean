import SuperEthd.Broadcast
import SuperEthd.EnoughBuffers
import SuperEthd.Lib.PointUpdate
import SuperEthd.TurnOwnership

/-! # The transmitting half of the switch

The TAP reader, and the encoder thread and the socket writer of each node
(`RemoteNode::_tunnel_encoder_handler`, `RemoteNode::_socket_write_handler`), as one transition system over
the buffers of `available_rx_buffer_pool`, which every one of them takes from or gives back to.

* The reader is that of `PacketSwitch`, with the branch of `Broadcast` for a multicast destination.
* An encoder thread is in its loop as in `EncoderThread`; a call of its encoder goes one turn at a time, as
  in `EncoderTurns`, and so does its constructor.  Between two turns the others do theirs, so before each
  its available pool is set to what is in it then (`lend`).
* A socket writer takes what is in its pool, sends one datagram after the other, and gives all of them back.
  `sendto` may fail; then the datagram counts as sent all the same, for that is what the writer makes of it.
* The TAP writer and the maintenance thread are there with what they do to the database (`Step.learn`).

A thread that sees the stop flag does nothing from then on, like one whose turn never comes, and a
thread that throws or dereferences a null pointer has no step.  `pop_wait` is taken as blocking until the
pool has a buffer, so at an empty pool a thread that wants one has no step; and a `wait` may return at any
time with what there is.  What a stolen or a spurious wake-up does is left to `BufferMonitor`. -/
namespace SuperEthd
open PacketHeaderOptionFormatType PacketEncoder

variable {H : Type} {B : Nat}

/-- `RemoteNode::_tunnel_encoder_handler`. -/
inductive SenderThread (H : Type) (B : Nat)
  /-- before the constructor of its encoder -/
  | starting
  /-- in the constructor, which has the `comp_buffer` and is to take the `tx_buffer` -/
  | constructing (comp_buffer : PacketBuffer B)
  /-- the encoder, the timeout in milliseconds, where the thread is in its loop, and where its call of the
  encoder waits, if it does -/
  | running (encoder : PacketEncoder H B) (timeout : Nat) (point : EncoderPoint B)
    (wait : Option (EncoderWait B))

/-- `RemoteNode::_socket_write_handler` with its pool: the datagrams of its round that are still to be sent,
and those that were. -/
structure SocketWriter (B : Nat) where
  socket_write_pool : BufferPool (PacketBuffer B) B
  buffers : List (PacketBuffer B)
  sent : List (PacketBuffer B)

/-- The threads.  While the reader is in the branch for a multicast destination, `broadcast` is its
`buffer` pointer and where it is there.  What the fields of an encoder say of its two pools is not what
is in them between its turns: its TX pool is all that was ever pushed there. -/
structure TransmitSide (H : Type) (B : Nat) where
  switch : PacketSwitch B
  broadcast : Option (Option (PacketBuffer B) × BroadcastPoint B)
  encoder : In6Addr → SenderThread H B
  writer : In6Addr → SocketWriter B

/-- What a step of a run does that can be seen from outside. -/
inductive TransmitEvent (B : Nat)
  /-- the TAP reader has seen which nodes the frame is for -/
  | routed (frame : PacketBuffer B) (nodes : List In6Addr)
  /-- `sendto` the node, which may fail -/
  | sent (n : In6Addr) (datagram : PacketBuffer B)
  | silent

/-- The same configuration with another destination. -/
abbrev Tunnel.to (T : Tunnel H) (dst_addr : SockaddrStorage) : Tunnel H := { T with dst_addr := dst_addr }

/-- The nodes that a frame for one station is for. -/
def PacketSwitch.targets (s : PacketSwitch B) (frame : PacketBuffer B) : List In6Addr :=
  match s.learning.fdb.getRemoteNode frame.dst_mac with
  | none => []
  | some fdb_entry => fdb_entry.dest.toList

namespace TransmitSide
variable (T : Tunnel H) (addr : In6Addr → SockaddrStorage) (expire_time : Int)

/-- Before the threads run. -/
def start (remote_nodes : List In6Addr) (available : List (PacketBuffer B)) : TransmitSide H B where
  switch := .start remote_nodes available
  broadcast := none
  encoder := fun _ => .starting
  writer := fun _ => ⟨⟨[]⟩, [], []⟩

/-- The encoder with the available pool as it is. -/
def lend (s : TransmitSide H B) (e : PacketEncoder H B) : PacketEncoder H B :=
  { e with available_buffer_pool := s.switch.available_rx_buffer_pool }

/-- Behind a turn of a call.  A flush that is through sets the timeout to zero. -/
def behind (encoder : PacketEncoder H B) (timeout : Nat) (point : EncoderPoint B) :
    Option (EncoderWait B) → SenderThread H B
  | some wait => .running encoder timeout point (some wait)
  | none =>
    match point with
    | .timedOut => .running encoder 0 .top none
    | point => .running encoder timeout point none

/-- The encoder of the node has pushed these datagrams, and leaves these buffers in the available pool. -/
def settle (s : TransmitSide H B) (n : In6Addr) (thread : SenderThread H B)
    (available : BufferPool (PacketBuffer B) B) (datagrams : List (PacketBuffer B)) : TransmitSide H B :=
  { s with
    switch := { s.switch with available_rx_buffer_pool := available }
    encoder := Function.update s.encoder n thread
    writer := Function.update s.writer n { s.writer n with
      socket_write_pool := ⟨(s.writer n).socket_write_pool.pool ++ datagrams⟩ } }

/-- The thread of the node goes on in its loop. -/
def goOn (s : TransmitSide H B) (n : In6Addr) (thread : SenderThread H B) : TransmitSide H B :=
  { s with encoder := Function.update s.encoder n thread }

/-- `wait_for` of the node returns true, with what there is. -/
def take (s : TransmitSide H B) (n : In6Addr) (encoder : PacketEncoder H B) (timeout : Nat) : TransmitSide H B :=
  { s with
    switch := { s.switch with encoder_pool := Function.update s.switch.encoder_pool n ⟨[]⟩ }
    encoder := Function.update s.encoder n
      (.running encoder timeout (.batch (s.switch.encoder_pool n).pool) none) }

/-- The socket writer of the node goes on in its loop. -/
def write (s : TransmitSide H B) (n : In6Addr) (writer : SocketWriter B) : TransmitSide H B :=
  { s with writer := Function.update s.writer n writer }

/-- The socket writer of the node gives the buffers of its round back. -/
def giveBack (s : TransmitSide H B) (n : In6Addr) : TransmitSide H B :=
  { s with
    switch := { s.switch with
      available_rx_buffer_pool := ⟨s.switch.available_rx_buffer_pool.pool ++ (s.writer n).sent⟩ }
    writer := Function.update s.writer n { s.writer n with sent := [] } }

/-- **The threads.** -/
inductive Step : TransmitSide H T.B → TransmitEvent T.B → TransmitSide H T.B → Prop
  /-- the TAP reader reads a frame and learns; the TAP writer learns, and the maintenance thread expires -/
  | learn {s : TransmitSide H T.B} {event : LearningEvent In6Addr} {switch : PacketSwitch T.B}
      (turn : PacketSwitch.Step expire_time s.switch (some event) switch) :
      Step s .silent { s with switch := switch }
  | pop {s : TransmitSide H T.B} {buffer : PacketBuffer T.B} {pool : BufferPool (PacketBuffer T.B) T.B}
      (reader : s.switch.tap_read = .reading none)
      (pop : s.switch.available_rx_buffer_pool.pop_wait = .ok (buffer, pool)) :
      Step s .silent { s with switch := { s.switch with
        available_rx_buffer_pool := pool, tap_read := .reading (some buffer) } }
  | unicast {s : TransmitSide H T.B} {buffer : PacketBuffer T.B} {next : Option (PacketBuffer T.B)}
      {switch : PacketSwitch T.B} (reader : s.switch.tap_read = .forwarding buffer)
      (outside : s.broadcast = none) (station : isMulticast buffer.dst_mac = false)
      (run : (PacketSwitch.forward buffer).run s.switch = .ok next switch) :
      Step s (.routed buffer (s.switch.targets buffer))
        { s with switch := { switch with tap_read := .reading next } }
  | multicast {s : TransmitSide H T.B} {buffer : PacketBuffer T.B} (reader : s.switch.tap_read = .forwarding buffer)
      (outside : s.broadcast = none) (group : isMulticast buffer.dst_mac = true) :
      Step s (.routed buffer s.switch.remote_nodes) { s with broadcast := some (some buffer, .multicast) }
  | branch {s : TransmitSide H T.B} {pointer : Option (PacketBuffer T.B)} {point : BroadcastPoint T.B}
      {event : Option (BroadcastEvent T.B)} {t : Broadcast T.B} (inside : s.broadcast = some (pointer, point))
      (run : (Broadcast.mk s.switch 0 pointer point).next = some (event, t)) :
      Step s .silent { s with switch := t.switch, broadcast := some (t.buffer, t.point) }
  | back {s : TransmitSide H T.B} {pointer : Option (PacketBuffer T.B)}
      (inside : s.broadcast = some (pointer, .done)) :
      Step s .silent { s with switch := { s.switch with tap_read := .reading none }, broadcast := none }
  | construct {s : TransmitSide H T.B} {n : In6Addr} {comp_buffer : PacketBuffer T.B}
      {pool : BufferPool (PacketBuffer T.B) T.B} (node : n ∈ s.switch.remote_nodes)
      (thread : s.encoder n = .starting)
      (pop : s.switch.available_rx_buffer_pool.pop_wait = .ok (comp_buffer, pool)) :
      Step s .silent (s.settle n (.constructing comp_buffer) pool [])
  | constructed {s : TransmitSide H T.B} {n : In6Addr} {comp_buffer : PacketBuffer T.B}
      {e : PacketEncoder H T.B} (thread : s.encoder n = .constructing comp_buffer)
      (run : (do _getTxBuffer; setPacketFormat T.libs T.packet_format : EncoderCall H T.B Unit).run
        { init ⟨[]⟩ s.switch.available_rx_buffer_pool with comp_buffer := some comp_buffer } = .ok () e) :
      Step s .silent (s.settle n (.running e 1 .top none) e.available_buffer_pool [])
  | items {s : TransmitSide H T.B} {n : In6Addr} {e : PacketEncoder H T.B} {timeout : Nat}
      (thread : s.encoder n = .running e timeout .top none) (items : (s.switch.encoder_pool n).pool ≠ []) :
      Step s .silent (s.take n e timeout)
  | wait {s : TransmitSide H T.B} {n : In6Addr} {e : PacketEncoder H T.B} {timeout : Nat}
      (thread : s.encoder n = .running e timeout .top none) (items : (s.switch.encoder_pool n).pool = []) :
      Step s .silent (s.goOn n (.running e timeout .waiting none))
  | wake {s : TransmitSide H T.B} {n : In6Addr} {e : PacketEncoder H T.B} {timeout : Nat}
      (thread : s.encoder n = .running e timeout .waiting none) : Step s .silent (s.take n e timeout)
  | timeout {s : TransmitSide H T.B} {n : In6Addr} {e : PacketEncoder H T.B} {timeout : Nat}
      (thread : s.encoder n = .running e timeout .waiting none) (limited : timeout ≠ 0) :
      Step s .silent (s.goOn n (.running e timeout .timedOut none))
  | flush {s : TransmitSide H T.B} {n : In6Addr} {e e' : PacketEncoder H T.B} {timeout fuel : Nat}
      {wait : Option (EncoderWait T.B)} {datagrams : List (PacketBuffer T.B)}
      (thread : s.encoder n = .running e timeout .timedOut none)
      (run : (startTurn (T.to (addr n)).encoder fuel .flush).run (s.lend e) = .ok wait e')
      (pushed : e'.tx_buffer_pool.pool = e.tx_buffer_pool.pool ++ datagrams) :
      Step s .silent (s.settle n (behind e' timeout .timedOut wait) e'.available_buffer_pool datagrams)
  | encode {s : TransmitSide H T.B} {n : In6Addr} {e e' : PacketEncoder H T.B} {timeout fuel : Nat}
      {buffer : PacketBuffer T.B} {buffers : List (PacketBuffer T.B)} {wait : Option (EncoderWait T.B)}
      {datagrams : List (PacketBuffer T.B)}
      (thread : s.encoder n = .running e timeout (.batch (buffer :: buffers)) none)
      (run : (startTurn (T.to (addr n)).encoder fuel (.encode buffer)).run (s.lend e) = .ok wait e')
      (pushed : e'.tx_buffer_pool.pool = e.tx_buffer_pool.pool ++ datagrams) :
      Step s .silent (s.settle n (behind e' timeout (.batch buffers) wait) e'.available_buffer_pool datagrams)
  | resume {s : TransmitSide H T.B} {n : In6Addr} {e e' : PacketEncoder H T.B} {timeout fuel : Nat}
      {point : EncoderPoint T.B} {w : EncoderWait T.B} {wait : Option (EncoderWait T.B)}
      {datagrams : List (PacketBuffer T.B)} (thread : s.encoder n = .running e timeout point (some w))
      (run : (PacketEncoder.resume (T.to (addr n)).encoder fuel w).run (s.lend e) = .ok wait e')
      (pushed : e'.tx_buffer_pool.pool = e.tx_buffer_pool.pool ++ datagrams) :
      Step s .silent (s.settle n (behind e' timeout point wait) e'.available_buffer_pool datagrams)
  | encoded {s : TransmitSide H T.B} {n : In6Addr} {e : PacketEncoder H T.B} {timeout : Nat}
      (thread : s.encoder n = .running e timeout (.batch []) none) :
      Step s .silent (s.goOn n (.running e 1 .top none))
  /-- the `wait` of the socket writer returns, notified or not, with what there is -/
  | writerWait {s : TransmitSide H T.B} {n : In6Addr} (buffers : (s.writer n).buffers = [])
      (sent : (s.writer n).sent = []) :
      Step s .silent (s.write n ⟨⟨[]⟩, (s.writer n).socket_write_pool.pool, []⟩)
  | send {s : TransmitSide H T.B} {n : In6Addr} {datagram : PacketBuffer T.B} {rest : List (PacketBuffer T.B)}
      (buffers : (s.writer n).buffers = datagram :: rest) :
      Step s (.sent n datagram)
        (s.write n ⟨(s.writer n).socket_write_pool, rest, (s.writer n).sent ++ [datagram]⟩)
  | giveBack {s : TransmitSide H T.B} {n : In6Addr} (buffers : (s.writer n).buffers = []) :
      Step s .silent (s.giveBack n)

end TransmitSide

/-! ## Who has which buffer -/

/-- The packet that a call has in its hands where it waits. -/
def waitBuffers (wait : Option (EncoderWait B)) : List (PacketBuffer B) := wait.elim [] EncoderWait.buffers

/-- The buffers that an encoder has, but for its pools. -/
def PacketEncoder.own (e : PacketEncoder H B) : Multiset Nat :=
  ids e.tx_buffer.toList + ids e.comp_buffer.toList + ids e.inflight_buffers

/-- The buffers that an encoder thread has. -/
def SenderThread.held : SenderThread H B → Multiset Nat
  | .starting => 0
  | .constructing comp_buffer => {comp_buffer.id}
  | .running e _ point wait => e.own + ids point.buffers + ids (waitBuffers wait)

/-- The encoder has the buffers it must have where its thread is. -/
def SenderThread.Equipped (format : PacketHeaderOptionFormatType) : SenderThread H B → Prop
  | .running e _ _ wait => ∃ m, Turned m format e wait
  | _ => True

/-- The buffers that a socket writer has, with those in its pool. -/
def SocketWriter.held (w : SocketWriter B) : Multiset Nat :=
  ids w.socket_write_pool.pool + ids w.buffers + ids w.sent

/-- The buffer that the TAP reader has. -/
def TapReader.buffers : TapReader B → List (PacketBuffer B)
  | .reading buffer => buffer.toList
  | .adding buffer => [buffer]
  | .forwarding buffer => [buffer]

namespace PacketEncoder
variable {format : PacketHeaderOptionFormatType} {m : Multiset Nat} {e : PacketEncoder H B}
  {wait : Option (EncoderWait B)}

theorem held_eq_own (e : PacketEncoder H B) :
    e.held = ids e.available_buffer_pool.pool + ids e.tx_buffer_pool.pool + e.own := by
  simp only [held, own]
  abel

/-- What the encoder and its call own behind a turn. -/
theorem Turned.held_eq (h : Turned m format e wait) : e.held + ids (waitBuffers wait) = m := by
  cases wait with
  | none => exact (add_zero _).trans (OwnsIdle.held h)
  | some w => exact h.held.1

/-- Another available pool. -/
theorem Turned.available (h : Turned m format e wait) (pool : BufferPool (PacketBuffer B) B) :
    ∃ m, Turned m format { e with available_buffer_pool := pool } wait := by
  cases wait with
  | none => exact ⟨_, rfl, h.packet_format, h.tx_buffer, h.comp_buffer⟩
  | some w =>
    cases w with
    | flush =>
      obtain ⟨comp, h, hcomp⟩ := h
      exact ⟨_, comp, ⟨rfl, h.packet_format, h.tx_buffer, h.comp_buffer⟩, hcomp⟩
    | part =>
      obtain ⟨m', comp, -, h⟩ := h
      exact ⟨_, _, comp, rfl, rfl, h.packet_format, h.tx_buffer, h.comp_buffer⟩
    | full =>
      obtain ⟨m', comp, -, h⟩ := h
      exact ⟨_, _, comp, rfl, rfl, h.packet_format, h.tx_buffer, h.comp_buffer⟩

end PacketEncoder

/-- What a move in the branch for a multicast destination leaves alone. -/
theorem Broadcast.Moves.same {remote_nodes : List In6Addr} {buffer : PacketBuffer B} {s s' : Broadcast B}
    {event : Option (BroadcastEvent B)} (h : Broadcast.Moves remote_nodes buffer s event s') :
    s'.others = s.others ∧ s'.switch.learning = s.switch.learning ∧ s'.switch.tap_read = s.switch.tap_read := by
  cases h <;> exact ⟨rfl, rfl, rfl⟩

namespace TransmitSide

/-- The buffers that the TAP reader has. -/
def reading (s : TransmitSide H B) : Multiset Nat :=
  match s.broadcast with
  | none => ids s.switch.tap_read.buffers
  | some (pointer, point) => ids pointer.toList + ids (Broadcast.copyBuffer point)

/-- **The buffers in the available pool, with the TAP reader, and with the threads of the nodes.** -/
def places (s : TransmitSide H B) : Multiset Nat :=
  ids s.switch.available_rx_buffer_pool.pool +
    ∑ n ∈ s.switch.remote_nodes.toFinset, ids (s.switch.encoder_pool n).pool + s.reading +
    ∑ n ∈ s.switch.remote_nodes.toFinset, (s.encoder n).held +
    ∑ n ∈ s.switch.remote_nodes.toFinset, (s.writer n).held

/-- In the branch for a multicast destination its invariant holds. -/
def InBranch (s : TransmitSide H B) : Prop :=
  match s.broadcast with
  | none => True
  | some (pointer, point) => ∃ buffer labels, s.switch.tap_read = .forwarding buffer ∧
      Broadcast.Inv s.switch.remote_nodes buffer labels ⟨s.switch, 0, pointer, point⟩

/-- Every buffer is in one place, and the encoders have those they need. -/
structure Owned (remote_nodes : List In6Addr) (format : PacketHeaderOptionFormatType)
    (available : List (PacketBuffer B)) (s : TransmitSide H B) : Prop where
  places : s.places = ids available
  remote_nodes_eq : s.switch.remote_nodes = remote_nodes
  known : s.switch.Known
  branch : s.InBranch
  equipped : ∀ n, (s.encoder n).Equipped format
  starting : ∀ n ∉ remote_nodes, s.encoder n = .starting
  unused : ∀ n ∉ remote_nodes, s.writer n = ⟨⟨[]⟩, [], []⟩

variable {T : Tunnel H} {addr : In6Addr → SockaddrStorage} {expire_time : Int}
  {remote_nodes : List In6Addr}

section Steps
variable {available : List (PacketBuffer B)} {format : PacketHeaderOptionFormatType} {s : TransmitSide H B}
  {n : In6Addr}

/-- What is in the pools of the nodes, when one of them gets a buffer. -/
theorem sum_pools_push (switch : PacketSwitch B) (hn : n ∈ remote_nodes) (buffer : PacketBuffer B) :
    ∑ m ∈ remote_nodes.toFinset, ids ((Broadcast.afterPush switch n buffer).encoder_pool m).pool =
      ∑ m ∈ remote_nodes.toFinset, ids (switch.encoder_pool m).pool + {buffer.id} :=
  Broadcast.sum_push switch.encoder_pool buffer hn

/-- **A turn** of an encoder thread moves buffers between the thread and its pools. -/
theorem places_settle {thread : SenderThread H B} {pool : BufferPool (PacketBuffer B) B}
    {datagrams : List (PacketBuffer B)} (hn : n ∈ s.switch.remote_nodes)
    (h : ids pool.pool + thread.held + ids datagrams =
      ids s.switch.available_rx_buffer_pool.pool + (s.encoder n).held) :
    (s.settle n thread pool datagrams).places = s.places := by
  have hmem := List.mem_toFinset.mpr hn
  have hthread := PointUpdate.sum_add SenderThread.held s.encoder hmem thread
  have hwriter := PointUpdate.sum_add SocketWriter.held s.writer hmem { s.writer n with
    socket_write_pool := ⟨(s.writer n).socket_write_pool.pool ++ datagrams⟩ }
  have hheld : SocketWriter.held { s.writer n with
      socket_write_pool := ⟨(s.writer n).socket_write_pool.pool ++ datagrams⟩ } =
        ids datagrams + (s.writer n).held := by
    simp only [SocketWriter.held, ids_append]
    abel
  rw [hheld, ← add_assoc] at hwriter
  have hwriter := add_right_cancel hwriter
  -- the thread's share is moved to the other side
  apply add_right_cancel (b := (s.encoder n).held)
  simp only [places, settle, reading]
  rw [hwriter]
  calc _ = (∑ m ∈ s.switch.remote_nodes.toFinset, (Function.update s.encoder n thread m).held +
          (s.encoder n).held) + (ids pool.pool + ids datagrams) +
        (∑ m ∈ s.switch.remote_nodes.toFinset, ids (s.switch.encoder_pool m).pool + s.reading +
          ∑ m ∈ s.switch.remote_nodes.toFinset, (s.writer m).held) := by
        simp only [reading]
        abel
    _ = (ids pool.pool + thread.held + ids datagrams) +
        (∑ m ∈ s.switch.remote_nodes.toFinset, (s.encoder m).held +
          ∑ m ∈ s.switch.remote_nodes.toFinset, ids (s.switch.encoder_pool m).pool + s.reading +
          ∑ m ∈ s.switch.remote_nodes.toFinset, (s.writer m).held) := by
        rw [hthread]
        abel
    _ = _ := by
        rw [h]
        simp only [reading]
        abel

theorem InBranch.congr {s' : TransmitSide H B} (h : s.InBranch) (hinside : s'.broadcast = s.broadcast)
    (htap : ∀ buffer, s.switch.tap_read = .forwarding buffer → s'.switch.tap_read = .forwarding buffer)
    (hnodes : s'.switch.remote_nodes = s.switch.remote_nodes) : s'.InBranch := by
  unfold InBranch at h ⊢
  rw [hinside]
  cases hb : s.broadcast with
  | none => trivial
  | some inside =>
    rw [hb] at h
    obtain ⟨buffer, labels, hreader, hinv⟩ := h
    rw [hnodes]
    exact ⟨buffer, labels, htap buffer hreader, hinv⟩

theorem held_behind (e : PacketEncoder H B) (timeout : Nat) (point : EncoderPoint B)
    (wait : Option (EncoderWait B)) :
    (behind e timeout point wait).held = e.own + ids point.buffers + ids (waitBuffers wait) := by
  cases wait with
  | some w => rfl
  | none => cases point <;> rfl

theorem equipped_behind {e : PacketEncoder H B} {m : Multiset Nat} {wait : Option (EncoderWait B)} (timeout : Nat)
    (point : EncoderPoint B) (h : Turned m format e wait) : (behind e timeout point wait).Equipped format := by
  cases wait with
  | some w => exact ⟨m, h⟩
  | none => cases point <;> exact ⟨m, h⟩

namespace Owned
variable (h : Owned remote_nodes format available s)
include h

theorem mem_of_encoder (hthread : s.encoder n ≠ .starting) : n ∈ s.switch.remote_nodes := by
  rw [h.remote_nodes_eq]
  by_contra hn
  exact hthread (h.starting n hn)

/-- Behind a turn of an encoder thread. -/
theorem settle {thread : SenderThread H B} {pool : BufferPool (PacketBuffer B) B}
    {datagrams : List (PacketBuffer B)} (hn : n ∈ s.switch.remote_nodes)
    (hheld : ids pool.pool + thread.held + ids datagrams =
      ids s.switch.available_rx_buffer_pool.pool + (s.encoder n).held)
    (hthread : thread.Equipped format) :
    Owned remote_nodes format available (s.settle n thread pool datagrams) := by
  have hne : ∀ m ∉ remote_nodes, m ≠ n := by
    rintro m hm rfl
    exact hm (h.remote_nodes_eq ▸ hn)
  refine ⟨(places_settle hn hheld).trans h.places, h.remote_nodes_eq, h.known.congr ⟨rfl, rfl⟩,
    h.branch.congr rfl (fun _ hreader => hreader) rfl, fun m => ?_, fun m hm => ?_, fun m hm => ?_⟩
  · by_cases hm : m = n
    · subst hm
      exact (congrArg _ (Function.update_self ..)).mpr hthread
    · exact (congrArg _ (Function.update_of_ne hm ..)).mpr (h.equipped m)
  · exact (Function.update_of_ne (hne m hm) ..).trans (h.starting m hm)
  · exact (Function.update_of_ne (hne m hm) ..).trans (h.unused m hm)

/-- A turn of a call, which has the packet and the buffers of the batch in its hands. -/
theorem turn {e e' : PacketEncoder H B} {timeout : Nat} {point point' : EncoderPoint B}
    {wait wait' : Option (EncoderWait B)} {datagrams : List (PacketBuffer B)} {m : Multiset Nat}
    (hthread : s.encoder n = .running e timeout point wait) (hturned : Turned m format e' wait')
    (hm : (s.lend e).held + ids point.buffers + ids (waitBuffers wait) = m + ids point'.buffers)
    (hpushed : e'.tx_buffer_pool.pool = e.tx_buffer_pool.pool ++ datagrams) :
    Owned remote_nodes format available
      (s.settle n (behind e' timeout point' wait') e'.available_buffer_pool datagrams) := by
  have hn : n ∈ s.switch.remote_nodes := h.mem_of_encoder (by rw [hthread]; exact fun heq => by cases heq)
  refine h.settle hn ?_ (equipped_behind timeout point' hturned)
  have hheld := hturned.held_eq
  rw [held_eq_own, hpushed, ids_append] at hheld
  rw [← hheld, held_eq_own] at hm
  rw [held_behind, hthread, SenderThread.held]
  -- all that was ever pushed is on both sides
  apply add_right_cancel (b := ids e.tx_buffer_pool.pool)
  calc _ = ids e'.available_buffer_pool.pool + (ids e.tx_buffer_pool.pool + ids datagrams) + e'.own +
        ids (waitBuffers wait') + ids point'.buffers := by abel
    _ = ids s.switch.available_rx_buffer_pool.pool + ids e.tx_buffer_pool.pool + e.own + ids point.buffers +
        ids (waitBuffers wait) := hm.symm
    _ = _ := by abel

/-- The thread goes on in its loop with what it has. -/
theorem goOn {thread : SenderThread H B} (hn : s.encoder n ≠ .starting) (hheld : thread.held = (s.encoder n).held)
    (hthread : thread.Equipped format) : Owned remote_nodes format available (s.goOn n thread) := by
  have hsettled : Owned remote_nodes format available (s.settle n thread s.switch.available_rx_buffer_pool []) :=
    h.settle (h.mem_of_encoder hn) (by rw [hheld, ids_nil, add_zero]) hthread
  have heq : s.settle n thread s.switch.available_rx_buffer_pool [] = s.goOn n thread := by
    simp only [TransmitSide.settle, TransmitSide.goOn, List.append_nil, Function.update_eq_self]
  rw [← heq]
  exact hsettled

end Owned

/-- The constructor, which goes from buffer to buffer, does what it does in one go. -/
theorem starts_of_constructed {comp_buffer : PacketBuffer T.B} {pool : BufferPool (PacketBuffer T.B) T.B}
    {e : PacketEncoder H T.B}
    (hrun : (do _getTxBuffer; setPacketFormat T.libs T.packet_format : EncoderCall H T.B Unit).run
      { init ⟨[]⟩ pool with comp_buffer := some comp_buffer } = .ok () e) :
    Starts T.libs T.packet_format 1 (comp_buffer :: pool.pool) e ∧ e.tx_buffer_pool.pool = [] := by
  have hbounds := T.size_bounds
  have h8 : PacketHeader.size = 8 := rfl
  obtain ⟨_, e1, hget, hformat⟩ := Call.run_bind_eq_ok.mp hrun
  have hnew : (new : EncoderCall H T.B Unit).run (init ⟨[]⟩ ⟨comp_buffer :: pool.pool⟩) = .ok () e1 := hget
  rcases _getTxBuffer_run (e := ({ init ⟨[]⟩ pool with comp_buffer := some comp_buffer } : PacketEncoder H T.B))
    (by omega) with ⟨-, hblocked⟩ | ⟨tx, -, hgot⟩
  · cases hget.symm.trans hblocked
  obtain ⟨-, rfl⟩ := EStateM.Result.ok.inj (hget.symm.trans hgot)
  constructor
  · exact (Call.run_bind_of_ok hnew).trans hformat
  · have hkeeps : Call.Meets (fun e : PacketEncoder H T.B => e.tx_buffer_pool.pool = [])
        (setPacketFormat T.libs T.packet_format) (fun _ e => e.tx_buffer_pool.pool = []) Anything := by
      refine Call.Meets.bind (Q := fun _ (e : PacketEncoder H T.B) => e.tx_buffer_pool.pool = []) (fun e h => h) fun _ => ?_
      have hset : ∀ comp : Option (CompressionStream H), Call.Meets
          (fun e : PacketEncoder H T.B => e.tx_buffer_pool.pool = []) (modify fun e => { e with compressor := comp })
          (fun _ e => e.tx_buffer_pool.pool = []) Anything := fun comp e h => h
      exact .ite (fun _ => hset _) fun _ => .ite (fun _ => hset _) fun _ => .ite (fun _ => hset _) fun _ _ _ => trivial
    exact hkeeps.ok (by rfl) hformat

namespace Owned
variable {s : TransmitSide H T.B} {available : List (PacketBuffer T.B)}
  (h : Owned remote_nodes T.packet_format available s)
include h

theorem construct {comp_buffer : PacketBuffer T.B} {pool : BufferPool (PacketBuffer T.B) T.B}
    (hn : n ∈ s.switch.remote_nodes) (hthread : s.encoder n = .starting)
    (hpop : s.switch.available_rx_buffer_pool.pop_wait = .ok (comp_buffer, pool)) :
    Owned remote_nodes T.packet_format available (s.settle n (.constructing comp_buffer) pool []) := by
  refine h.settle hn ?_ trivial
  rw [BufferPool.pool_of_pop_wait hpop, hthread, ids_cons, ids_nil]
  simp only [SenderThread.held]
  abel

theorem constructed {comp_buffer : PacketBuffer T.B} {e : PacketEncoder H T.B}
    (hthread : s.encoder n = .constructing comp_buffer)
    (hrun : (do _getTxBuffer; setPacketFormat T.libs T.packet_format : EncoderCall H T.B Unit).run
      { init ⟨[]⟩ s.switch.available_rx_buffer_pool with comp_buffer := some comp_buffer } = .ok () e) :
    Owned remote_nodes T.packet_format available
      (s.settle n (.running e 1 .top none) e.available_buffer_pool []) := by
  have hn : n ∈ s.switch.remote_nodes := h.mem_of_encoder (by rw [hthread]; exact fun heq => by cases heq)
  obtain ⟨hstarts, hpool⟩ := starts_of_constructed hrun
  have howns := hstarts.owns
  refine h.settle hn ?_ ⟨_, howns⟩
  have hheld := howns.held
  rw [held_eq_own, hpool, ids_nil, add_zero, ids_cons] at hheld
  simp only [hthread, SenderThread.held, EncoderPoint.buffers, waitBuffers, Option.elim_none, ids_nil, add_zero]
  rw [hheld, add_comm]

/-- The thread takes what is in its pool. -/
theorem take {e : PacketEncoder H T.B} {timeout : Nat} {point : EncoderPoint T.B}
    (hthread : s.encoder n = .running e timeout point none) (hpoint : point.buffers = []) :
    Owned remote_nodes T.packet_format available (s.take n e timeout) := by
  have hn : n ∈ s.switch.remote_nodes := h.mem_of_encoder (by rw [hthread]; exact fun heq => by cases heq)
  have hmem := List.mem_toFinset.mpr hn
  have hequipped := h.equipped n
  rw [hthread] at hequipped
  have hsame : SenderThread.held (.running e timeout (.batch []) none) = (s.encoder n).held := by
    rw [hthread, SenderThread.held, SenderThread.held, hpoint]
    rfl
  have hgoOn : Owned remote_nodes T.packet_format available (s.goOn n (.running e timeout (.batch []) none)) :=
    h.goOn (by rw [hthread]; exact fun heq => by cases heq) hsame hequipped
  refine ⟨?_, h.remote_nodes_eq, h.known.congr ⟨rfl, rfl⟩,
    h.branch.congr rfl (fun _ hreader => hreader) rfl, fun m => ?_, fun m hm => ?_, h.unused⟩
  · rw [← hgoOn.places]
    have hpools := PointUpdate.sum_add (fun p : BufferPool (PacketBuffer T.B) T.B => ids p.pool)
      s.switch.encoder_pool hmem ⟨[]⟩
    have hheld : SenderThread.held (.running e timeout (.batch (s.switch.encoder_pool n).pool) none) =
        SenderThread.held (.running e timeout (.batch []) none) + ids (s.switch.encoder_pool n).pool := by
      simp only [SenderThread.held, EncoderPoint.buffers, ids_nil]
      abel
    have hold := PointUpdate.sum_add SenderThread.held s.encoder hmem (.running e timeout (.batch []) none)
    have hnew := PointUpdate.sum_add SenderThread.held s.encoder hmem
      (.running e timeout (.batch (s.switch.encoder_pool n).pool) none)
    rw [hheld, ← add_assoc, ← hold] at hnew
    have hthreads := add_right_cancel (hnew.trans (add_right_comm _ _ _))
    rw [ids_nil, add_zero] at hpools
    simp only [TransmitSide.places, TransmitSide.take, TransmitSide.goOn, reading]
    rw [hthreads, ← hpools]
    abel
  · by_cases hm : m = n
    · subst hm
      exact (congrArg _ (Function.update_self ..)).mpr hequipped
    · exact (congrArg _ (Function.update_of_ne hm ..)).mpr (h.equipped m)
  · refine (Function.update_of_ne ?_ ..).trans (h.starting m hm)
    rintro rfl
    exact hm (h.remote_nodes_eq ▸ hn)

end Owned

/-! ## The TAP reader -/

/-- Learning moves no buffer. -/
theorem learn_same {switch switch' : PacketSwitch B} {event : LearningEvent In6Addr}
    (h : PacketSwitch.Step expire_time switch (some event) switch') :
    switch'.available_rx_buffer_pool = switch.available_rx_buffer_pool ∧
      switch'.encoder_pool = switch.encoder_pool ∧ switch'.remote_nodes = switch.remote_nodes ∧
      ids switch'.tap_read.buffers = ids switch.tap_read.buffers ∧
      ∀ buffer, switch.tap_read = .forwarding buffer → switch'.tap_read = .forwarding buffer := by
  cases h with
  | dropped hreader | found hreader | missed hreader =>
    refine ⟨rfl, rfl, rfl, by rw [hreader]; rfl, fun buffer heq => ?_⟩
    rw [hreader] at heq
    cases heq
  | added hreader =>
    refine ⟨rfl, rfl, rfl, by rw [hreader]; rfl, fun buffer heq => ?_⟩
    rw [hreader] at heq
    cases heq
  | others => exact ⟨rfl, rfl, rfl, rfl, fun _ heq => heq⟩

/-- **A frame for one station** goes to its node, or stays with the reader. -/
theorem forward_station {switch switch' : PacketSwitch B} {buffer : PacketBuffer B}
    {next : Option (PacketBuffer B)} (hknown : switch.Known) (hstation : isMulticast buffer.dst_mac = false)
    (hrun : (PacketSwitch.forward buffer).run switch = .ok next switch') :
    switch.targets buffer = [] ∧ next = some buffer ∧ switch' = switch ∨
      ∃ n ∈ switch.remote_nodes, switch.targets buffer = [n] ∧ next = none ∧
        switch' = Broadcast.afterPush switch n buffer := by
  cases hget : switch.learning.fdb.getRemoteNode buffer.dst_mac with
  | none =>
    rw [PacketSwitch.forward_unknown hstation hget] at hrun
    obtain ⟨rfl, rfl⟩ := EStateM.Result.ok.inj hrun
    exact Or.inl ⟨by rw [PacketSwitch.targets, hget], rfl, rfl⟩
  | some entry =>
    cases hdest : entry.dest with
    | none =>
      rw [PacketSwitch.forward_local hstation hget (Option.isNone_iff_eq_none.mpr hdest)] at hrun
      cases hrun
    | some n =>
      rw [PacketSwitch.forward_remote hstation hget hdest] at hrun
      obtain ⟨rfl, rfl⟩ := EStateM.Result.ok.inj hrun
      refine Or.inr ⟨n, hknown _ _ _ hget hdest, ?_, rfl, rfl⟩
      rw [PacketSwitch.targets, hget]
      exact congrArg Option.toList hdest

namespace Owned
variable {s : TransmitSide H B} (h : Owned remote_nodes format available s)
include h

theorem learn {event : LearningEvent In6Addr} {switch : PacketSwitch B}
    (hturn : PacketSwitch.Step expire_time s.switch (some event) switch) :
    Owned remote_nodes format available { s with switch := switch } := by
  obtain ⟨havailable, hpools, hnodes, htap, hforwarding⟩ := learn_same hturn
  refine ⟨?_, hnodes.trans h.remote_nodes_eq, h.known.step hturn, h.branch.congr rfl hforwarding hnodes,
    h.equipped, h.starting, h.unused⟩
  rw [← h.places]
  simp only [TransmitSide.places, reading, havailable, hpools, hnodes, htap]

/-- A reader that is to take a buffer is in no branch. -/
theorem outside (hreader : s.switch.tap_read = .reading none) : s.broadcast = none := by
  have hbranch := h.branch
  unfold InBranch at hbranch
  cases hb : s.broadcast with
  | none => rfl
  | some inside =>
    rw [hb] at hbranch
    obtain ⟨_, _, hforwarding, -⟩ := hbranch
    cases hreader.symm.trans hforwarding

theorem pop {buffer : PacketBuffer B} {pool : BufferPool (PacketBuffer B) B}
    (hreader : s.switch.tap_read = .reading none)
    (hpop : s.switch.available_rx_buffer_pool.pop_wait = .ok (buffer, pool)) :
    Owned remote_nodes format available { s with switch := { s.switch with
      available_rx_buffer_pool := pool, tap_read := .reading (some buffer) } } := by
  have hnone := h.outside hreader
  refine ⟨?_, h.remote_nodes_eq, h.known.congr ⟨rfl, rfl⟩, by unfold InBranch; rw [hnone]; trivial,
    h.equipped, h.starting, h.unused⟩
  rw [← h.places]
  simp only [TransmitSide.places, reading, hnone, hreader, BufferPool.pool_of_pop_wait hpop, TapReader.buffers, Option.toList_some,
    Option.toList_none, ids_cons, ids_nil]
  abel

theorem unicast {buffer : PacketBuffer B} {next : Option (PacketBuffer B)} {switch : PacketSwitch B}
    (hreader : s.switch.tap_read = .forwarding buffer) (hnone : s.broadcast = none)
    (hstation : isMulticast buffer.dst_mac = false)
    (hrun : (PacketSwitch.forward buffer).run s.switch = .ok next switch) :
    Owned remote_nodes format available { s with switch := { switch with tap_read := .reading next } } := by
  have hbranch : ∀ switch', InBranch { s with switch := switch' } := by
    intro switch'
    unfold InBranch
    rw [hnone]
    trivial
  rcases forward_station h.known hstation hrun with ⟨-, rfl, rfl⟩ | ⟨n, hn, -, rfl, rfl⟩
  · refine ⟨?_, h.remote_nodes_eq, h.known.congr ⟨rfl, rfl⟩, hbranch _, h.equipped, h.starting, h.unused⟩
    rw [← h.places]
    simp only [TransmitSide.places, reading, hnone, hreader, TapReader.buffers, Option.toList_some]
  · refine ⟨?_, h.remote_nodes_eq, h.known.congr ⟨rfl, rfl⟩, hbranch _, h.equipped, h.starting, h.unused⟩
    have hpush := sum_pools_push s.switch hn buffer
    rw [← h.places]
    simp only [TransmitSide.places, reading, hnone, hreader, TapReader.buffers, Option.toList_none, ids_cons, ids_nil]
    rw [show (Broadcast.afterPush s.switch n buffer).remote_nodes = s.switch.remote_nodes from rfl, hpush]
    simp only [Broadcast.afterPush]
    abel

theorem multicast {buffer : PacketBuffer B} (hreader : s.switch.tap_read = .forwarding buffer)
    (hnone : s.broadcast = none) :
    Owned remote_nodes format available { s with broadcast := some (some buffer, .multicast) } := by
  refine ⟨?_, h.remote_nodes_eq, h.known, ?_, h.equipped, h.starting, h.unused⟩
  · rw [← h.places]
    simp only [TransmitSide.places, reading, hnone, hreader, TapReader.buffers, Option.toList_some,
      Broadcast.copyBuffer, ids_nil, add_zero]
  · exact ⟨buffer, [], hreader, rfl, rfl, fun _ hmem => absurd hmem List.not_mem_nil, rfl⟩

/-- In the branch a move of the reader is one of those that `Broadcast` says. -/
theorem moves (hnodup : remote_nodes.Nodup) (hne : remote_nodes ≠ []) {pointer : Option (PacketBuffer B)}
    {point : BroadcastPoint B} {event : Option (BroadcastEvent B)} {t : Broadcast B}
    (hinside : s.broadcast = some (pointer, point))
    (hrun : (Broadcast.mk s.switch 0 pointer point).next = some (event, t)) :
    ∃ buffer labels, s.switch.tap_read = .forwarding buffer ∧
      Broadcast.Inv remote_nodes buffer labels ⟨s.switch, 0, pointer, point⟩ ∧
      Broadcast.Moves remote_nodes buffer ⟨s.switch, 0, pointer, point⟩ event t := by
  have hbranch := h.branch
  unfold InBranch at hbranch
  rw [hinside, h.remote_nodes_eq] at hbranch
  obtain ⟨buffer, labels, hreader, hinv⟩ := hbranch
  rcases hinv.moves h.remote_nodes_eq hnodup hne with ⟨event', t', hnext, hmove⟩ | ⟨hnext, -⟩
  · obtain ⟨rfl, rfl⟩ := Prod.mk.inj (Option.some.inj (hnext.symm.trans hrun))
    exact ⟨buffer, labels, hreader, hinv, hmove⟩
  · cases hnext.symm.trans hrun

theorem branchStep (hnodup : remote_nodes.Nodup) (hne : remote_nodes ≠ []) {pointer : Option (PacketBuffer B)}
    {point : BroadcastPoint B} {event : Option (BroadcastEvent B)} {t : Broadcast B}
    (hinside : s.broadcast = some (pointer, point))
    (hrun : (Broadcast.mk s.switch 0 pointer point).next = some (event, t)) :
    Owned remote_nodes format available { s with switch := t.switch, broadcast := some (t.buffer, t.point) } := by
  obtain ⟨buffer, labels, hreader, hinv, hmove⟩ := h.moves hnodup hne hinside hrun
  obtain ⟨hothers, hlearning, htap⟩ := hmove.same
  have hnodes := hmove.remote_nodes_eq
  have howned := hmove.owned hinv h.remote_nodes_eq
  refine ⟨?_, hnodes.trans h.remote_nodes_eq, h.known.congr ⟨hlearning, hnodes⟩, ?_, h.equipped, h.starting,
    h.unused⟩
  · rw [← h.places]
    simp only [Broadcast.owned, Broadcast.shared, hothers, hnodes, add_zero] at howned
    simp only [TransmitSide.places, reading, hinside, hnodes]
    rw [← add_assoc, howned]
    abel
  · refine ⟨buffer, labels ++ [event], htap.trans hreader, ?_⟩
    have hkept := hmove.inv hinv
    rw [show t.switch.remote_nodes = remote_nodes from hnodes.trans h.remote_nodes_eq]
    exact hkept

theorem back {pointer : Option (PacketBuffer B)} (hinside : s.broadcast = some (pointer, .done)) :
    Owned remote_nodes format available
      { s with switch := { s.switch with tap_read := .reading none }, broadcast := none } := by
  have hbranch := h.branch
  unfold InBranch at hbranch
  rw [hinside] at hbranch
  obtain ⟨buffer, labels, -, hinv⟩ := hbranch
  obtain rfl : pointer = none := hinv.1
  refine ⟨?_, h.remote_nodes_eq, h.known.congr ⟨rfl, rfl⟩, trivial, h.equipped, h.starting, h.unused⟩
  rw [← h.places]
  simp only [TransmitSide.places, reading, hinside, TapReader.buffers, Option.toList_none, Broadcast.copyBuffer,
    ids_nil, add_zero]

/-! ## The socket writer -/

theorem write {writer : SocketWriter B} (hheld : writer.held = (s.writer n).held)
    (hunused : s.writer n = ⟨⟨[]⟩, [], []⟩ → writer = ⟨⟨[]⟩, [], []⟩) :
    Owned remote_nodes format available (s.write n writer) := by
  refine ⟨?_, h.remote_nodes_eq, h.known, h.branch.congr rfl (fun _ hreader => hreader) rfl, h.equipped,
    h.starting, fun m hm => ?_⟩
  · rw [← h.places]
    exact congrArg (_ + ·) (PointUpdate.sum_congr SocketWriter.held s.writer hheld)
  · by_cases heq : m = n
    · subst heq
      exact (Function.update_self ..).trans (hunused (h.unused m hm))
    · exact (Function.update_of_ne heq ..).trans (h.unused m hm)

theorem giveBack : Owned remote_nodes format available (s.giveBack n) := by
  have hkept : ∀ m ∉ remote_nodes, (s.giveBack n).writer m = ⟨⟨[]⟩, [], []⟩ := by
    intro m hm
    by_cases heq : m = n
    · subst heq
      refine (Function.update_self ..).trans ?_
      rw [h.unused m hm]
    · exact (Function.update_of_ne heq ..).trans (h.unused m hm)
  refine ⟨?_, h.remote_nodes_eq, h.known.congr ⟨rfl, rfl⟩, h.branch.congr rfl (fun _ hreader => hreader) rfl,
    h.equipped, h.starting, hkept⟩
  have hheld : SocketWriter.held { s.writer n with sent := [] } + ids (s.writer n).sent = (s.writer n).held := by
    simp only [SocketWriter.held, ids_nil, add_zero]
  rw [← h.places]
  simp only [TransmitSide.places, TransmitSide.giveBack, reading, ids_append]
  by_cases hn : n ∈ s.switch.remote_nodes
  · have hsum := PointUpdate.sum_add SocketWriter.held s.writer (List.mem_toFinset.mpr hn)
      { s.writer n with sent := [] }
    rw [← hheld, add_left_comm, ← add_assoc, add_comm (SocketWriter.held _)] at hsum
    have hsum := add_right_cancel ((add_right_comm _ _ _).trans hsum)
    rw [← hsum]
    abel
  · have hempty := h.unused n (h.remote_nodes_eq ▸ hn)
    have hsum := PointUpdate.sum_congr SocketWriter.held s.writer (i := n) (a := { s.writer n with sent := [] })
      (s := s.switch.remote_nodes.toFinset) (by rw [hempty])
    rw [hsum, hempty, ids_nil, add_zero]

end Owned

end Steps

/-! ## Whole runs -/

section Runs
variable {available : List (PacketBuffer T.B)} {s s' : TransmitSide H T.B} {event : TransmitEvent T.B}
  {events : List (TransmitEvent T.B)}

/-- **One step** of any thread loses no buffer. -/
theorem Owned.step (hnodup : remote_nodes.Nodup) (hne : remote_nodes ≠ [])
    (h : Owned remote_nodes T.packet_format available s) (hstep : Step T addr expire_time s event s') :
    Owned remote_nodes T.packet_format available s' := by
  cases hstep with
  | learn hturn => exact h.learn hturn
  | pop hreader hpop => exact h.pop hreader hpop
  | unicast hreader hnone hstation hrun => exact h.unicast hreader hnone hstation hrun
  | multicast hreader hnone => exact h.multicast hreader hnone
  | branch hinside hrun => exact h.branchStep hnodup hne hinside hrun
  | back hinside => exact h.back hinside
  | construct hn hthread hpop => exact h.construct hn hthread hpop
  | constructed hthread hrun => exact h.constructed hthread hrun
  | items hthread => exact h.take hthread rfl
  | @wait n e timeout hthread | @timeout n e timeout hthread | @encoded n e timeout hthread =>
    have hequipped := h.equipped n
    rw [hthread] at hequipped
    exact h.goOn (by rw [hthread]; exact fun heq => by cases heq) (by rw [hthread]; rfl) hequipped
  | wake hthread => exact h.take hthread rfl
  | @flush n e e' timeout fuel wait datagrams hthread hrun hpushed =>
    have hequipped := h.equipped n
    rw [hthread] at hequipped
    obtain ⟨m, hidle⟩ := hequipped
    have hlent : OwnsIdle (s.lend e).held T.packet_format (s.lend e) :=
      ⟨rfl, hidle.packet_format, hidle.tx_buffer, hidle.comp_buffer⟩
    refine h.turn hthread ((startTurn_turned .flush).ok hlent hrun) ?_ hpushed
    rfl
  | @encode n e e' timeout fuel buffer buffers wait datagrams hthread hrun hpushed =>
    have hequipped := h.equipped n
    rw [hthread] at hequipped
    obtain ⟨m, hidle⟩ := hequipped
    have hlent : OwnsIdle (s.lend e).held T.packet_format (s.lend e) :=
      ⟨rfl, hidle.packet_format, hidle.tx_buffer, hidle.comp_buffer⟩
    refine h.turn hthread ((startTurn_turned (.encode buffer)).ok hlent hrun) ?_ hpushed
    simp only [EncoderPoint.buffers, waitBuffers, Option.elim_none, Op.buffers, ids_cons, ids_nil]
    abel
  | @resume n e e' timeout fuel point w wait datagrams hthread hrun hpushed =>
    have hequipped := h.equipped n
    rw [hthread] at hequipped
    obtain ⟨m, hturned⟩ := hequipped
    obtain ⟨m', hlent⟩ := hturned.available s.switch.available_rx_buffer_pool
    refine h.turn hthread ((resume_turned w).ok hlent hrun) ?_ hpushed
    rw [← hlent.held_eq, lend]
    abel
  | @writerWait n hbuffers hsent =>
    refine h.write ?_ fun hunused => ?_
    · simp only [SocketWriter.held, hbuffers, hsent, ids_nil]
      abel
    · rw [hunused]
  | @send n datagram rest hbuffers =>
    refine h.write ?_ fun hunused => ?_
    · simp only [SocketWriter.held, hbuffers, ids_append, ids_cons, ids_nil]
      abel
    · rw [hunused] at hbuffers
      cases hbuffers
  | giveBack => exact h.giveBack

theorem Owned.start (remote_nodes : List In6Addr) (available : List (PacketBuffer T.B)) :
    Owned remote_nodes T.packet_format available (.start remote_nodes available : TransmitSide H T.B) := by
  refine ⟨?_, rfl, ?_, trivial, fun _ => trivial, fun _ _ => rfl, fun _ _ => rfl⟩
  · simp [TransmitSide.places, TransmitSide.start, PacketSwitch.start, reading, SenderThread.held, SocketWriter.held,
      TapReader.buffers]
  · intro mac entry node hget
    cases hget

theorem Owned.of_path (hnodup : remote_nodes.Nodup) (hne : remote_nodes ≠ [])
    (hrun : StepPath (Step T addr expire_time) (.start remote_nodes available) events s) :
    Owned remote_nodes T.packet_format available s :=
  hrun.invariant (fun _ _ _ h hstep => h.step hnodup hne hstep) (.start remote_nodes available)

end Runs

end TransmitSide
end SuperEthd
