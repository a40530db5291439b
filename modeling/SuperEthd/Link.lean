import SuperEthd.ArrivalOrder
import SuperEthd.Lib.Channel
import SuperEthd.ReceiveProgress
import SuperEthd.TransmitProgress

/-! # A link

The transmitting half of one station, the network, and the receiving half of another: what the first
reads from its TAP device and routes to the second, and what the second handles of it.

A step of the link is one step of one of the three.

* The stations are those of `TransmitSide` and `ReceiveSide`, with all their threads.  They are configured
  alike, as the two ends of a tunnel have to be.
* The network is the channel of `Channel`: what the sender's socket writer sends to the receiver is in
  flight behind what already is, and may be lost, duplicated or reordered.  `sendto` hands on the whole
  datagram; one that fails is a loss.
* What the receiver's reader gets from the sender's address is the first in flight.  What it gets from any
  other address is arbitrary, and may come in between.

What comes out depends on what the network does: no frame that was not sent (`link_invents_nothing`), those
all of whose datagrams came, in order, if it only loses (`link_keeps_order`), and all of them if it does
nothing (`link_delivers_all`).  All of it is said of runs in which LZ4's history stays what it was when it
was decoded (`Lz4Once`), which the code does not see to. -/
namespace SuperEthd
open PacketHeaderOptionFormatType PacketEncoder
open ChannelEvent (allSent allArrived)

variable {H : Type} {B : Nat}

/-! ## The encoder of a node -/

/-- An encoder before its first call. -/
theorem exists_idle_of_new (T : Tunnel H) : ∃ e : PacketEncoder H T.B, Idle T 1 e ∧ e.accepted = [] := by
  let b : PacketBuffer T.B := .ofData 0 [] (Nat.zero_le _)
  obtain ⟨e, hrun⟩ := TransmitSide.exists_constructed T b b []
  exact ⟨e, (TransmitSide.starts_of_constructed hrun).1.fresh⟩

namespace TransmitSide

/-- **The encoder of the node**, where its call has pushed what was pushed so far. -/
structure EncoderFor (T : Tunnel H) (n : In6Addr) (events : List (TransmitEvent T.B)) (s : TransmitSide H T.B)
    (e : PacketEncoder H T.B) : Prop where
  idle : Idle T 1 e
  sent : sentTo n events <+: e.tx_buffer_pool.pool
  accepted : (routedTo n events).filter (·.length ≤ T.l2mtu) =
    e.accepted ++ (s.coming n).filter (·.length ≤ T.l2mtu)
  quiet : s.Quiet n → sentTo n events = e.tx_buffer_pool.pool ∧ EncoderThread.Drained e

namespace Through
variable {T : Tunnel H} {n : In6Addr} {events : List (TransmitEvent T.B)} {s : TransmitSide H T.B}

/-- Before the constructor is through, nothing was sent. -/
theorem exists_encoder_of_new (hlib : Bounded T) (h : Through T n events s) (hsent : (s.encoder n).datagrams = [])
    (haccepted : (s.encoder n).accepted = []) (hnot : ∀ e, s.encoder n ≠ .running e 0 .waiting none) :
    ∃ e, EncoderFor T n events s e := by
  have horder := h.inOrder hlib
  obtain ⟨e, hidle, hfresh⟩ := exists_idle_of_new T
  refine ⟨e, hidle, ?_, ?_, fun hquiet => ?_⟩
  · have hnone := horder.sent
    rw [hsent, List.append_assoc] at hnone
    rw [(List.append_eq_nil_iff.mp hnone).1]
    exact List.nil_prefix
  · have hframes := horder.accepted
    rw [haccepted] at hframes
    rw [hfresh]
    exact hframes
  · obtain ⟨e', hthread⟩ := hquiet.encoder
    exact absurd hthread (hnot e')

theorem exists_encoder (hlib : Bounded T) (h : Through T n events s) : ∃ e, EncoderFor T n events s e := by
  cases hthread : s.encoder n with
  | starting =>
    refine h.exists_encoder_of_new hlib (by rw [hthread]; rfl) (by rw [hthread]; rfl) fun e heq => ?_
    cases hthread.symm.trans heq
  | constructing =>
    refine h.exists_encoder_of_new hlib (by rw [hthread]; rfl) (by rw [hthread]; rfl) fun e heq => ?_
    cases hthread.symm.trans heq
  | running e timeout point wait =>
    have horder := h.inOrder hlib
    have hsent := horder.sent
    have haccepted := horder.accepted
    obtain ⟨arrived, -, htook⟩ := h.arrived
    rw [hthread] at htook hsent haccepted
    obtain ⟨made, encoder, labels, thread, hstarts, hpath, -, -, hpre, hsame, -, hsettled⟩ := htook.exists_thread hlib
    have hkeeps := EncoderThread.keeps_of_path hlib hstarts hpath
    refine ⟨thread.encoder, hkeeps.idle, ?_, ?_, fun hquiet => ?_⟩
    · have hpushed : sentTo n events <+: e.tx_buffer_pool.pool := by
        rw [List.append_assoc] at hsent
        exact ⟨_, hsent⟩
      exact hpushed.trans hpre
    · rw [hsame]
      exact haccepted
    · obtain ⟨e', hthread'⟩ := hquiet.encoder
      obtain ⟨rfl, rfl, rfl, rfl⟩ := SenderThread.running.inj (hthread.symm.trans hthread')
      obtain ⟨rfl, htimeout, hpoint⟩ := hsettled rfl
      rw [hquiet.buffers, hquiet.socket_write_pool, List.append_nil, List.append_nil] at hsent
      exact ⟨hsent, hkeeps.drained ⟨Or.inr hpoint, htimeout⟩⟩

end Through
end TransmitSide

/-! ## The link -/

/-- The two stations, which are configured alike: `tunnel` has the sizes, the format and the byte order of both.
The sender knows the receiver as `remote`, and is known to it as `origin`. -/
structure LinkConfig (H : Type) where
  tunnel : Tunnel H
  addr : In6Addr → SockaddrStorage
  expire_time : Int
  reader : ReaderConfig
  heap : Nat → UInt8
  remote : In6Addr
  origin : In6Addr
  known : origin ∈ reader.remote_nodes
  host : reader.host = tunnel.host

/-- What the encoder for the receiver is made with. -/
abbrev LinkConfig.T (L : LinkConfig H) : Tunnel H := L.tunnel.to (L.addr L.remote)

/-- A `sockaddr_in6` fits into the name of a message. -/
theorem sockaddr_in6_fits : 28 ≤ SockaddrStorage.maxSize := by decide

/-- A link from one station to another with the smallest sizes, over IPv4. -/
def LinkConfig.smallest (here there : Vector UInt8 4) : LinkConfig (List (List UInt8)) where
  tunnel := .smallestLZ4 (.inet 58023 there)
  addr _ := .inet 58023 there
  expire_time := 300
  reader := ⟨{mappedAddr here}, .little, 28, sockaddr_in6_fits, id⟩
  heap _ := 0
  remote := mappedAddr there
  origin := mappedAddr here
  known := Finset.mem_singleton_self _
  host := rfl

/-- The sender, the datagrams in flight from it to the receiver, and the receiver. -/
structure Link (H : Type) (B : Nat) where
  sender : TransmitSide H B
  flying : List (List UInt8)
  receiver : ReceiveSide H B

/-- What a step does. -/
inductive LinkEvent (B : Nat)
  | sender (event : TransmitEvent B)
  | receiver (event : ReceiveEvent B)
  | network (fault : ChannelFault)

namespace Link

/-- What the sender did. -/
def atSender (events : List (LinkEvent B)) : List (TransmitEvent B) :=
  events.flatMap fun event => match event with
    | .sender event => [event]
    | _ => []

/-- What the receiver did. -/
def atReceiver (events : List (LinkEvent B)) : List (ReceiveEvent B) :=
  events.flatMap fun event => match event with
    | .receiver event => [event]
    | _ => []

/-- The datagrams that came in from the address of the node. -/
def comesFrom (n : In6Addr) (events : List (ReceiveEvent B)) : List UdpDatagram :=
  (arrivals (readerEvents events)).filter fun p => get_key_from_sockaddr p.source = some n

/-- The datagrams that were sent to the node. -/
def goesOut (n : In6Addr) (events : List (TransmitEvent B)) : List (List UInt8) :=
  (TransmitSide.sentTo n events).map PacketBuffer.data

/-- **The two stations and the network.**  Nobody else sends from the sender's address. -/
inductive Step (L : LinkConfig H) : Link H L.tunnel.B → LinkEvent L.tunnel.B → Link H L.tunnel.B → Prop
  | sender {s : Link H L.tunnel.B} {event : TransmitEvent L.tunnel.B} {sender : TransmitSide H L.tunnel.B}
      (turn : TransmitSide.Step L.tunnel L.addr L.expire_time s.sender event sender) :
      Step L s (.sender event) { s with sender := sender, flying := s.flying ++ goesOut L.remote [event] }
  | receiver {s : Link H L.tunnel.B} {event : ReceiveEvent L.tunnel.B} {receiver : ReceiveSide H L.tunnel.B}
      {flying : List (List UInt8)}
      (turn : ReceiveSide.Step L.reader (L.T.decoder L.heap) s.receiver event receiver)
      (comes : s.flying = (comesFrom L.origin [event]).map UdpDatagram.data ++ flying) :
      Step L s (.receiver event) { s with flying := flying, receiver := receiver }
  | network {s : Link H L.tunnel.B} {fault : ChannelFault} {flying : List (List UInt8)}
      (turn : Channel.Step s.flying (.fault fault) flying) :
      Step L s (.network fault) { s with flying := flying }

/-- Before anything is sent. -/
def start (remote_nodes : List In6Addr) (available : List (PacketBuffer B)) (heap : Nat → PacketBuffer B)
    (free : List Nat) (tap_writer : TapWriter) : Link H B :=
  ⟨.start remote_nodes available, [], .start heap free tap_writer⟩

/-- What happens to the channel between them. -/
def onChannel (L : LinkConfig H) (events : List (LinkEvent L.tunnel.B)) : List (ChannelEvent (List UInt8)) :=
  events.flatMap fun event => match event with
    | .sender event => (goesOut L.remote [event]).map .sent
    | .receiver event => ((comesFrom L.origin [event]).map UdpDatagram.data).map .arrived
    | .network fault => [.fault fault]

/-- The frames for the receiver that are not too large. -/
def routed (L : LinkConfig H) (events : List (LinkEvent L.tunnel.B)) : List (List UInt8) :=
  (TransmitSide.routedTo L.remote (atSender events)).filter (·.length ≤ L.tunnel.l2mtu)

/-- The frames of the sender that the TAP writer of the receiver handled. -/
def delivered (L : LinkConfig H) (events : List (LinkEvent L.tunnel.B)) : List (List UInt8) :=
  ((framesHandled (atReceiver events)).filter fun b => FromNode L.origin b).map PacketBuffer.data

/-! ## The parts of a run -/

theorem comesFrom_append (n : In6Addr) (events events' : List (ReceiveEvent B)) :
    comesFrom n (events ++ events') = comesFrom n events ++ comesFrom n events' := by
  rw [comesFrom, ReceiveSide.readerEvents_append, arrivals, List.flatMap_append, List.filter_append]
  rfl

theorem goesOut_append (n : In6Addr) (events events' : List (TransmitEvent B)) :
    goesOut n (events ++ events') = goesOut n events ++ goesOut n events' := by
  rw [goesOut, TransmitSide.sentTo_append, List.map_append]
  rfl

theorem atSender_map_sender (events : List (TransmitEvent B)) : atSender (events.map .sender) = events := by
  induction events with
  | nil => rfl
  | cons event events ih => exact congrArg (event :: ·) ih

theorem atSender_map_receiver (events : List (ReceiveEvent B)) : atSender (events.map .receiver) = [] := by
  induction events with
  | nil => rfl
  | cons event events ih => exact ih

theorem atReceiver_map_sender (events : List (TransmitEvent B)) : atReceiver (events.map .sender) = [] := by
  induction events with
  | nil => rfl
  | cons event events ih => exact ih

theorem atReceiver_map_receiver (events : List (ReceiveEvent B)) :
    atReceiver (events.map .receiver) = events := by
  induction events with
  | nil => rfl
  | cons event events ih => exact congrArg (event :: ·) ih

section Paths
variable {L : LinkConfig H} {s s' : Link H L.tunnel.B} {events : List (LinkEvent L.tunnel.B)}

/-- **A run of the link** is a run of each of its three parts. -/
theorem paths (h : StepPath (Step L) s events s') :
    StepPath (TransmitSide.Step L.tunnel L.addr L.expire_time) s.sender (atSender events) s'.sender ∧
      StepPath (ReceiveSide.Step L.reader (L.T.decoder L.heap)) s.receiver (atReceiver events) s'.receiver ∧
      StepPath Channel.Step s.flying (onChannel L events) s'.flying := by
  induction h with
  | nil s => exact ⟨.nil _, .nil _, .nil _⟩
  | cons hstep _ ih =>
    obtain ⟨hsender, hreceiver, hchannel⟩ := ih
    cases hstep with
    | sender turn => exact ⟨.cons turn hsender, hreceiver, (Channel.path_of_sent _ _).append hchannel⟩
    | receiver turn comes =>
      refine ⟨hsender, .cons turn hreceiver, StepPath.append ?_ hchannel⟩
      rw [comes]
      exact Channel.path_of_arrivals _ _
    | network turn => exact ⟨hsender, hreceiver, .cons turn hchannel⟩

/-- What was sent is what went out. -/
theorem allSent_onChannel : allSent (onChannel L events) = goesOut L.remote (atSender events) := by
  induction events with
  | nil => rfl
  | cons event events ih =>
    have hcons : onChannel L (event :: events) = onChannel L [event] ++ onChannel L events := by
      rw [onChannel, onChannel, List.flatMap_singleton]
      rfl
    rw [hcons, ChannelEvent.allSent_append, ih]
    cases event with
    | sender event =>
      rw [onChannel, List.flatMap_singleton, ChannelEvent.allSent_map_sent, ← goesOut_append]
      rfl
    | receiver event =>
      rw [onChannel, List.flatMap_singleton, ChannelEvent.allSent_map_arrived]
      rfl
    | network => rfl

/-- What arrived is what came in. -/
theorem allArrived_onChannel :
    allArrived (onChannel L events) = (comesFrom L.origin (atReceiver events)).map UdpDatagram.data := by
  induction events with
  | nil => rfl
  | cons event events ih =>
    have hcons : onChannel L (event :: events) = onChannel L [event] ++ onChannel L events := by
      rw [onChannel, onChannel, List.flatMap_singleton]
      rfl
    rw [hcons, ChannelEvent.allArrived_append, ih]
    cases event with
    | sender event =>
      rw [onChannel, List.flatMap_singleton, ChannelEvent.allArrived_map_sent]
      rfl
    | receiver event =>
      rw [onChannel, List.flatMap_singleton, ChannelEvent.allArrived_map_arrived, ← List.map_append, ← comesFrom_append]
      rfl
    | network => rfl

/-- Only the network makes faults. -/
theorem mem_of_fault {fault : ChannelFault} (h : .fault fault ∈ onChannel L events) : .network fault ∈ events := by
  obtain ⟨event, hmem, hevent⟩ := List.mem_flatMap.mp h
  cases event with
  | sender event =>
    obtain ⟨_, -, heq⟩ := List.mem_map.mp hevent
    cases heq
  | receiver event =>
    obtain ⟨_, -, heq⟩ := List.mem_map.mp hevent
    cases heq
  | network fault' =>
    cases List.mem_singleton.mp hevent
    exact hmem

end Paths

/-! ## What the datagrams are -/

section Streams
variable {L : LinkConfig H} {remote_nodes : List In6Addr} {available : List (PacketBuffer L.tunnel.B)}
  {heap : Nat → PacketBuffer L.tunnel.B} {free : List Nat} {tap_writer : TapWriter} {s : Link H L.tunnel.B}
  {events : List (LinkEvent L.tunnel.B)}

/-- **The stream of the sender**, as far as its encoder got: what was sent is of it, what arrived has its
numbers, and the frames that were accepted are those that were routed, but for those on their way. -/
structure Streams (L : LinkConfig H) (events : List (LinkEvent L.tunnel.B)) (s : Link H L.tunnel.B)
    (e : PacketEncoder H L.tunnel.B) (ds : List (Datagram H)) (pending : List (Record H))
    (place : Nat → Cursor H × UInt32) (js ks : List Nat) : Prop where
  encoder : TransmitSide.EncoderFor L.T L.remote (atSender events) s.sender e
  emitted : ∃ c0 c, Emitted L.T 1 ds pending c0 c e ∧ place ds.length = (c0, e.sequence)
  accepted : (finished (ds.flatMap Datagram.records ++ pending)).map EncodedFrame.frame = e.accepted
  places : Places L.T 1 ds place
  sent : goesOut L.remote (atSender events) <+: ds.map (Datagram.bytes L.tunnel.host)
  numbered : Channel.Numbered (onChannel L events) s.flying js ks
  quiet : s.sender.Quiet L.remote →
    goesOut L.remote (atSender events) = ds.map (Datagram.bytes L.tunnel.host) ∧ pending = []

/-- What has a number was emitted. -/
theorem Streams.of_sent {e : PacketEncoder H L.tunnel.B} {ds : List (Datagram H)} {pending : List (Record H)}
    {place : Nat → Cursor H × UInt32} {js ks : List Nat} (h : Streams L events s e ds pending place js ks) {j : Nat}
    {data : List UInt8} (hsent : Channel.Sent (onChannel L events) j data) :
    ∃ D, ds[j]? = some D ∧ data = D.bytes L.tunnel.host := by
  obtain ⟨rest, hrest⟩ := h.sent
  rw [Channel.Sent, allSent_onChannel] at hsent
  have hj := (List.getElem?_eq_some_iff.mp hsent).1
  have hsent : (goesOut L.remote (atSender events) ++ rest)[j]? = some data :=
    (List.getElem?_append_left hj).trans hsent
  rw [hrest, List.getElem?_map] at hsent
  obtain ⟨D, hD, hbytes⟩ := Option.map_eq_some_iff.mp hsent
  exact ⟨D, hD, hbytes.symm⟩

/-- **Any run of the link** has such a stream. -/
theorem exists_streams (hlib : Bounded L.T) (hnodup : remote_nodes.Nodup) (hne : remote_nodes ≠ [])
    (hrun : StepPath (Step L) (start remote_nodes available heap free tap_writer) events s) :
    ∃ e ds pending place js ks, Streams L events s e ds pending place js ks := by
  obtain ⟨hsender, -, hchannel⟩ := paths hrun
  have hthrough : TransmitSide.Through L.T L.remote (atSender events) s.sender := .of_path hnodup hne hsender L.remote
  obtain ⟨e, hencoder⟩ := hthrough.exists_encoder hlib
  obtain ⟨ds, pending, c0, history, place, hem, hacc, hplaces, hend, -⟩ := hencoder.idle.places
  obtain ⟨js, ks, hnumbered⟩ := Channel.exists_numbers hchannel
  refine ⟨e, ds, pending, place, js, ks, hencoder, ⟨c0, _, hem, hend⟩, hacc, hplaces, ?_, hnumbered, fun h => ?_⟩
  · have hsent := hencoder.sent.map PacketBuffer.data
    rw [hem.pool] at hsent
    exact hsent
  · obtain ⟨hall, ⟨tx, htx, h8⟩, -⟩ := hencoder.quiet h
    refine ⟨?_, hem.pending_eq_nil htx h8⟩
    rw [goesOut, hall]
    exact hem.pool

section Arrived
variable {e : PacketEncoder H L.tunnel.B} {ds : List (Datagram H)} {pending : List (Record H)}
  {place : Nat → Cursor H × UInt32} {js ks : List Nat}

/-- The datagrams that came in are of the stream. -/
theorem Streams.forall₂ (h : Streams L events s e ds pending place js ks) :
    List.Forall₂ (OfStream L.T ds) js (comesFrom L.origin (atReceiver events)) := by
  have harrived := h.numbered.arrived
  rw [allArrived_onChannel] at harrived
  exact (List.forall₂_map_right_iff.mp harrived).imp fun _ _ hsent => h.of_sent hsent

theorem Streams.lt_length (h : Streams L events s e ds pending place js ks) : ∀ j ∈ js, j < ds.length := by
  intro j hj
  obtain ⟨k, hk, rfl⟩ := List.getElem_of_mem hj
  obtain ⟨D, hD, -⟩ := List.Forall₂.get h.forall₂ hk (h.forall₂.length_eq ▸ hk)
  exact (List.getElem?_eq_some_iff.mp hD).1

/-- All of them pass the checks of the reader. -/
theorem Streams.filter_goesTo (h : Streams L events s e ds pending place js ks) :
    (arrivals (readerEvents (atReceiver events))).filter (fun p => decide (GoesTo L.reader L.origin p)) =
      comesFrom L.origin (atReceiver events) := by
  have hpasses : ∀ p ∈ comesFrom L.origin (atReceiver events), HeaderPasses L.reader.host p.data := by
    intro p hp
    obtain ⟨j, D, hD, hdata⟩ := exists_ofStream h.forall₂ hp
    rw [hdata, L.host]
    exact Datagram.headerPasses (h.places.emits hD).nonempty _
  refine List.filter_congr fun p hp => decide_eq_decide.mpr ⟨fun hgoes => hgoes.1, fun hkey => ?_⟩
  exact ⟨hkey, L.known, hpasses p (List.mem_filter.mpr ⟨hp, decide_eq_true hkey⟩)⟩

/-- **What the TAP writer of the receiver makes of them**, where the sequence check sees what is not the
next datagram. -/
theorem Streams.delivers (hlib : LosslessLib L.T) (hfree : free.Nodup)
    (hrun : StepPath (Step L) (start remote_nodes available heap free tap_writer) events s)
    (h : Streams L events s e ds pending place js ks)
    (honce : Lz4Once L.reader L.T L.heap L.origin (atReceiver events))
    (hon : ∀ js1 j js2 D (d : PacketDecoder H L.T.B), js = js1 ++ j :: js2 → ds[j]? = some D →
      PacketDecoder.Mirrors ds place (Receiver.run ds place js1) d →
      PacketDecoder.Honest (Receiver.run ds place js1) j D.sequence d) :
    ReceiveSide.Delivers (T := L.T) L.reader L.origin ((Receiver.run ds place js).frames.map EncodedFrame.frame)
      (atReceiver events) s.receiver := by
  obtain ⟨-, hreceiver, -⟩ := paths hrun
  refine ReceiveSide.delivers_of_places (T := L.T) hlib h.places hfree hreceiver L.known ?_ honce hon
  rw [h.filter_goesTo]
  exact h.forall₂

/-- A frame that came out was accepted, where its index says. -/
theorem Streams.of_mem_run (h : Streams L events s e ds pending place js ks) {f : EncodedFrame H}
    (hf : f ∈ (Receiver.run ds place js).frames) : e.accepted[f.index]? = some f.frame := by
  obtain ⟨c0, c, hem, hend⟩ := h.emitted
  exact accepted_of_mem_run hem h.places hend h.accepted h.lt_length hf

/-- A frame comes out once, where nothing is duplicated. -/
theorem Streams.nodup_run (h : Streams L events s e ds pending place js ks) (hjs : js.Nodup) :
    ((Receiver.run ds place js).frames.map EncodedFrame.index).Nodup := by
  refine List.nodup_iff_count_le_one.mpr fun m => ?_
  by_cases hm : m ∈ (Receiver.run ds place js).frames.map EncodedFrame.index
  · -- the datagram that the frame ends in
    obtain ⟨f, hf, rfl⟩ := List.mem_map.mp hm
    obtain ⟨i, D, hD, hf⟩ := Receiver.exists_of_mem_run h.places h.lt_length hf
    have hi := (List.getElem?_eq_some_iff.mp hD).1
    obtain ⟨h1, h2⟩ := (h.places.emits hD).index_of_finished hf
    refine (Receiver.count_run_le h.places h.lt_length hi fun j hj h3 h4 => ?_).trans
      (List.nodup_iff_count_le_one.mp hjs i)
    rcases Nat.lt_trichotomy j i with hlt | heq | hlt
    · have hle : (place (j + 1)).1.index ≤ (place i).1.index := h.places.index_le hlt hi.le
      omega
    · exact heq
    · have hle : (place (i + 1)).1.index ≤ (place j).1.index := h.places.index_le hlt hj.le
      omega
  · rw [List.count_eq_zero.mpr hm]
    exact Nat.zero_le 1

/-- The frames that came out, each once, are accepted ones. -/
theorem Streams.subperm (h : Streams L events s e ds pending place js ks) (hjs : js.Nodup) :
    ((Receiver.run ds place js).frames.map EncodedFrame.frame).Subperm e.accepted := by
  have hframes : (Receiver.run ds place js).frames.map EncodedFrame.frame =
      ((Receiver.run ds place js).frames.map EncodedFrame.index).map fun m => e.accepted.getD m [] := by
    rw [List.map_map]
    refine List.map_congr_left fun f hf => ?_
    rw [Function.comp_apply, List.getD_eq_getElem?_getD, h.of_mem_run hf]
    rfl
  have haccepted : (List.range e.accepted.length).map (fun m => e.accepted.getD m []) = e.accepted := by
    refine List.ext_getElem (by rw [List.length_map, List.length_range]) fun i h1 h2 => ?_
    rw [List.getElem_map, List.getElem_range, List.getD_eq_getElem _ _ h2]
  have hsubset : (Receiver.run ds place js).frames.map EncodedFrame.index ⊆ List.range e.accepted.length := by
    intro m hm
    obtain ⟨f, hf, rfl⟩ := List.mem_map.mp hm
    exact List.mem_range.mpr (List.getElem?_eq_some_iff.mp (h.of_mem_run hf)).1
  obtain ⟨ms, hperm, hsub⟩ := List.subperm_of_subset (h.nodup_run hjs) hsubset
  have hsub := hsub.map fun m => e.accepted.getD m []
  rw [haccepted] at hsub
  rw [hframes]
  exact ⟨ms.map _, hperm.map _, hsub⟩

/-- The datagrams that were sent are numbered as the channel numbers them. -/
theorem Streams.length_le (h : Streams L events s e ds pending place js ks) :
    (goesOut L.remote (atSender events)).length ≤ ds.length := by
  have hlen := h.sent.length_le
  rw [List.length_map] at hlen
  exact hlen

/-- The frames that were routed, but for those on their way. -/
theorem Streams.routed_eq (h : Streams L events s e ds pending place js ks) : routed L events =
    e.accepted ++ (s.sender.coming L.remote).filter (·.length ≤ L.tunnel.l2mtu) := h.encoder.accepted

/-- What arrived was sent. -/
theorem Streams.lt_sent (h : Streams L events s e ds pending place js ks) :
    ∀ j ∈ js, j < (goesOut L.remote (atSender events)).length := by
  have hlt := Channel.lt_of_sent h.numbered.arrived
  rw [allSent_onChannel] at hlt
  exact hlt

end Arrived

/-! ## A frame that goes all the way -/

/-- The sender goes on, and the others do nothing. -/
theorem path_of_sender {sender : TransmitSide H L.tunnel.B} {events : List (TransmitEvent L.tunnel.B)}
    (h : StepPath (TransmitSide.Step L.tunnel L.addr L.expire_time) s.sender events sender) :
    StepPath (Step L) s (events.map .sender)
      { s with sender := sender, flying := s.flying ++ goesOut L.remote events } := by
  generalize hstart : s.sender = first at h
  induction h generalizing s with
  | nil =>
    obtain rfl := hstart
    have hsame : s.flying ++ goesOut (B := L.tunnel.B) L.remote [] = s.flying := List.append_nil _
    rw [hsame]
    exact .nil _
  | @cons t t1 t2 event events hstep _ ih =>
    obtain rfl := hstart
    have hrest := ih (s := { s with sender := t1, flying := s.flying ++ goesOut L.remote [event] }) rfl
    rw [List.append_assoc, ← goesOut_append] at hrest
    exact .cons (.sender hstep) hrest

/-- The receiver goes on, with what is in flight. -/
theorem path_of_receiver {receiver : ReceiveSide H L.tunnel.B} {events : List (ReceiveEvent L.tunnel.B)}
    {flying : List (List UInt8)}
    (h : StepPath (ReceiveSide.Step L.reader (L.T.decoder L.heap)) s.receiver events receiver)
    (hflying : s.flying = (comesFrom L.origin events).map UdpDatagram.data ++ flying) :
    StepPath (Step L) s (events.map .receiver) { s with flying := flying, receiver := receiver } := by
  generalize hstart : s.receiver = first at h
  induction h generalizing s with
  | nil =>
    obtain rfl := hstart
    obtain rfl : s.flying = flying := hflying
    exact .nil _
  | @cons t t1 t2 event events hstep _ ih =>
    obtain rfl := hstart
    have hcons : comesFrom L.origin (event :: events) = comesFrom L.origin [event] ++ comesFrom L.origin events :=
      comesFrom_append L.origin [event] events
    rw [hcons, List.map_append, List.append_assoc] at hflying
    exact .cons (.receiver hstep hflying) (ih (s := { s with flying := _, receiver := t1 }) rfl rfl)

/-- **The sender, and then the receiver**, with what was sent. -/
theorem path_of_parts {sender : TransmitSide H L.tunnel.B} {receiver : ReceiveSide H L.tunnel.B}
    {sends : List (TransmitEvent L.tunnel.B)} {receives : List (ReceiveEvent L.tunnel.B)}
    (hsender : StepPath (TransmitSide.Step L.tunnel L.addr L.expire_time) (.start remote_nodes available) sends sender)
    (hreceiver : StepPath (ReceiveSide.Step L.reader (L.T.decoder L.heap)) (.start heap free tap_writer) receives receiver)
    (hsame : goesOut L.remote sends = (comesFrom L.origin receives).map UdpDatagram.data) :
    ∃ events, StepPath (Step L) (start remote_nodes available heap free tap_writer) events ⟨sender, [], receiver⟩ ∧
      (∀ fault, .network fault ∉ events) ∧ atSender events = sends ∧ atReceiver events = receives := by
  have hfirst := path_of_sender (s := start remote_nodes available heap free tap_writer) hsender
  have hrest : StepPath (Step L) ⟨sender, goesOut L.remote sends, .start heap free tap_writer⟩
      (receives.map .receiver) ⟨sender, [], receiver⟩ :=
    path_of_receiver hreceiver (hsame.trans (List.append_nil _).symm)
  refine ⟨_, hfirst.append hrest, fun fault hmem => ?_, ?_, ?_⟩
  · rcases List.mem_append.mp hmem with hmem | hmem
    · obtain ⟨_, -, heq⟩ := List.mem_map.mp hmem
      cases heq
    · obtain ⟨_, -, heq⟩ := List.mem_map.mp hmem
      cases heq
  · rw [atSender, List.flatMap_append]
    exact (congrArg₂ _ (atSender_map_sender sends) (atSender_map_receiver receives)).trans (List.append_nil _)
  · rw [atReceiver, List.flatMap_append]
    exact congrArg₂ _ (atReceiver_map_sender sends) (atReceiver_map_receiver receives)

/-- The datagram with the frame that is sent there. -/
def groupDatagram : List UInt8 :=
  (Datagram.single (.plain 0 TransmitSide.groupFrame [] : EncodedFrame (List (List UInt8)))).bytes .little

/-- The receiver handles the frame of the datagram, and then nothing is on its way. -/
theorem exists_received_groupFrame :
    let L := LinkConfig.smallest #v[192, 0, 2, 2] #v[192, 0, 2, 1]
    ∃ (receives : List (ReceiveEvent L.tunnel.B)) (receiver : ReceiveSide (List (List UInt8)) L.tunnel.B),
      StepPath (ReceiveSide.Step L.reader (L.T.decoder L.heap)) (.start (fun _ => .ofData 0 [] (Nat.zero_le _))
        (List.range 259) ⟨KeyedList.empty, [L.origin], [], []⟩) receives receiver ∧
      (comesFrom L.origin receives).map UdpDatagram.data = [groupDatagram] ∧
      (∀ p ∈ arrivals (readerEvents receives), p.data = groupDatagram) ∧
      ((framesHandled receives).filter fun b => FromNode L.origin b).map PacketBuffer.data = [TransmitSide.groupFrame] ∧
      ReceiveSide.Quiet L.reader receiver := by
  intro L
  have hf : (.plain 0 TransmitSide.groupFrame [] : EncodedFrame (List (List UInt8))).First L.T :=
    ⟨⟨by decide, by decide, Or.inl ⟨rfl, rfl, rfl⟩⟩, rfl, rfl, by decide⟩
  obtain ⟨receives, receiver, d, b, pos, hpath, harrived, hhandled, hfree, hphase, hthread, hpool, hbuffers, -, hend,
      hqueue, hfrom⟩ :=
    ReceiveSide.exists_handled L.reader L.origin L.T L.heap (fun _ => StreamCompressor.literals_lossless _ _) hf
      (fun _ => .ofData 0 [] (Nat.zero_le _)) ⟨KeyedList.empty, [L.origin], [], []⟩ (.inet6 58023 0 L.origin 0)
      (List.nodup_range (n := 259)) (by rw [SETH_MAX_RECVMM_MESSAGES, List.length_range]) rfl L.known rfl rfl
  -- the decoder gets its new buffer
  obtain ⟨receiver', d', hpath', hthread', hphase', hqueue', hpool', hbuffers'⟩ :=
    ReceiveSide.exists_through L.reader (L.T.decoder L.heap)
      ((congrFun hthread L.origin).trans (Function.update_self ..)) hend hfree
  refine ⟨_, receiver', hpath.append hpath', ?_, ?_, ?_, hphase'.trans hphase, fun n hn => ?_, fun n hn => Or.inr ⟨d', ?_⟩,
    hpool'.trans hpool, hbuffers'.trans hbuffers⟩
  · rw [comesFrom_append, comesFrom, harrived, List.filter_cons_of_pos (by decide)]
    rfl
  · rw [ReceiveSide.readerEvents_append, arrivals, List.flatMap_append]
    show ∀ p ∈ arrivals (readerEvents receives) ++ [], p.data = groupDatagram
    rw [harrived]
    exact List.forall_mem_singleton.mpr rfl
  · have hframes : framesHandled (receives ++ [.decoded L.origin [] [], .decoded L.origin [] []]) =
        framesHandled receives := by
      rw [ReceiveSide.framesHandled_append]
      exact List.append_nil _
    rw [hframes, List.filter_eq_self.mpr fun b hb => decide_eq_true (hfrom b hb)]
    exact hhandled
  · obtain rfl := Finset.mem_singleton.mp hn
    rw [hqueue']
    exact hqueue
  · obtain rfl := Finset.mem_singleton.mp hn
    rw [hthread']
    exact Function.update_self ..

/-- **A frame goes all the way**, from the TAP device of one station to that of the other; then nothing is
on its way. -/
theorem exists_delivered_groupFrame :
    let L := LinkConfig.smallest #v[192, 0, 2, 2] #v[192, 0, 2, 1]
    ∃ (events : List (LinkEvent L.tunnel.B)) (s : Link (List (List UInt8)) L.tunnel.B),
      StepPath (Step L) (start [L.remote] (PacketBuffer.fresh 0 3) (fun _ => .ofData 0 [] (Nat.zero_le _))
        (List.range 259) ⟨KeyedList.empty, [L.origin], [], []⟩) events s ∧
      (∀ fault, .network fault ∉ events) ∧ Lz4Once L.reader L.T L.heap L.origin (atReceiver events) ∧
      (goesOut L.remote (atSender events)).length = 1 ∧
      routed L events = [TransmitSide.groupFrame] ∧ delivered L events = [TransmitSide.groupFrame] ∧
      s.sender.Quiet L.remote ∧ s.flying = [] ∧ ReceiveSide.Quiet L.reader s.receiver := by
  intro L
  obtain ⟨sends, sender, hsender, hrouted, hquiet, -, -, hsent, -⟩ := TransmitSide.exists_sent_groupFrame
  obtain ⟨receives, receiver, hreceiver, hcomes, harrived, hhandled, hquiet'⟩ := exists_received_groupFrame
  have hgoes : goesOut L.remote sends = [groupDatagram] := hsent
  obtain ⟨events, hpath, hnothing, hat, hat'⟩ := path_of_parts (L := L) hsender hreceiver (hgoes.trans hcomes.symm)
  refine ⟨events, _, hpath, hnothing, ?_, ?_, ?_, ?_, hquiet, rfl, hquiet'⟩
  · rw [hat']
    exact lz4Once_of_single (D := Datagram.single (.plain 0 TransmitSide.groupFrame [])) rfl
      (EncodedFrame.plain_valid 0 [] (by decide)) harrived L.origin
  · rw [hat]
    exact congrArg List.length hgoes
  · rw [routed, hat]
    exact congrArg (List.filter _) hrouted
  · rw [delivered, hat']
    exact hhandled

/-! ## The results -/

/-- **Whatever the network does**, what is in flight is within `l4mtu`, so that no receive slot cuts it off, and
passes the checks of the reader. -/
theorem link_fits (hlib : Bounded L.T) (hnodup : remote_nodes.Nodup) (hne : remote_nodes ≠ [])
    (hrun : StepPath (Step L) (start remote_nodes available heap free tap_writer) events s) :
    ∀ data ∈ s.flying, data.length ≤ L.T.l4mtu ∧ data.length ≤ L.tunnel.B ∧ HeaderPasses L.reader.host data := by
  obtain ⟨e, ds, pending, place, js, ks, h⟩ := exists_streams hlib hnodup hne hrun
  intro data hdata
  obtain ⟨k, hk, rfl⟩ := List.getElem_of_mem hdata
  obtain ⟨D, hD, hbytes⟩ := h.of_sent (h.numbered.flying.get (h.numbered.flying.length_eq ▸ hk) hk)
  rw [List.get_eq_getElem] at hbytes
  have hemits := h.places.emits hD
  have hlen : s.flying[k].length ≤ L.T.l4mtu := by
    rw [hbytes, Datagram.bytes_length]
    exact hemits.size_le
  have hbounds : 1152 ≤ L.T.l4mtu ∧ L.T.l4mtu + 50 ≤ L.T.l2mtu ∧ L.T.l2mtu ≤ L.tunnel.B ∧ L.tunnel.B ≤ 10164 :=
    L.T.size_bounds
  refine ⟨hlen, by omega, ?_⟩
  rw [hbytes, L.host]
  exact Datagram.headerPasses hemits.nonempty _

theorem link_fits_groupFrame :
    let L := LinkConfig.smallest #v[192, 0, 2, 2] #v[192, 0, 2, 1]
    ∃ s : Link (List (List UInt8)) L.tunnel.B, s.flying.length = 1 ∧
      ∀ data ∈ s.flying, data.length ≤ L.T.l4mtu ∧ data.length ≤ L.tunnel.B ∧ HeaderPasses L.reader.host data := by
  intro L
  obtain ⟨sends, sender, hsender, -, -, -, -, hsent, -⟩ := TransmitSide.exists_sent_groupFrame
  have hrun := path_of_sender (L := L) (s := start [L.remote] (PacketBuffer.fresh 0 3)
    (fun _ => .ofData 0 [] (Nat.zero_le _)) (List.range 259) ⟨KeyedList.empty, [L.origin], [], []⟩) hsender
  exact ⟨_, congrArg List.length hsent,
    link_fits (L := L) (fun _ => (StreamCompressor.literals_lossless _ _).toCompressBounded) (List.nodup_singleton _)
      (List.cons_ne_nil _ _) hrun⟩

/-- **Whatever the network does**, while at most half of all numbers are in use and LZ4 comes once in a datagram,
no frame reaches the TAP writer that was not routed to it; and none more often than that, unless the network
duplicates. -/
theorem link_invents_nothing (hlib : LosslessLib L.T) (hnodup : remote_nodes.Nodup) (hne : remote_nodes ≠ [])
    (hfree : free.Nodup) (hrun : StepPath (Step L) (start remote_nodes available heap free tap_writer) events s)
    (honce : Lz4Once L.reader L.T L.heap L.origin (atReceiver events))
    (hnumbers : (goesOut L.remote (atSender events)).length ≤ 2147483648) :
    (∀ n, (s.receiver.decoder n).Lz4Safe) ∧ delivered L events ⊆ routed L events ∧
      (.network .duplicated ∉ events → (delivered L events).Subperm (routed L events)) := by
  obtain ⟨e, ds, pending, place, js, ks, h⟩ :=
    exists_streams (fun hn => (hlib hn).toCompressBounded) hnodup hne hrun
  have hfirst : (nextSequence 1).toNat = 1 := rfl
  have hlt : ∀ j ∈ js, j < 2147483648 := fun j hj => (h.lt_sent j hj).trans_le hnumbers
  have hdelivers := h.delivers hlib hfree hrun honce (honest_of_near h.places
    (fun j hj => ⟨h.lt_length j hj, by have := hlt j hj; omega⟩)
    (List.pairwise_of_forall_mem_list fun l hl j _ => Nat.lt_of_lt_of_le (hlt l hl) (Nat.le_add_left _ _)))
  have haccepted : e.accepted <+: routed L events := ⟨_, h.routed_eq.symm⟩
  refine ⟨hdelivers.safe, ?_, ?_⟩
  · intro frame hframe
    obtain ⟨f, hf, rfl⟩ := List.mem_map.mp (hdelivers.handled.subset hframe)
    exact haccepted.subset (List.mem_of_getElem? (h.of_mem_run hf))
  · intro hsingle
    have hjs : js.Nodup := (List.nodup_append.mp (h.numbered.nodup fun hmem => hsingle (mem_of_fault hmem))).1
    exact hdelivers.handled.sublist.subperm.trans ((h.subperm hjs).trans haccepted.sublist.subperm)

theorem link_invents_nothing_groupFrame :
    let L := LinkConfig.smallest #v[192, 0, 2, 2] #v[192, 0, 2, 1]
    ∃ (events : List (LinkEvent L.tunnel.B)) (s : Link (List (List UInt8)) L.tunnel.B),
      routed L events = [TransmitSide.groupFrame] ∧
      delivered L events = [TransmitSide.groupFrame] ∧ (∀ n, (s.receiver.decoder n).Lz4Safe) ∧
      delivered L events ⊆ routed L events ∧ (.network .duplicated ∉ events → (delivered L events).Subperm (routed L events)) := by
  intro L
  obtain ⟨events, s, hrun, -, honce, hone, hrouted, hdelivered, -⟩ := exists_delivered_groupFrame
  exact ⟨events, s, hrouted, hdelivered, link_invents_nothing (L := L)
    (fun _ => StreamCompressor.literals_lossless _ _) (List.nodup_singleton _) (List.cons_ne_nil _ _)
    List.nodup_range hrun honce (by rw [hone]; decide)⟩

/-- **Loss is confined**: of the datagrams that were sent those with the numbers came, in order, and the TAP
writer handles the frames all of whose datagrams are among them. -/
structure Confines (L : LinkConfig H) (events : List (LinkEvent L.tunnel.B)) (s : Link H L.tunnel.B)
    (e : PacketEncoder H L.tunnel.B) (js : List Nat) : Prop where
  encoder : TransmitSide.EncoderFor L.T L.remote (atSender events) s.sender e
  numbers : js.Sublist (List.range (goesOut L.remote (atSender events)).length)
  arrived : List.Forall₂ (fun j data => (goesOut L.remote (atSender events))[j]? = some data) js
    ((comesFrom L.origin (atReceiver events)).map UdpDatagram.data)
  delivers : ReceiveSide.Delivers (T := L.T) L.reader L.origin (e.carriedBy js) (atReceiver events) s.receiver

/-- **If the network only loses**, the numbers do not wrap and LZ4 comes once in a datagram, the frames come out in
order, and only those are missing of which a datagram is. -/
theorem link_keeps_order (hlib : LosslessLib L.T) (hnodup : remote_nodes.Nodup) (hne : remote_nodes ≠ [])
    (hfree : free.Nodup) (hrun : StepPath (Step L) (start remote_nodes available heap free tap_writer) events s)
    (honce : Lz4Once L.reader L.T L.heap L.origin (atReceiver events))
    (hnumbers : (goesOut L.remote (atSender events)).length ≤ 4294967294)
    (hsingle : .network .duplicated ∉ events) (horder : .network .reordered ∉ events) :
    (delivered L events).Sublist (routed L events) ∧ ∃ e js, Confines L events s e js := by
  obtain ⟨e, ds, pending, place, js, ks, h⟩ :=
    exists_streams (fun hn => (hlib hn).toCompressBounded) hnodup hne hrun
  have hfirst : (nextSequence 1).toNat = 1 := rfl
  have hsub := h.numbered.sublist (fun hmem => hsingle (mem_of_fault hmem)) fun hmem => horder (mem_of_fault hmem)
  have harrived := h.numbered.arrived
  rw [allSent_onChannel] at hsub
  rw [allArrived_onChannel] at harrived
  have hjs := (List.sublist_append_left js ks).trans hsub
  have hdelivers := h.delivers hlib hfree hrun honce (honest_of_near h.places
    (fun j hj => ⟨h.lt_length j hj, by have := h.lt_sent j hj; omega⟩)
    ((List.pairwise_lt_range.sublist hjs).imp fun hlt => Nat.lt_add_right _ hlt))
  obtain ⟨c0, c, hem, hend⟩ := h.emitted
  rw [hem.carriedBy_eq h.places hend h.accepted (hjs.trans (List.range_sublist.mpr h.length_le))] at hdelivers
  have hcarried : (e.carriedBy js).Sublist e.accepted := by
    have hsub := (List.filter_sublist (l := e.accepted.zipIdx) (p := fun p => e.carriers.all fun q =>
      q.1 != p.2 || js.contains q.2)).map Prod.fst
    rwa [List.zipIdx_map_fst] at hsub
  refine ⟨?_, e, js, h.encoder, hjs, harrived.imp fun j data hsent => ?_, hdelivers⟩
  · rw [h.routed_eq]
    exact hdelivers.handled.sublist.trans (hcarried.trans (List.sublist_append_left _ _))
  · rw [← allSent_onChannel]
    exact hsent

theorem link_keeps_order_groupFrame :
    let L := LinkConfig.smallest #v[192, 0, 2, 2] #v[192, 0, 2, 1]
    ∃ (events : List (LinkEvent L.tunnel.B)) (s : Link (List (List UInt8)) L.tunnel.B),
      routed L events = [TransmitSide.groupFrame] ∧ delivered L events = [TransmitSide.groupFrame] ∧
      (delivered L events).Sublist (routed L events) ∧ ∃ e js, Confines L events s e js := by
  intro L
  obtain ⟨events, s, hrun, hnothing, honce, hone, hrouted, hdelivered, -⟩ := exists_delivered_groupFrame
  exact ⟨events, s, hrouted, hdelivered, link_keeps_order (L := L) (fun _ => StreamCompressor.literals_lossless _ _)
    (List.nodup_singleton _) (List.cons_ne_nil _ _) List.nodup_range hrun honce (by rw [hone]; decide)
    (hnothing _) (hnothing _)⟩

/-- **If the network does nothing**, and LZ4 comes once in a datagram, the frames that are not too large come out
in order with none missing, however many there are; all of them when nothing is on its way. -/
theorem link_delivers_all (hlib : LosslessLib L.T) (hnodup : remote_nodes.Nodup) (hne : remote_nodes ≠ [])
    (hfree : free.Nodup) (hrun : StepPath (Step L) (start remote_nodes available heap free tap_writer) events s)
    (honce : Lz4Once L.reader L.T L.heap L.origin (atReceiver events))
    (hnothing : ∀ fault, .network fault ∉ events) :
    (∀ n, (s.receiver.decoder n).Lz4Safe) ∧ delivered L events <+: routed L events ∧
      (s.sender.Quiet L.remote → s.flying = [] → ReceiveSide.Quiet L.reader s.receiver →
        delivered L events = routed L events) := by
  obtain ⟨e, ds, pending, place, js, ks, h⟩ :=
    exists_streams (fun hn => (hlib hn).toCompressBounded) hnodup hne hrun
  have hall := h.numbered.complete fun fault hmem => hnothing fault (mem_of_fault hmem)
  rw [allSent_onChannel] at hall
  obtain ⟨m, rfl⟩ : ∃ m, js = List.range m := by
    have hpre := List.prefix_iff_eq_take.mp (⟨ks, hall⟩ : js <+: _)
    rw [List.take_range] at hpre
    exact ⟨_, hpre⟩
  have hdelivers := h.delivers hlib hfree hrun honce honest_of_range
  refine ⟨hdelivers.safe, ?_, ?_⟩
  · have hle : m ≤ ds.length := by
      have hlen := congrArg List.length hall
      rw [List.length_append, List.length_range, List.length_range] at hlen
      exact (Nat.le_add_right m ks.length).trans (hlen.le.trans h.length_le)
    obtain ⟨rest, hrest⟩ : List.range m <+: List.range ds.length := by
      have hpre := List.take_prefix m (List.range ds.length)
      rwa [List.take_range, Nat.min_eq_left hle] at hpre
    have hframes := Receiver.frames_run_append ds place (List.range m) rest
    rw [hrest, Receiver.run_range h.places] at hframes
    rw [h.routed_eq, ← h.accepted, finished_append, List.map_append, List.append_assoc]
    exact hdelivers.handled.trans ((hframes.map EncodedFrame.frame).trans (List.prefix_append _ _))
  · intro hsender hflying hreceiver
    obtain ⟨hsent, rfl⟩ := h.quiet hsender
    have hnone := h.numbered.flying.length_eq
    rw [hflying, List.length_nil] at hnone
    rw [List.length_eq_zero_iff.mp hnone, List.append_nil, hsent, List.length_map] at hall
    have hall' := hdelivers.quiet hreceiver
    rw [hall, Receiver.run_range h.places, ← List.append_nil (ds.flatMap Datagram.records), h.accepted] at hall'
    rw [h.routed_eq, hsender.coming]
    exact hall'.trans (List.append_nil _).symm

theorem link_delivers_all_groupFrame :
    let L := LinkConfig.smallest #v[192, 0, 2, 2] #v[192, 0, 2, 1]
    ∃ (events : List (LinkEvent L.tunnel.B)) (s : Link (List (List UInt8)) L.tunnel.B),
      s.sender.Quiet L.remote ∧ s.flying = [] ∧ ReceiveSide.Quiet L.reader s.receiver ∧
      routed L events = [TransmitSide.groupFrame] ∧ (∀ n, (s.receiver.decoder n).Lz4Safe) ∧
      delivered L events <+: routed L events ∧ delivered L events = routed L events := by
  intro L
  obtain ⟨events, s, hrun, hnothing, honce, -, hrouted, -, hsender, hflying, hreceiver⟩ := exists_delivered_groupFrame
  obtain ⟨hsafe, hpre, hall⟩ := link_delivers_all (L := L) (fun _ => StreamCompressor.literals_lossless _ _)
    (List.nodup_singleton _) (List.cons_ne_nil _ _) List.nodup_range hrun honce hnothing
  exact ⟨events, s, hsender, hflying, hreceiver, hrouted, hsafe, hpre, hall hsender hflying hreceiver⟩

end Streams

end Link
end SuperEthd
