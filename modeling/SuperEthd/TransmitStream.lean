import SuperEthd.TransmitSide

/-! # What the transmitting half sends

The encoder thread of a node, turn by turn and beside all the others, does what `EncoderThread` says of
it call by call; the frames that arrive there are those that the TAP reader routed to the node, in order,
and its socket writer sends what the encoder pushed, in order. -/
namespace SuperEthd
open PacketHeaderOptionFormatType PacketEncoder

variable {H : Type} {B : Nat}

/-! ## An encoder thread -/

/-- The call that the thread makes from one point of its loop; during the call it stands at the other. -/
inductive CallAt : EncoderPoint B → Op B → EncoderPoint B → Prop
  | flush : CallAt .timedOut .flush .timedOut
  | encode (buffer : PacketBuffer B) (buffers : List (PacketBuffer B)) :
    CallAt (.batch (buffer :: buffers)) (.encode buffer) (.batch buffers)

/-- The thread is where the run of whole calls is, or in the call that comes next there. -/
def SenderThread.Mirrors {T : Tunnel H} (thread : EncoderThread T) : SenderThread H T.B → Prop
  | .running e timeout point none => thread.encoder = e ∧ thread.timeout = timeout ∧ thread.point = point
  | .running e timeout point (some w) => thread.timeout = timeout ∧
      ∃ op, CallAt thread.point op point ∧ InCall T.encoder thread.encoder op (some w) e
  | _ => False

/-- These frames came into the pool of the thread, in order, in a run of whole calls. -/
def SenderThread.Took (T : Tunnel H) (arrived : List (PacketBuffer T.B))
    (encoder_pool : BufferPool (PacketBuffer T.B) T.B) : SenderThread H T.B → Prop
  | .running e timeout point wait => ∃ made encoder labels thread,
      Starts T.libs T.packet_format 1 made encoder ∧
      StepPath EncoderThread.Step (EncoderThread.start encoder : EncoderThread T) labels thread ∧
      labels.flatten = arrived ∧ thread.encoder_pool = encoder_pool ∧
      (SenderThread.running e timeout point wait).Mirrors thread
  | _ => arrived = encoder_pool.pool

/-- The datagrams that the encoder of the thread pushed. -/
def SenderThread.datagrams : SenderThread H B → List (PacketBuffer B)
  | .running e _ _ _ => e.tx_buffer_pool.pool
  | _ => []

namespace SenderThread
variable {T : Tunnel H} {arrived : List (PacketBuffer T.B)} {pool : BufferPool (PacketBuffer T.B) T.B}
  {thread : EncoderThread T} {e e' : PacketEncoder H T.B} {timeout : Nat} {point point' : EncoderPoint T.B}
  {wait : Option (EncoderWait T.B)} {op : Op T.B}

/-- Frames come in. -/
theorem Took.arrival {sender : SenderThread H T.B} (h : sender.Took T arrived pool)
    (frames : List (PacketBuffer T.B)) :
    sender.Took T (arrived ++ frames) ⟨pool.pool ++ frames⟩ := by
  cases sender with
  | starting => exact congrArg (· ++ frames) h
  | constructing => exact congrArg (· ++ frames) h
  | running e timeout point wait =>
    obtain ⟨made, encoder, labels, thread, hstarts, hpath, hlabels, hpool, hmirrors⟩ := h
    subst hpool
    refine ⟨made, encoder, labels ++ [frames], _, hstarts, hpath.concat (.arrival frames), ?_, rfl, ?_⟩
    · rw [List.flatten_append, hlabels, List.flatten_singleton]
    · cases wait <;> exact hmirrors

/-- The thread takes steps of its own. -/
theorem Took.of_mirrors {sender : SenderThread H T.B} {thread' : EncoderThread T}
    {labels labels' : List (List (PacketBuffer T.B))} {made : List (PacketBuffer T.B)}
    {encoder : PacketEncoder H T.B} (hstarts : Starts T.libs T.packet_format 1 made encoder)
    (hpath : StepPath EncoderThread.Step (EncoderThread.start encoder : EncoderThread T) labels thread)
    (hlabels : labels.flatten = arrived) (hsteps : StepPath EncoderThread.Step thread labels' thread')
    (hsilent : labels'.flatten = []) (hmirrors : sender.Mirrors thread') :
    sender.Took T arrived thread'.encoder_pool := by
  cases sender with
  | starting => exact hmirrors.elim
  | constructing => exact hmirrors.elim
  | running =>
    refine ⟨made, encoder, _, thread', hstarts, hpath.append hsteps, ?_, rfl, hmirrors⟩
    rw [List.flatten_append, hlabels, hsilent, List.append_nil]

/-- **A call, turn by turn, is a call**: behind a turn the thread is in it or through with it. -/
theorem exists_mirrors (hat : CallAt thread.point op point)
    (hcall : InCall T.encoder thread.encoder op wait e) :
    ∃ labels thread', StepPath EncoderThread.Step thread labels thread' ∧ labels.flatten = [] ∧
      thread'.encoder_pool = thread.encoder_pool ∧
      (TransmitSide.behind e thread.timeout point wait).Mirrors thread' := by
  cases wait with
  | some w => exact ⟨[], thread, .nil _, rfl, rfl, rfl, op, hat, hcall⟩
  | none =>
    obtain ⟨taken, pushed, hcalls⟩ := calls_of_inCall hcall
    -- before the call its buffers are made available, and behind it the pool is as it is
    have hbefore : EncoderThread.Step thread [] _ := .available ⟨taken⟩
    generalize hp : thread.point = before at hat
    cases hat with
    | flush =>
      refine ⟨[[], [], []], _, .cons hbefore (.cons (.flush hp hcalls) (.single (.available e.available_buffer_pool))),
        rfl, rfl, rfl, rfl, rfl⟩
    | encode buffer buffers =>
      exact ⟨[[], [], []], _, .cons hbefore (.cons (.encode hp hcalls) (.single (.available e.available_buffer_pool))),
        rfl, rfl, rfl, rfl, rfl⟩

/-- The first turn of a call. -/
theorem Took.startTurn {before : EncoderPoint T.B} {fuel : Nat} (h : (running e timeout before none).Took T arrived pool)
    (hat : CallAt before op point) (available : BufferPool (PacketBuffer T.B) T.B)
    (hrun : (PacketEncoder.startTurn T.encoder fuel op).run { e with available_buffer_pool := available } =
      .ok wait e') : (TransmitSide.behind e' timeout point wait).Took T arrived pool := by
  obtain ⟨made, encoder, labels, thread, hstarts, hpath, hlabels, rfl, rfl, rfl, rfl⟩ := h
  -- the pool is set to what the turn finds there
  let lent : EncoderThread T := { thread with encoder := { thread.encoder with available_buffer_pool := available } }
  have hlent : CallAt lent.point op point := hat
  obtain ⟨labels', thread', hsteps, hsilent, hpool, hmirrors⟩ := exists_mirrors hlent (.start hrun)
  have htook := Took.of_mirrors hstarts hpath hlabels (.cons (.available available) hsteps) hsilent hmirrors
  rw [hpool] at htook
  exact htook

/-- A turn behind a wait. -/
theorem Took.resume {w : EncoderWait T.B} {fuel : Nat} (h : (running e timeout point (some w)).Took T arrived pool)
    (available : BufferPool (PacketBuffer T.B) T.B)
    (hrun : (PacketEncoder.resume T.encoder fuel w).run { e with available_buffer_pool := available } =
      .ok wait e') : (TransmitSide.behind e' timeout point wait).Took T arrived pool := by
  obtain ⟨made, encoder, labels, thread, hstarts, hpath, hlabels, rfl, rfl, op, hat, hcall⟩ := h
  obtain ⟨labels', thread', hsteps, hsilent, hpool, hmirrors⟩ :=
    exists_mirrors hat (.resume (.others available hcall) hrun)
  rw [← hpool]
  exact Took.of_mirrors hstarts hpath hlabels hsteps hsilent hmirrors

/-- The constructor is through. -/
theorem Took.constructed {comp_buffer : PacketBuffer T.B} (available : BufferPool (PacketBuffer T.B) T.B)
    (h : (constructing comp_buffer : SenderThread H T.B).Took T arrived pool)
    (hrun : (do _getTxBuffer; setPacketFormat T.libs T.packet_format : EncoderCall H T.B Unit).run
      { init ⟨[]⟩ available with comp_buffer := some comp_buffer } = .ok () e) :
    (running e 1 .top none).Took T arrived pool := by
  have harrived : arrived = pool.pool := h
  obtain ⟨hstarts, -⟩ := TransmitSide.starts_of_constructed hrun
  refine ⟨_, e, [pool.pool], _, hstarts, .single (.arrival pool.pool), ?_, rfl, rfl, rfl, rfl⟩
  rw [harrived, List.flatten_singleton]

/-- A step of the thread that is no call. -/
theorem Took.goOn {pool' : BufferPool (PacketBuffer T.B) T.B} {timeout' : Nat}
    (h : (running e timeout point none).Took T arrived pool)
    (hstep : ∀ thread : EncoderThread T, thread = ⟨pool, e, timeout, point⟩ →
      EncoderThread.Step thread [] ⟨pool', e, timeout', point'⟩) :
    (running e timeout' point' none).Took T arrived pool' := by
  obtain ⟨made, encoder, labels, thread, hstarts, hpath, hlabels, rfl, rfl, rfl, rfl⟩ := h
  exact Took.of_mirrors hstarts hpath hlabels (.single (hstep thread rfl)) rfl ⟨rfl, rfl, rfl⟩

theorem datagrams_behind (e : PacketEncoder H T.B) (timeout : Nat) (point : EncoderPoint T.B)
    (wait : Option (EncoderWait T.B)) :
    (TransmitSide.behind e timeout point wait).datagrams = e.tx_buffer_pool.pool := by
  cases wait with
  | some w => rfl
  | none => cases point <;> rfl

end SenderThread

/-! ## What went through -/

/-- The nodes that the reader is still to push the frame to. -/
def BroadcastPoint.rest (remote_nodes : List In6Addr) : BroadcastPoint B → List In6Addr
  | .multicast => remote_nodes
  | .loop rest => rest
  | .copying it rest _ => it :: rest
  | .done => []
  | .crashed => []

namespace TransmitSide

/-- What is for the node of a frame for these nodes. -/
def dataFor (n : In6Addr) (frame : PacketBuffer B) (nodes : List In6Addr) : List (List UInt8) :=
  (nodes.filter (· = n)).map fun _ => frame.data

/-- The frames that were for the node. -/
def routedTo (n : In6Addr) (events : List (TransmitEvent B)) : List (List UInt8) :=
  events.flatMap fun
    | .routed frame nodes => dataFor n frame nodes
    | _ => []

/-- The datagrams that were sent to the node. -/
def sentTo (n : In6Addr) (events : List (TransmitEvent B)) : List (PacketBuffer B) :=
  events.flatMap fun
    | .sent m datagram => if m = n then [datagram] else []
    | _ => []

/-- The frame in the branch for a multicast destination, if the node is still to get it. -/
def pendingFor (s : TransmitSide H B) (n : In6Addr) : List (List UInt8) :=
  match s.broadcast with
  | some (some frame, point) => dataFor n frame (point.rest s.switch.remote_nodes)
  | _ => []

/-- **What went through the threads of the node**: the frames that were for it came into the pool of its
encoder thread, but for one that is still to be pushed; and what its encoder pushed was sent, but for
what its socket writer has. -/
structure Through (T : Tunnel H) (n : In6Addr) (events : List (TransmitEvent T.B)) (s : TransmitSide H T.B) :
    Prop where
  arrived : ∃ arrived, routedTo n events = arrived.map PacketBuffer.data ++ s.pendingFor n ∧
    (s.encoder n).Took T arrived (s.switch.encoder_pool n)
  pushed : (s.encoder n).datagrams = sentTo n events ++ (s.writer n).buffers ++ (s.writer n).socket_write_pool.pool

theorem routedTo_append (n : In6Addr) (events events' : List (TransmitEvent B)) :
    routedTo n (events ++ events') = routedTo n events ++ routedTo n events' := List.flatMap_append

theorem sentTo_append (n : In6Addr) (events events' : List (TransmitEvent B)) :
    sentTo n (events ++ events') = sentTo n events ++ sentTo n events' := List.flatMap_append

theorem routedTo_routed (n : In6Addr) (frame : PacketBuffer B) (nodes : List In6Addr) :
    routedTo n [.routed frame nodes] = dataFor n frame nodes := List.append_nil _

theorem sentTo_sent (n m : In6Addr) (datagram : PacketBuffer B) :
    sentTo n [.sent m datagram] = if m = n then [datagram] else [] := List.append_nil _

theorem routedTo_silent (n : In6Addr) : routedTo n [(.silent : TransmitEvent B)] = [] := rfl

theorem sentTo_silent (n : In6Addr) : sentTo n [(.silent : TransmitEvent B)] = [] := rfl

theorem routedTo_replicate (n : In6Addr) (count : Nat) :
    routedTo n (List.replicate count (.silent : TransmitEvent B)) = [] := by
  rw [routedTo, List.flatMap_eq_nil_iff]
  intro event hevent
  rw [List.eq_of_mem_replicate hevent]

theorem sentTo_replicate (n : In6Addr) (count : Nat) :
    sentTo n (List.replicate count (.silent : TransmitEvent B)) = [] := by
  rw [sentTo, List.flatMap_eq_nil_iff]
  intro event hevent
  rw [List.eq_of_mem_replicate hevent]

@[simp] theorem dataFor_nil (n : In6Addr) (frame : PacketBuffer B) : dataFor n frame [] = [] := rfl

theorem dataFor_cons (n m : In6Addr) (frame : PacketBuffer B) (nodes : List In6Addr) :
    dataFor n frame (m :: nodes) = (if m = n then [frame.data] else []) ++ dataFor n frame nodes := by
  by_cases h : m = n
  · rw [dataFor, List.filter_cons_of_pos (by simpa using h), if_pos h]
    rfl
  · rw [dataFor, List.filter_cons_of_neg (by simpa using h), if_neg h]
    rfl

namespace Through
variable {T : Tunnel H} {n : In6Addr} {events : List (TransmitEvent T.B)} {s s' : TransmitSide H T.B}

/-- Nothing happens to the node. -/
theorem congr (h : Through T n events s) {event : TransmitEvent T.B} (hrouted : routedTo n [event] = [])
    (hsent : sentTo n [event] = []) (hpending : s'.pendingFor n = s.pendingFor n)
    (hencoder : s'.encoder n = s.encoder n) (hpool : s'.switch.encoder_pool n = s.switch.encoder_pool n)
    (hwriter : s'.writer n = s.writer n) : Through T n (events ++ [event]) s' := by
  refine ⟨?_, ?_⟩
  · rw [routedTo_append, hpending, hencoder, hpool, hrouted, List.append_nil]
    exact h.arrived
  · rw [sentTo_append, hencoder, hwriter, hsent, List.append_nil]
    exact h.pushed

/-- The TAP reader pushes these frames to the node. -/
theorem advance (h : Through T n events s) {event : TransmitEvent T.B} (frames : List (PacketBuffer T.B))
    (hframes : s.pendingFor n ++ routedTo n [event] = frames.map PacketBuffer.data ++ s'.pendingFor n)
    (hpool : s'.switch.encoder_pool n = ⟨(s.switch.encoder_pool n).pool ++ frames⟩)
    (hencoder : s'.encoder = s.encoder) (hwriter : s'.writer = s.writer) (hsent : sentTo n [event] = []) :
    Through T n (events ++ [event]) s' := by
  obtain ⟨arrived, hrouted, htook⟩ := h.arrived
  refine ⟨⟨arrived ++ frames, ?_, ?_⟩, ?_⟩
  · rw [routedTo_append, hrouted, List.append_assoc, hframes, List.map_append, List.append_assoc]
  · rw [hpool, hencoder]
    exact htook.arrival frames
  · rw [sentTo_append, hsent, List.append_nil, hencoder, hwriter]
    exact h.pushed

/-- The encoder thread of the node has a turn. -/
theorem settle (h : Through T n events s) {thread : SenderThread H T.B} {datagrams : List (PacketBuffer T.B)}
    (pool : BufferPool (PacketBuffer T.B) T.B)
    (htook : ∀ arrived, (s.encoder n).Took T arrived (s.switch.encoder_pool n) →
      thread.Took T arrived (s.switch.encoder_pool n))
    (hdatagrams : thread.datagrams = (s.encoder n).datagrams ++ datagrams) :
    Through T n (events ++ [.silent]) (s.settle n thread pool datagrams) := by
  obtain ⟨arrived, hrouted, harrived⟩ := h.arrived
  have hencoder : (s.settle n thread pool datagrams).encoder n = thread := Function.update_self ..
  have hwriter : (s.settle n thread pool datagrams).writer n = { s.writer n with
      socket_write_pool := ⟨(s.writer n).socket_write_pool.pool ++ datagrams⟩ } := Function.update_self ..
  refine ⟨⟨arrived, ?_, ?_⟩, ?_⟩
  · rw [routedTo_append, hrouted, routedTo_silent, List.append_nil]
    rfl
  · rw [hencoder]
    exact htook arrived harrived
  · rw [sentTo_append, hencoder, hwriter, hdatagrams, h.pushed, sentTo_silent, List.append_nil]
    simp only [List.append_assoc]

/-- So has that of another node. -/
theorem settle_of_ne (h : Through T n events s) {m : In6Addr} (hne : n ≠ m) (thread : SenderThread H T.B)
    (pool : BufferPool (PacketBuffer T.B) T.B) (datagrams : List (PacketBuffer T.B)) :
    Through T n (events ++ [.silent]) (s.settle m thread pool datagrams) :=
  h.congr rfl rfl rfl (Function.update_of_ne hne ..) rfl (Function.update_of_ne hne ..)

/-- The thread of the node takes a step that is no call. -/
theorem goOn (h : Through T n events s) {thread : SenderThread H T.B}
    (htook : ∀ arrived, (s.encoder n).Took T arrived (s.switch.encoder_pool n) →
      thread.Took T arrived (s.switch.encoder_pool n))
    (hdatagrams : thread.datagrams = (s.encoder n).datagrams) :
    Through T n (events ++ [.silent]) (s.goOn n thread) := by
  have hsettled : Through T n (events ++ [.silent]) (s.settle n thread s.switch.available_rx_buffer_pool []) :=
    h.settle s.switch.available_rx_buffer_pool htook (hdatagrams.trans (List.append_nil _).symm)
  have heq : s.settle n thread s.switch.available_rx_buffer_pool [] = s.goOn n thread := by
    simp only [TransmitSide.settle, TransmitSide.goOn, List.append_nil, Function.update_eq_self]
  rw [← heq]
  exact hsettled

/-- It takes what is in its pool. -/
theorem take (h : Through T n events s) {e : PacketEncoder H T.B} {timeout : Nat} {point : EncoderPoint T.B}
    (hthread : s.encoder n = .running e timeout point none)
    (hstep : ∀ thread : EncoderThread T, thread = ⟨s.switch.encoder_pool n, e, timeout, point⟩ →
      EncoderThread.Step thread [] ⟨⟨[]⟩, e, timeout, .batch (s.switch.encoder_pool n).pool⟩) :
    Through T n (events ++ [.silent]) (s.take n e timeout) := by
  obtain ⟨arrived, hrouted, harrived⟩ := h.arrived
  have hpushed := h.pushed
  rw [hthread] at harrived hpushed
  have hencoder : (s.take n e timeout).encoder n =
      .running e timeout (.batch (s.switch.encoder_pool n).pool) none := Function.update_self ..
  have hpool : (s.take n e timeout).switch.encoder_pool n = ⟨[]⟩ := Function.update_self ..
  refine ⟨⟨arrived, ?_, ?_⟩, ?_⟩
  · rw [routedTo_append, hrouted, routedTo_silent, List.append_nil]
    rfl
  · rw [hencoder, hpool]
    exact harrived.goOn hstep
  · rw [sentTo_append, sentTo_silent, List.append_nil, hencoder]
    exact hpushed

/-- Its socket writer goes on. -/
theorem write (h : Through T n events s) {event : TransmitEvent T.B} (writer : SocketWriter T.B)
    (hrouted : routedTo n [event] = [])
    (hsent : (s.writer n).buffers ++ (s.writer n).socket_write_pool.pool =
      sentTo n [event] ++ (writer.buffers ++ writer.socket_write_pool.pool)) :
    Through T n (events ++ [event]) (s.write n writer) := by
  have hwriter : (s.write n writer).writer n = writer := Function.update_self ..
  refine ⟨?_, ?_⟩
  · rw [routedTo_append, hrouted, List.append_nil]
    exact h.arrived
  · rw [sentTo_append, hwriter, List.append_assoc, List.append_assoc, ← hsent, ← List.append_assoc]
    exact h.pushed

end Through

/-! ## The TAP reader -/

section Reader
variable {s : TransmitSide H B} {n m : In6Addr} {buffer : PacketBuffer B}

/-- A buffer that is pushed to a node. -/
theorem afterPush_pool (switch : PacketSwitch B) (n m : In6Addr) (buffer : PacketBuffer B) :
    (Broadcast.afterPush switch m buffer).encoder_pool n =
      ⟨(switch.encoder_pool n).pool ++ if m = n then [buffer] else []⟩ := by
  by_cases h : m = n
  · subst h
    rw [if_pos rfl]
    exact Function.update_self ..
  · rw [if_neg h, List.append_nil]
    exact Function.update_of_ne (Ne.symm h) ..

theorem map_data_ite : (if m = n then [buffer] else []).map PacketBuffer.data =
    if m = n then [buffer.data] else [] := by
  split <;> rfl

/-- **A move in the branch for a multicast destination**: the frame is pushed to the node, or is still
pending for it. -/
theorem pendingFor_move {remote_nodes : List In6Addr} {labels : List (Option (BroadcastEvent B))}
    {pointer : Option (PacketBuffer B)} {point : BroadcastPoint B} {event : Option (BroadcastEvent B)}
    {t : Broadcast B} (n : In6Addr) (hinside : s.broadcast = some (pointer, point))
    (hnodes : s.switch.remote_nodes = remote_nodes)
    (hinv : Broadcast.Inv remote_nodes buffer labels ⟨s.switch, 0, pointer, point⟩)
    (hmove : Broadcast.Moves remote_nodes buffer ⟨s.switch, 0, pointer, point⟩ event t) :
    ∃ frames, s.pendingFor n = frames.map PacketBuffer.data ++
        pendingFor { s with switch := t.switch, broadcast := some (t.buffer, t.point) } n ∧
      t.switch.encoder_pool n = ⟨(s.switch.encoder_pool n).pool ++ frames⟩ := by
  unfold Broadcast.Inv at hinv
  simp only [pendingFor, hinside]
  cases hmove with
  | @single node hpoint heq =>
    obtain rfl : point = .multicast := hpoint
    obtain rfl : pointer = some buffer := hinv.1
    refine ⟨if node = n then [buffer] else [], ?_, afterPush_pool ..⟩
    simp only [BroadcastPoint.rest, hnodes, heq, dataFor_cons, dataFor_nil, List.append_nil, map_data_ite]
  | enter hpoint heq =>
    obtain rfl : point = .multicast := hpoint
    obtain rfl : pointer = some buffer := hinv.1
    refine ⟨[], ?_, by rw [List.append_nil]⟩
    simp only [BroadcastPoint.rest, hnodes, heq, List.map_nil, List.nil_append]
  | finish hpoint =>
    obtain rfl : point = .loop [] := hpoint
    obtain rfl : pointer = none := hinv.1
    exact ⟨[], rfl, by rw [List.append_nil]⟩
  | @last it before hpoint heq =>
    obtain rfl : point = .loop [it] := hpoint
    obtain rfl : pointer = some buffer := hinv.1
    refine ⟨if it = n then [buffer] else [], ?_, afterPush_pool ..⟩
    simp only [BroadcastPoint.rest, dataFor_cons, dataFor_nil, List.append_nil, map_data_ite]
  | take hpoint heq hpool =>
    obtain rfl := (show point = _ from hpoint)
    obtain rfl : pointer = some buffer := hinv.1
    exact ⟨[], rfl, by rw [List.append_nil]⟩
  | @copy it next before rest buffer_copy hpoint heq =>
    obtain rfl := (show point = _ from hpoint)
    obtain rfl : pointer = some buffer := hinv.1
    refine ⟨if it = n then [buffer_copy.assign buffer] else [], ?_, afterPush_pool ..⟩
    rw [map_data_ite]
    exact dataFor_cons n it buffer (next :: rest)

end Reader

/-! ## Whole runs -/

section Runs
variable {T : Tunnel H} {addr : In6Addr → SockaddrStorage} {expire_time : Int} {remote_nodes : List In6Addr}
  {available : List (PacketBuffer T.B)} {s s' : TransmitSide H T.B} {event : TransmitEvent T.B}
  {events : List (TransmitEvent T.B)}

/-- **One step** of any thread. -/
theorem Through.step (hnodup : remote_nodes.Nodup) (hne : remote_nodes ≠ [])
    (howned : Owned remote_nodes T.packet_format available s) (n : In6Addr)
    (h : Through (T.to (addr n)) n events s) (hstep : Step T addr expire_time s event s') :
    Through (T.to (addr n)) n (events ++ [event]) s' := by
  cases hstep with
  | learn hturn =>
    obtain ⟨-, hpools, hnodes, -, -⟩ := learn_same hturn
    refine h.congr rfl rfl ?_ rfl (congrFun hpools n) rfl
    simp only [pendingFor, hnodes]
  | pop => exact h.congr rfl rfl rfl rfl rfl rfl
  | @unicast buffer next switch hreader hnone hstation hrun =>
    rcases forward_station howned.known hstation hrun with ⟨htargets, rfl, rfl⟩ | ⟨m, -, htargets, rfl, rfl⟩
    · refine h.advance [] ?_ (by rw [List.append_nil]) rfl rfl rfl
      rw [routedTo_routed, htargets]
      simp only [pendingFor, hnone]
      rfl
    · refine h.advance (if m = n then [buffer] else []) ?_ (afterPush_pool ..) rfl rfl rfl
      rw [routedTo_routed, htargets, dataFor_cons, dataFor_nil, map_data_ite]
      simp only [pendingFor, hnone, List.nil_append]
  | @multicast buffer hreader hnone =>
    refine h.advance [] ?_ (by rw [List.append_nil]) rfl rfl rfl
    rw [routedTo_routed]
    simp only [pendingFor, hnone]
    rfl
  | branch hinside hrun =>
    obtain ⟨buffer, labels, -, hinv, hmove⟩ := howned.moves hnodup hne hinside hrun
    obtain ⟨frames, hframes, hpool⟩ := pendingFor_move n hinside howned.remote_nodes_eq hinv hmove
    refine h.advance frames ?_ hpool rfl rfl rfl
    rw [routedTo_silent, List.append_nil]
    exact hframes
  | @back pointer hinside =>
    refine h.congr rfl rfl ?_ rfl rfl rfl
    simp only [pendingFor, hinside]
    cases pointer <;> rfl
  | @construct m comp_buffer pool hm hthread hpop =>
    by_cases hne : n = m
    · subst hne
      refine h.settle pool (fun arrived htook => ?_) ?_
      · rw [hthread] at htook
        exact htook
      · rw [hthread]
        rfl
    · exact h.settle_of_ne hne ..
  | @constructed m comp_buffer e hthread hrun =>
    by_cases hne : n = m
    · subst hne
      refine h.settle _ (fun arrived htook => ?_) ?_
      · rw [hthread] at htook
        exact htook.constructed _ hrun
      · rw [hthread]
        exact (starts_of_constructed hrun).2
    · exact h.settle_of_ne hne ..
  | @items m e timeout hthread hitems =>
    by_cases hne : n = m
    · subst hne
      exact h.take hthread fun thread heq => by
        subst heq
        exact .items rfl hitems
    · exact h.congr rfl rfl rfl (Function.update_of_ne hne ..) (Function.update_of_ne hne ..) rfl
  | @wake m e timeout hthread =>
    by_cases hne : n = m
    · subst hne
      exact h.take hthread fun thread heq => by
        subst heq
        exact .wake rfl
    · exact h.congr rfl rfl rfl (Function.update_of_ne hne ..) (Function.update_of_ne hne ..) rfl
  | @wait m e timeout hthread hitems =>
    by_cases hne : n = m
    · subst hne
      refine h.goOn (fun arrived htook => ?_) (by rw [hthread]; rfl)
      rw [hthread] at htook
      exact htook.goOn fun thread heq => by
        subst heq
        exact .wait rfl hitems
    · exact h.congr rfl rfl rfl (Function.update_of_ne hne ..) rfl rfl
  | @timeout m e timeout hthread hlimited =>
    by_cases hne : n = m
    · subst hne
      refine h.goOn (fun arrived htook => ?_) (by rw [hthread]; rfl)
      rw [hthread] at htook
      exact htook.goOn fun thread heq => by
        subst heq
        exact .timeout rfl hlimited
    · exact h.congr rfl rfl rfl (Function.update_of_ne hne ..) rfl rfl
  | @encoded m e timeout hthread =>
    by_cases hne : n = m
    · subst hne
      refine h.goOn (fun arrived htook => ?_) (by rw [hthread]; rfl)
      rw [hthread] at htook
      exact htook.goOn fun thread heq => by
        subst heq
        exact .encoded rfl
    · exact h.congr rfl rfl rfl (Function.update_of_ne hne ..) rfl rfl
  | @flush m e e' timeout fuel wait datagrams hthread hrun hpushed =>
    by_cases hne : n = m
    · subst hne
      refine h.settle _ (fun arrived htook => ?_) ?_
      · rw [hthread] at htook
        exact htook.startTurn .flush _ hrun
      · rw [SenderThread.datagrams_behind, hthread]
        exact hpushed
    · exact h.settle_of_ne hne ..
  | @encode m e e' timeout fuel buffer buffers wait datagrams hthread hrun hpushed =>
    by_cases hne : n = m
    · subst hne
      refine h.settle _ (fun arrived htook => ?_) ?_
      · rw [hthread] at htook
        exact htook.startTurn (.encode buffer buffers) _ hrun
      · rw [SenderThread.datagrams_behind, hthread]
        exact hpushed
    · exact h.settle_of_ne hne ..
  | @resume m e e' timeout fuel point w wait datagrams hthread hrun hpushed =>
    by_cases hne : n = m
    · subst hne
      refine h.settle _ (fun arrived htook => ?_) ?_
      · rw [hthread] at htook
        exact htook.resume _ hrun
      · rw [SenderThread.datagrams_behind, hthread]
        exact hpushed
    · exact h.settle_of_ne hne ..
  | @writerWait m hbuffers hsent =>
    by_cases hne : n = m
    · subst hne
      refine h.write _ rfl ?_
      rw [hbuffers, sentTo_silent, List.nil_append, List.nil_append, List.append_nil]
    · exact h.congr rfl rfl rfl rfl rfl (Function.update_of_ne hne ..)
  | @send m datagram rest hbuffers =>
    by_cases hne : n = m
    · subst hne
      refine h.write _ rfl ?_
      rw [hbuffers, sentTo_sent, if_pos rfl]
      rfl
    · refine h.congr rfl ?_ rfl rfl rfl (Function.update_of_ne hne ..)
      rw [sentTo_sent, if_neg (Ne.symm hne)]
  | @giveBack m hbuffers =>
    by_cases hne : n = m
    · subst hne
      have hwriter : (s.giveBack n).writer n = { s.writer n with sent := [] } := Function.update_self ..
      refine ⟨?_, ?_⟩
      · rw [routedTo_append, routedTo_silent, List.append_nil]
        exact h.arrived
      · rw [sentTo_append, sentTo_silent, List.append_nil, hwriter]
        exact h.pushed
    · exact h.congr rfl rfl rfl rfl rfl (Function.update_of_ne hne ..)

theorem Through.start (n : In6Addr) :
    Through (T.to (addr n)) n [] (.start remote_nodes available : TransmitSide H T.B) :=
  ⟨⟨[], rfl, rfl⟩, rfl⟩

/-- **Runs.** -/
theorem Through.of_path (hnodup : remote_nodes.Nodup) (hne : remote_nodes ≠ [])
    (hrun : StepPath (Step T addr expire_time) (.start remote_nodes available) events s) (n : In6Addr) :
    Through (T.to (addr n)) n events s := by
  have hinv : Owned remote_nodes T.packet_format available s ∧ ∀ n, Through (T.to (addr n)) n events s := by
    refine hrun.invariant_prefix [] (I := fun events s => Owned remote_nodes T.packet_format available s ∧
      ∀ n, Through (T.to (addr n)) n events s) ?_ ⟨.start remote_nodes available, Through.start⟩
    rintro done s event t ⟨howned, h⟩ hstep
    exact ⟨howned.step hnodup hne hstep, fun n => (h n).step hnodup hne howned n hstep⟩
  exact hinv.2 n

end Runs

end TransmitSide
end SuperEthd
